import PeerProbe.Json.Tree

/-!
# Strings as they are written

A string is written character by character between two quotes, some of them as escapes. Each escape
is read as the character it was written for, so the string is read as it was, whatever follows it.

One thing depends on what stands behind an escape. A reader that has found one numbered escape looks
for a second one, because together they could name one character, and refuses the string if the second
one is malformed. The printer numbers control characters only. So the first is never the half of a
pair, and the second is well-formed.
-/

namespace PeerProbe.Json

variable {c : Char} {cs rest more : List Char} {fuel : Nat}

/-- A character between quotes and what follows it. -/
inductive Printed (rest : List Char) : Char → List Char → Prop where
  | short (c mark : Char) (hmark : mark ≠ 'u') (hread : shortEscape? mark = some c) :
      Printed rest c ('\\' :: mark :: rest)
  | control (c : Char) (hsmall : c.toNat < 0x20) :
      Printed rest c ('\\' :: 'u' :: '0' :: '0' :: (controlDigits c.toNat ++ rest))
  | plain (c : Char) (hsmall : ¬c.toNat < 0x20) (hquote : c ≠ '"') (hslash : c ≠ '\\') :
      Printed rest c (c :: rest)

/-- Every character is printed in one of three ways. -/
theorem printed_escapeChar (c : Char) (rest : List Char) : Printed rest c (escapeChar c ++ rest) := by
  unfold escapeChar
  split
  · next h => subst h; exact .short _ '"' (by decide) rfl
  split
  · next h => subst h; exact .short _ '\\' (by decide) rfl
  split
  · next h => subst h; exact .short _ 'b' (by decide) rfl
  split
  · next h => subst h; exact .short _ 'f' (by decide) rfl
  split
  · next h => subst h; exact .short _ 'n' (by decide) rfl
  split
  · next h => subst h; exact .short _ 'r' (by decide) rfl
  split
  · next h => subst h; exact .short _ 't' (by decide) rfl
  split
  · next hsmall => exact .control c hsmall
  · next hquote hslash _ _ _ _ _ hsmall => exact .plain c hsmall hquote hslash

/-- The number of a control character is read as it was written. -/
theorem unit?_controlDigits (hsmall : c.toNat < 0x20) (rest : List Char) :
    unit? ('0' :: '0' :: (controlDigits c.toNat ++ rest)) = some (c.toNat, rest) := by
  have hall : ∀ n < 0x20, Text.digitsValue? 16 0 ('0' :: '0' :: controlDigits n) = some n := by decide
  have hread := hall c.toNat hsmall
  simp only [controlDigits] at hread
  simp [controlDigits, unit?, hread]

/-- The number behind a numbered escape of the printer can be read. -/
theorem isSome_unit? (h : cs.flatMap escapeChar ++ '"' :: rest = '\\' :: 'u' :: more) :
    (unit? more).isSome := by
  cases cs with
  | nil => cases h
  | cons c cs =>
    rw [List.flatMap_cons, List.append_assoc] at h
    generalize cs.flatMap escapeChar ++ '"' :: rest = behind at h
    have hprinted := printed_escapeChar c behind
    rw [h] at hprinted
    cases hprinted with
    | short mark hmark hread => exact absurd rfl hmark
    | control hsmall => rw [unit?_controlDigits hsmall]; rfl
    | plain hsmall hquote hslash => exact absurd rfl hslash

/-- Reading takes one character at a time. -/
theorem stringBody_printed {text : List Char} (h : Printed rest c text)
    (hpairs : ∀ more, rest = '\\' :: 'u' :: more → (unit? more).isSome) :
    stringBody (fuel + 1) text = (stringBody fuel rest).map (consChar (some c)) := by
  cases h with
  | short mark hmark hread =>
    rw [stringBody, hread]
    exact hmark
  | control hsmall =>
    rw [stringBody, unit?_controlDigits hsmall]
    have hpair (low : Nat) : pair? c.toNat low = none := if_neg (by omega)
    have hsingle : single? c.toNat = some c := by
      rw [single?, if_neg (by omega), Char.ofNat_toNat]
    dsimp only
    split
    · next more =>
      obtain ⟨⟨low, behind⟩, hlow⟩ := Option.isSome_iff_exists.mp (hpairs more rfl)
      rw [hlow]
      simp only [hpair, hsingle]
    · rw [hsingle]
  | plain hsmall hquote hslash =>
    rw [stringBody]
    · rw [if_neg (by simp [hsmall, hslash])]
    · exact hquote
    · exact fun _ hc _ => hslash hc
    · exact fun _ _ hc _ => hslash hc

/-- What stands between the quotes is read as it was written. -/
theorem stringBody_flatMap (hfuel : cs.length < fuel) (rest : List Char) :
    stringBody fuel (cs.flatMap escapeChar ++ '"' :: rest) = some (some cs, rest) := by
  induction cs generalizing fuel with
  | nil =>
    obtain ⟨fuel, rfl⟩ := Nat.exists_eq_succ_of_ne_zero (Nat.ne_zero_of_lt hfuel)
    rfl
  | cons c cs ih =>
    obtain ⟨fuel, rfl⟩ := Nat.exists_eq_succ_of_ne_zero (Nat.ne_zero_of_lt hfuel)
    rw [List.flatMap_cons, List.append_assoc, stringBody_printed (printed_escapeChar c _)
      fun more => isSome_unit?, ih (Nat.lt_of_succ_lt_succ hfuel)]
    rfl

theorem length_le_flatMap (cs : List Char) : cs.length ≤ (cs.flatMap escapeChar).length := by
  induction cs with
  | nil => exact Nat.le_refl 0
  | cons c cs ih =>
    have hpos : 0 < (escapeChar c).length := by
      have hprinted := printed_escapeChar c []
      rw [List.append_nil] at hprinted
      generalize escapeChar c = text at hprinted
      cases hprinted <;> simp
    rw [List.flatMap_cons, List.length_append, List.length_cons]
    omega

/-- Blanks in front are passed over. -/
theorem skipSpace_append {before : List Char} (hbefore : ∀ c ∈ before, isSpace c) (hc : ¬isSpace c) :
    skipSpace (before ++ c :: cs) = c :: cs := by
  rw [skipSpace, List.dropWhile_append_of_pos hbefore, List.dropWhile_cons_of_neg hc]

/-- A string is read up to its closing quote. -/
theorem string?_flatMap (s : String) (behind : List Char) :
    string? (s.toList.flatMap escapeChar ++ '"' :: behind) = some (some s, behind) := by
  have hlength : s.toList.length < (s.toList.flatMap escapeChar ++ '"' :: behind).length + 1 := by
    have hle := length_le_flatMap s.toList
    rw [List.length_append]
    omega
  rw [string?, stringBody_flatMap hlength]
  simp

/-- A string is read as it was written, with blanks in front of it and whatever stands behind it. -/
theorem readValue_string {before : List Char} (hbefore : ∀ c ∈ before, isSpace c) (s : String)
    (behind : List Char) (fuel : Nat) :
    readValue (fuel + 1) (before ++ ((Value.string s).chars ++ behind)) =
      some (.string (some s), behind) := by
  have hchars : (Value.string s).chars ++ behind =
      '"' :: (s.toList.flatMap escapeChar ++ '"' :: behind) := by
    simp [Value.chars, stringChars]
  rw [hchars, readValue, skipSpace_append hbefore (by decide)]
  simp [string?_flatMap]

/-- Control characters are not written as themselves. -/
theorem control_not_mem_escapeChar {d : Char} (hsmall : c.toNat < 0x20) : c ∉ escapeChar d := by
  have hprinted := printed_escapeChar d []
  rw [List.append_nil] at hprinted
  generalize escapeChar d = text at hprinted
  have hne {e : Char} (he : ¬e.toNat < 0x20) : c ≠ e := fun h => he (h ▸ hsmall)
  intro hmem
  cases hprinted with
  | short mark hmark hread =>
    simp only [List.mem_cons, List.not_mem_nil, or_false] at hmem
    obtain rfl | rfl := hmem
    · exact absurd hsmall (by decide)
    · have hmarks : ∀ n < 0x20, shortEscape? (Char.ofNat n) = none := by decide
      have hnone := hmarks c.toNat hsmall
      rw [Char.ofNat_toNat, hread] at hnone
      contradiction
  | control hcontrol =>
    have hall : ∀ n < 0x20,
        ('\\' :: 'u' :: '0' :: '0' :: controlDigits n).all fun e => 0x20 ≤ e.toNat := by
      decide
    rw [List.append_nil] at hmem
    have hlarge : 0x20 ≤ c.toNat :=
      of_decide_eq_true (List.all_eq_true.mp (hall _ hcontrol) c hmem)
    omega
  | plain hd => exact hne hd (List.mem_singleton.mp hmem)

/-- Neither are they in a string that is written. -/
theorem control_not_mem_stringChars (hsmall : c.toNat < 0x20) : c ∉ stringChars cs := by
  intro hmem
  simp only [stringChars, List.cons_append, List.mem_cons, List.mem_append, List.mem_flatMap,
    List.not_mem_nil, or_false] at hmem
  obtain rfl | ⟨d, -, hd⟩ | rfl := hmem
  · exact absurd hsmall (by decide)
  · exact control_not_mem_escapeChar hsmall hd
  · exact absurd hsmall (by decide)

end PeerProbe.Json
