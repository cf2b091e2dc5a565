import PeerProbe.Text.Utf8

/-!
# Texts through bytes and back

A text that is written as UTF-8 is read as it was. Only the characters of ASCII are written with
bytes below 0x80, and each as its own number, so a byte like the line feed stands in the bytes exactly
where its character stands in the text.
-/

namespace PeerProbe.Utf8

variable {c : Char} {cs : List Char} {bs : List UInt8}

/-- A character is below the surrogates, or above them and within Unicode. -/
theorem toNat_valid (c : Char) : c.toNat < 0xd800 ∨ 0xdfff < c.toNat ∧ c.toNat < 0x110000 := c.valid

/-- A continuation byte carries six bits. -/
theorem tail?_ofNat {n : Nat} (h : n < 64) : tail? (UInt8.ofNat (n + 128)) = some n := by
  have hbyte : (UInt8.ofNat (n + 128)).toNat = n + 128 := by
    rw [UInt8.toNat_ofNat', Nat.mod_eq_of_lt (by omega)]
  simp only [tail?, hbyte]
  rw [if_pos (by omega), Nat.add_sub_cancel]

/-- The character of two bytes. -/
theorem two?_ofNat (hlow : 0x80 ≤ c.toNat) (hhigh : c.toNat < 0x800) :
    two? (UInt8.ofNat (c.toNat / 64 % 32 + 192)) (UInt8.ofNat (c.toNat % 64 + 128)) = some c := by
  have hlead : (UInt8.ofNat (c.toNat / 64 % 32 + 192)).toNat = c.toNat / 64 + 192 := by
    rw [UInt8.toNat_ofNat']
    omega
  have hvalue : (c.toNat / 64 + 192 - 0xc0) * 64 + c.toNat % 64 = c.toNat := by omega
  simp only [two?, tail?_ofNat (Nat.mod_lt _ (by decide)), hlead, hvalue, Option.bind_eq_bind,
    Option.bind_some]
  rw [if_pos hlow, Char.ofNat_toNat]

/-- The character of three bytes. -/
theorem three?_ofNat (hlow : 0x800 ≤ c.toNat) (hhigh : c.toNat < 0x10000) :
    three? (UInt8.ofNat (c.toNat / 4096 % 16 + 224)) (UInt8.ofNat (c.toNat / 64 % 64 + 128))
      (UInt8.ofNat (c.toNat % 64 + 128)) = some c := by
  have hlead : (UInt8.ofNat (c.toNat / 4096 % 16 + 224)).toNat = c.toNat / 4096 + 224 := by
    rw [UInt8.toNat_ofNat']
    omega
  have hvalue : ((c.toNat / 4096 + 224 - 0xe0) * 64 + c.toNat / 64 % 64) * 64 + c.toNat % 64 =
      c.toNat := by omega
  simp only [three?, tail?_ofNat (Nat.mod_lt _ (by decide : 0 < 64)), hlead, hvalue,
    Option.bind_eq_bind, Option.bind_some]
  have hvalid := toNat_valid c
  rw [if_pos ⟨hlow, by omega⟩, Char.ofNat_toNat]

/-- The character of four bytes. -/
theorem four?_ofNat (hlow : 0x10000 ≤ c.toNat) :
    four? (UInt8.ofNat (c.toNat / 262144 % 8 + 240)) (UInt8.ofNat (c.toNat / 4096 % 64 + 128))
      (UInt8.ofNat (c.toNat / 64 % 64 + 128)) (UInt8.ofNat (c.toNat % 64 + 128)) = some c := by
  have hvalid := toNat_valid c
  have hlead : (UInt8.ofNat (c.toNat / 262144 % 8 + 240)).toNat = c.toNat / 262144 + 240 := by
    rw [UInt8.toNat_ofNat']
    omega
  have hvalue : (((c.toNat / 262144 + 240 - 0xf0) * 64 + c.toNat / 4096 % 64) * 64 +
      c.toNat / 64 % 64) * 64 + c.toNat % 64 = c.toNat := by omega
  simp only [four?, tail?_ofNat (Nat.mod_lt _ (by decide : 0 < 64)), hlead, hvalue,
    Option.bind_eq_bind, Option.bind_some]
  rw [if_pos ⟨hlow, by omega⟩, Char.ofNat_toNat]

/-- The bytes of a character. -/
inductive Encoded (c : Char) : List UInt8 → Prop where
  | one (h : c.toNat < 0x80) : Encoded c [UInt8.ofNat c.toNat]
  | two (hlow : 0x80 ≤ c.toNat) (hhigh : c.toNat < 0x800) :
      Encoded c [UInt8.ofNat (c.toNat / 64 % 32 + 192), UInt8.ofNat (c.toNat % 64 + 128)]
  | three (hlow : 0x800 ≤ c.toNat) (hhigh : c.toNat < 0x10000) :
      Encoded c [UInt8.ofNat (c.toNat / 4096 % 16 + 224), UInt8.ofNat (c.toNat / 64 % 64 + 128),
        UInt8.ofNat (c.toNat % 64 + 128)]
  | four (hlow : 0x10000 ≤ c.toNat) :
      Encoded c [UInt8.ofNat (c.toNat / 262144 % 8 + 240), UInt8.ofNat (c.toNat / 4096 % 64 + 128),
        UInt8.ofNat (c.toNat / 64 % 64 + 128), UInt8.ofNat (c.toNat % 64 + 128)]

/-- Every character has its bytes. -/
theorem encoded_utf8EncodeChar (c : Char) : Encoded c (String.utf8EncodeChar c) := by
  have htoNat : c.val.toNat = c.toNat := rfl
  simp only [String.utf8EncodeChar, htoNat]
  split
  · exact .one (by omega)
  split
  · exact .two (by omega) (by omega)
  split
  · exact .three (by omega) (by omega)
  · exact .four (by omega)

/-- A character is read as it was written, whatever follows it. -/
theorem front_append (h : Encoded c bs) (rest : List UInt8) :
    front (bs ++ rest) = (c :: (front rest).1, (front rest).2) := by
  have hlead {n : Nat} (h : n < 256) : (UInt8.ofNat n).toNat = n := by
    rw [UInt8.toNat_ofNat', Nat.mod_eq_of_lt h]
  have hvalid := toNat_valid c
  cases h with
  | one h =>
    rw [List.singleton_append, front.eq_def]
    dsimp only
    rw [hlead (by omega), if_pos h, Char.ofNat_toNat, push]
  | two hlow hhigh =>
    rw [List.cons_append, List.singleton_append, front.eq_def]
    dsimp only
    rw [hlead (by omega), if_neg (by omega), if_neg (by omega), if_pos (by omega),
      two?_ofNat hlow hhigh, push]
  | three hlow hhigh =>
    rw [List.cons_append, List.cons_append, List.singleton_append, front.eq_def]
    dsimp only
    rw [hlead (by omega), if_neg (by omega), if_neg (by omega), if_neg (by omega),
      if_pos (by omega), three?_ofNat hlow hhigh, push]
  | four hlow =>
    rw [List.cons_append, List.cons_append, List.cons_append, List.singleton_append, front.eq_def]
    dsimp only
    rw [hlead (by omega), if_neg (by omega), if_neg (by omega), if_neg (by omega),
      if_neg (by omega), if_pos (by omega), four?_ofNat hlow, push]

/-- A text is read as it was written, and to its end. -/
theorem front_encode (cs : List Char) : front (encode cs) = (cs, []) := by
  induction cs with
  | nil => rfl
  | cons c cs ih =>
    have hcons : encode (c :: cs) = String.utf8EncodeChar c ++ encode cs := List.flatMap_cons
    rw [hcons, front_append (encoded_utf8EncodeChar c), ih]

theorem decode_encode (cs : List Char) : decode (encode cs) = some cs := by
  rw [decode, front_encode]

/-- A byte below 0x80 is a character of its own. -/
theorem mem_of_mem_encode {b : UInt8} (hsmall : b.toNat < 0x80) (hb : b ∈ encode cs) :
    Char.ofNat b.toNat ∈ cs := by
  obtain ⟨c, hc, hb⟩ := List.mem_flatMap.mp hb
  have hvalid := toNat_valid c
  have hencoded := encoded_utf8EncodeChar c
  generalize String.utf8EncodeChar c = bs at hb hencoded
  cases hencoded with
  | one h =>
    obtain rfl := List.mem_singleton.mp hb
    rw [UInt8.toNat_ofNat', Nat.mod_eq_of_lt (by omega), Char.ofNat_toNat]
    exact hc
  | two | three | four =>
    simp only [List.mem_cons, List.not_mem_nil, or_false, ← UInt8.toNat_inj,
      UInt8.toNat_ofNat'] at hb
    omega

/-- The last byte of a text that ends in ASCII is its last character. -/
theorem getLast?_encode (cs : List Char) (h : c.toNat < 0x80) :
    (encode (cs ++ [c])).getLast? = some (UInt8.ofNat c.toNat) := by
  have hencoded := encoded_utf8EncodeChar c
  rw [encode, List.flatMap_append, List.flatMap_singleton]
  generalize String.utf8EncodeChar c = bs at hencoded
  cases hencoded with
  | one => exact List.getLast?_concat ..
  | two | three | four => omega

end PeerProbe.Utf8
