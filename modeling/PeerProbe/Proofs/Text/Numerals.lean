import PeerProbe.Text.Decimal

/-!
# Numbers as they are written

A number is written digit by digit, the most significant one first, and there is no zero in front of
other digits. Every reader of numbers goes through these digits in the same way, so what it makes of
them is the number again.
-/

namespace PeerProbe.Text

variable {radix bound n d : Nat} {ds : List Nat} {c : Char}

/-- The value of digits that follow a number already read. -/
def valueFrom (radix : Nat) (n : Nat) (ds : List Nat) : Nat := ds.foldl (fun n d => radix * n + d) n

/-- The digits of a number as values. -/
structure Places (radix n : Nat) (ds : List Nat) : Prop where
  written : Nat.toDigits radix n = ds.map Nat.digitChar
  small : ∀ d ∈ ds, d < radix
  value : valueFrom radix 0 ds = n
  /-- A zero in front stands alone. -/
  lone : ds.head? = some 0 → ds = [0]

theorem Places.ne_nil (h : Places radix n ds) : ds ≠ [] := by
  rintro rfl
  exact Nat.toDigits_ne_nil h.written

/-- Every number has digits. -/
theorem exists_places (hradix : 1 < radix) (n : Nat) : ∃ ds, Places radix n ds := by
  induction n using Nat.strongRecOn with
  | ind n ih =>
    by_cases hsmall : n < radix
    · have hwritten : Nat.toDigits radix n = [Nat.digitChar n] := Nat.toDigits_of_lt_base hsmall
      exact ⟨[n], hwritten, by simpa, by simp [valueFrom], by simp⟩
    · have hdiv : 0 < n / radix := Nat.div_pos (Nat.not_lt.mp hsmall) (by omega)
      obtain ⟨ds, hds⟩ := ih (n / radix) (Nat.div_lt_self (by omega) hradix)
      refine ⟨ds ++ [n % radix], ?_, ?_, ?_, ?_⟩
      · rw [Nat.toDigits_of_base_le hradix (Nat.not_lt.mp hsmall), hds.written, List.map_append,
          List.map_singleton]
      · have hlast : n % radix < radix := Nat.mod_lt n (by omega)
        simpa [or_imp, forall_and, hlast] using hds.small
      · have hvalue := hds.value
        unfold valueFrom at hvalue ⊢
        rw [List.foldl_append, hvalue]
        exact Nat.div_add_mod n radix
      · intro hzero
        have hfront : ds.head? = some 0 := by
          cases ds with
          | nil => exact absurd rfl hds.ne_nil
          | cons d ds => exact hzero
        -- What stands in front of the last digit is not zero.
        have hvalue := hds.value
        rw [hds.lone hfront] at hvalue
        simp only [valueFrom, List.foldl_cons, Nat.mul_zero, Nat.add_zero, List.foldl_nil] at hvalue
        omega

/-- The character of a digit is read as that digit. -/
theorem digit?_digitChar (hradix : radix ≤ 16) (hd : d < radix) :
    digit? radix (Nat.digitChar d) = some d := by
  have hall : ∀ d < 16, Hex.value? (Nat.digitChar d) = some d := by decide
  rw [digit?, hall d (by omega)]
  simp [hd]

/-- What a number is written with are digits. -/
theorem isSome_digit?_of_mem (hradix : 1 < radix) (hradix' : radix ≤ 16)
    (hc : c ∈ Nat.toDigits radix n) : (digit? radix c).isSome := by
  obtain ⟨ds, hds⟩ := exists_places hradix n
  rw [hds.written] at hc
  obtain ⟨d, hd, rfl⟩ := List.mem_map.mp hc
  rw [digit?_digitChar hradix' (hds.small d hd)]
  rfl

/-- A character that is no digit is not in a number. -/
theorem not_mem_toDigits (hradix : 1 < radix) (hradix' : radix ≤ 16) (hc : digit? radix c = none) :
    c ∉ Nat.toDigits radix n := fun hmem => by
  have hsome := isSome_digit?_of_mem hradix hradix' hmem
  simp [hc] at hsome

theorem digitsValue?_map (hradix : radix ≤ 16) (hsmall : ∀ d ∈ ds, d < radix) (n : Nat) :
    digitsValue? radix n (ds.map Nat.digitChar) = some (valueFrom radix n ds) := by
  induction ds generalizing n with
  | nil => rfl
  | cons d ds ih =>
    have hd : digit? radix (Nat.digitChar d) = some d :=
      digit?_digitChar hradix (hsmall d List.mem_cons_self)
    rw [List.map_cons, digitsValue?, hd]
    exact ih (fun d' hd' => hsmall d' (List.mem_cons_of_mem _ hd')) _

/-- A number is read as it was written. -/
theorem unsigned?_decimal (hbound : n < bound) : unsigned? bound (decimal n) = some n := by
  have hplus : '+' ∉ Nat.toDigits 10 n := not_mem_toDigits (by decide) (by decide) rfl
  obtain ⟨ds, hds⟩ : ∃ ds, Places 10 n ds := exists_places (by decide) n
  have hvalue : digitsValue? 10 0 (Nat.toDigits 10 n) = some n := by
    rw [hds.written, digitsValue?_map (by decide) hds.small, hds.value]
  have hsign : ∀ rest, decimal n = '+' :: rest → False := fun rest heq =>
    hplus (heq ▸ List.mem_cons_self : '+' ∈ decimal n)
  rw [unsigned?, decimal, hvalue, if_neg (by simp [Nat.toDigits_ne_nil])]
  · simp [hbound]
  · exact hsign

end PeerProbe.Text
