import PeerProbe.Bytes.Block

/-!
# Reading hexadecimal texts

The bytes of a text are there exactly if it is an even number of digits, and then there are half as
many of them. A marker in front is not part of the digits: what `read` gives back can be two
characters shorter than what it was given, which is all that the length of a text says less than
the number of its bytes.
-/

namespace PeerProbe.Block

variable {n : Nat} {bytes : List UInt8} {b : Block n}

theorem ofBytes?_eq_some_iff : ofBytes? n bytes = some b ↔ bytes = b.bytes := by
  unfold ofBytes?
  split
  next h => exact ⟨fun heq => (Option.some.inj heq) ▸ rfl, fun heq => by subst heq; rfl⟩
  next h => exact ⟨fun heq => (by cases heq), fun heq => absurd (heq ▸ b.length_eq) h⟩

theorem ofBytes?_eq_none_iff : ofBytes? n bytes = none ↔ bytes.length ≠ n := by
  simp [ofBytes?]

end PeerProbe.Block

namespace PeerProbe.Hex

variable {n : Nat} {c : Char} {cs : List Char} {bytes : List UInt8}

/-- A text of exactly `n` digits. -/
def AreDigits (n : Nat) (cs : List Char) : Prop :=
  cs.length = n ∧ ∀ c ∈ cs, (value? c).isSome

instance : Decidable (AreDigits n cs) := inferInstanceAs (Decidable (_ ∧ _))

/-- A marked text: `0x` or `0X`, and `n` digits. -/
def IsMarked (n : Nat) (cs : List Char) : Prop :=
  ∃ ds, AreDigits n ds ∧ (cs = '0' :: 'x' :: ds ∨ cs = '0' :: 'X' :: ds)

@[simp] theorem areDigits_nil : AreDigits n [] ↔ n = 0 :=
  ⟨fun h => h.1.symm, fun h => ⟨h.symm, by simp⟩⟩

theorem areDigits_cons : AreDigits (n + 1) (c :: cs) ↔ (value? c).isSome ∧ AreDigits n cs := by
  simp [AreDigits, and_left_comm]

theorem areDigits_replicate (h : (value? c).isSome) : AreDigits n (List.replicate n c) :=
  ⟨List.length_replicate, fun _ hd => List.eq_of_mem_replicate hd ▸ h⟩

/-- Digits are characters of ASCII. -/
theorem toNat_lt_of_value? (h : (value? c).isSome) : c.toNat < 128 := by
  simp only [value?] at h
  split at h
  · omega
  · split at h
    · omega
    · split at h
      · omega
      · cases h

theorem utf8Size_of_value? (h : (value? c).isSome) : c.utf8Size = 1 := by
  have hc : c.val ≤ 0x7f := by
    have := toNat_lt_of_value? h
    rw [UInt32.le_iff_toNat_le]
    exact Nat.lt_succ_iff.mp this
  simp [Char.utf8Size, hc]

/-- Of digits there are as many bytes of text as characters. -/
theorem utf8Length_of_areDigits (h : AreDigits n cs) : utf8Length cs = n := by
  induction cs generalizing n with
  | nil => simp_all [utf8Length]
  | cons c cs ih =>
    obtain ⟨hlen, hall⟩ := h
    have hc : (value? c).isSome := hall c List.mem_cons_self
    have hcs : utf8Length cs = cs.length :=
      ih ⟨rfl, fun d hd => hall d (List.mem_cons_of_mem _ hd)⟩
    rw [utf8Length, utf8Size_of_value? hc, hcs, ← hlen, List.length_cons, Nat.add_comm]

/-! ## Bytes -/

/-- A text with bytes is two digits for each of them. -/
theorem areDigits_of_bytes? : ∀ {cs : List Char} {bytes : List UInt8},
    bytes? cs = some bytes → AreDigits (2 * bytes.length) cs
  | [], bytes, h => by cases h; simp
  | [_], _, h => by cases h
  | high :: low :: rest, bytes, h => by
    simp only [bytes?, Option.bind_eq_bind, Option.bind_eq_some_iff, Option.some.injEq] at h
    obtain ⟨a, ha, b, hb, tail, htail, rfl⟩ := h
    have hrest := areDigits_of_bytes? htail
    rw [List.length_cons, Nat.mul_succ, areDigits_cons, areDigits_cons]
    exact ⟨by simp [ha], by simp [hb], hrest⟩

/-- Two digits for each of `n` bytes are a text with `n` bytes. -/
theorem exists_bytes? : ∀ {n : Nat} {cs : List Char}, AreDigits (2 * n) cs →
    ∃ bytes, bytes? cs = some bytes ∧ bytes.length = n
  | 0, [], _ => ⟨[], rfl, rfl⟩
  | 0, _ :: _, h => by cases h.1
  | n + 1, [], h => by cases h.1
  | n + 1, [_], h => by have := h.1; simp at this; omega
  | n + 1, high :: low :: rest, h => by
    rw [Nat.mul_succ, areDigits_cons, areDigits_cons] at h
    obtain ⟨hhigh, hlow, hrest⟩ := h
    obtain ⟨a, ha⟩ := Option.isSome_iff_exists.mp hhigh
    obtain ⟨b, hb⟩ := Option.isSome_iff_exists.mp hlow
    obtain ⟨tail, htail, hlen⟩ := exists_bytes? hrest
    exact ⟨UInt8.ofNat (16 * a + b) :: tail, by simp [bytes?, ha, hb, htail], by simp [hlen]⟩

/-- The digits of bytes are read as these bytes. -/
theorem bytes?_digits (bytes : List UInt8) : bytes? (digits bytes) = some bytes := by
  have hdigit : ∀ n < 16, value? (digit n) = some n := by decide
  induction bytes with
  | nil => rfl
  | cons b bytes ih =>
    have hb : b.toNat < 256 := b.toNat_lt
    have hhigh := hdigit (b.toNat / 16) (by omega)
    have hlow := hdigit (b.toNat % 16) (by omega)
    have hvalue : UInt8.ofNat (16 * (b.toNat / 16) + b.toNat % 16) = b := by
      rw [Nat.div_add_mod, UInt8.ofNat_toNat]
    change (do
      let h ← value? (digit (b.toNat / 16))
      let l ← value? (digit (b.toNat % 16))
      let tail ← bytes? (digits bytes)
      some (UInt8.ofNat (16 * h + l) :: tail)) = some (b :: bytes)
    simp only [hhigh, hlow, ih, Option.bind_eq_bind, Option.bind_some, hvalue]

/-! ## Markers -/

/-- A text stays as it is or loses a marker. -/
theorem stripMarker_cases (cs : List Char) :
    stripMarker cs = cs ∨ cs = '0' :: 'x' :: stripMarker cs ∨
      cs = '0' :: 'X' :: stripMarker cs := by
  unfold stripMarker
  split
  · exact .inr (.inl rfl)
  · exact .inr (.inr rfl)
  · exact .inl rfl

/-- Digits alone carry no marker. -/
theorem stripMarker_of_areDigits (h : AreDigits n cs) : stripMarker cs = cs := by
  obtain heq | heq | heq := stripMarker_cases cs
  · exact heq
  · have : (value? 'x').isSome := h.2 'x' (heq ▸ by simp)
    cases this
  · have : (value? 'X').isSome := h.2 'X' (heq ▸ by simp)
    cases this

/-- A text that is read without a size has the bytes of what stands behind its marker. -/
theorem read_eq_ok_iff : read cs none = .ok bytes ↔ bytes? (stripMarker cs) = some bytes := by
  constructor
  · intro h
    simp only [read, Option.any_none] at h
    split at h
    · cases h
    · rw [if_neg Bool.false_ne_true] at h
      split at h
      next hbytes => cases h; exact hbytes
      next => split at h <;> cases h
  · intro h
    have heven : ¬ utf8Length (stripMarker cs) % 2 = 1 := by
      rw [utf8Length_of_areDigits (areDigits_of_bytes? h)]
      omega
    simp [read, heven, h]

/-- A text is read as `n` bytes exactly if it is their digits, with a marker in front or not. -/
theorem read_length_iff :
    (∃ bytes, read cs none = .ok bytes ∧ bytes.length = n) ↔
      AreDigits (2 * n) cs ∨ IsMarked (2 * n) cs := by
  constructor
  · rintro ⟨bytes, h, rfl⟩
    have hdigits := areDigits_of_bytes? (read_eq_ok_iff.mp h)
    obtain heq | heq | heq := stripMarker_cases cs
    · exact .inl (heq ▸ hdigits)
    · exact .inr ⟨_, hdigits, .inl heq⟩
    · exact .inr ⟨_, hdigits, .inr heq⟩
  · rintro (h | ⟨ds, h, hcs⟩)
    · obtain ⟨bytes, hbytes, hlen⟩ := exists_bytes? h
      exact ⟨bytes, read_eq_ok_iff.mpr (by rwa [stripMarker_of_areDigits h]), hlen⟩
    · obtain ⟨bytes, hbytes, hlen⟩ := exists_bytes? h
      refine ⟨bytes, read_eq_ok_iff.mpr ?_, hlen⟩
      obtain rfl | rfl := hcs <;> exact hbytes

/-- The text of a marked one is two characters longer than its digits. -/
theorem utf8Length_of_isMarked (h : IsMarked n cs) : utf8Length cs = n + 2 := by
  obtain ⟨ds, hds, hcs⟩ := h
  have hlen := utf8Length_of_areDigits hds
  obtain rfl | rfl := hcs
  · change 1 + (1 + utf8Length ds) = n + 2
    omega
  · change 1 + (1 + utf8Length ds) = n + 2
    omega

/-! ## Sixty-four bytes -/

/-- A text whose length is that of `n + 1` bytes is their digits, or it is marked and has one byte
less, or it cannot be read. -/
theorem read_cases (n : Nat) (hlen : utf8Length cs = 2 * n + 2) (hread : read cs none = .ok bytes) :
    (AreDigits (2 * n + 2) cs ∧ bytes.length = n + 1) ∨
      (IsMarked (2 * n) cs ∧ bytes.length = n) := by
  obtain h | h := read_length_iff.mp ⟨bytes, hread, rfl⟩
  · have heq : 2 * bytes.length = 2 * n + 2 := (utf8Length_of_areDigits h).symm.trans hlen
    exact .inl ⟨heq ▸ h, by omega⟩
  · have heq : 2 * bytes.length + 2 = 2 * n + 2 := (utf8Length_of_isMarked h).symm.trans hlen
    obtain rfl : bytes.length = n := by omega
    exact .inr ⟨h, rfl⟩

/-- What a reader of identities stumbles over, a text that is long enough but holds no 64 bytes, is
126 marked digits. -/
theorem exists_ofBytes?_eq_none_iff :
    (utf8Length cs = 128 ∧ ∃ bytes, read cs none = .ok bytes ∧ Block.ofBytes? 64 bytes = none) ↔
      IsMarked 126 cs := by
  constructor
  · rintro ⟨hlen, bytes, hread, hnone⟩
    obtain ⟨-, hsize⟩ | ⟨hmarked, -⟩ := read_cases 63 hlen hread
    · exact absurd hsize (Block.ofBytes?_eq_none_iff.mp hnone)
    · exact hmarked
  · intro h
    obtain ⟨bytes, hread, hsize⟩ := read_length_iff.mpr (.inr h : _ ∨ IsMarked (2 * 63) cs)
    exact ⟨utf8Length_of_isMarked h, bytes, hread,
      Block.ofBytes?_eq_none_iff.mpr (by rw [hsize]; decide)⟩

end PeerProbe.Hex
