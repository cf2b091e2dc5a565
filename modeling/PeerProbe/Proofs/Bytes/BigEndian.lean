import PeerProbe.Bytes.BigEndian
import Mathlib.Data.List.Induction
import Mathlib.Data.Nat.Log
import Mathlib.Tactic.Ring

/-!
# The arithmetic of big-endian numbers

Reading inverts writing in both directions: digits of a fixed count come back as the number
modulo its range, and any byte string comes back from its number and its length. The shortest
form is the one byte string of a number that does not begin with zero.
-/

namespace PeerProbe.BigEndian

/-- A last byte is the lowest digit. -/
theorem toNat_concat (bytes : List UInt8) (b : UInt8) :
    toNat (bytes ++ [b]) = 256 * toNat bytes + b.toNat := by
  simp [toNat]

/-- Digits in front count for as much as the digits behind them take up. -/
theorem toNat_append (front back : List UInt8) :
    toNat (front ++ back) = toNat front * 256 ^ back.length + toNat back := by
  induction back using List.reverseRecOn with
  | nil => simp [toNat]
  | append_singleton back b ih =>
    rw [← List.append_assoc, toNat_concat, toNat_concat, ih, List.length_append,
      List.length_singleton, pow_succ]
    ring

/-- A byte string stands for less than the next power of 256. -/
theorem toNat_lt (bytes : List UInt8) : toNat bytes < 256 ^ bytes.length := by
  induction bytes using List.reverseRecOn with
  | nil => simp [toNat]
  | append_singleton bytes b ih =>
    have hb := b.toNat_lt
    rw [toNat_concat, List.length_append, List.length_singleton, pow_succ]
    omega

/-- There are as many digits as asked for. -/
@[simp] theorem length_fixed (count n : Nat) : (fixed count n).length = count := by
  induction count generalizing n with
  | zero => rfl
  | succ count ih => simp [fixed, ih]

/-- Digits that are read back give the number modulo their range. -/
theorem toNat_fixed (count n : Nat) : toNat (fixed count n) = n % 256 ^ count := by
  induction count generalizing n with
  | zero => simp [fixed, toNat, Nat.mod_one]
  | succ count ih =>
    have hdigit : (UInt8.ofNat (n % 256)).toNat = n % 256 := by simp
    rw [fixed, toNat_concat, ih, hdigit, pow_succ, Nat.mul_comm (256 ^ count), Nat.mod_mul]
    omega

/-- A byte string is given back by its number and its length. -/
theorem fixed_toNat (bytes : List UInt8) : fixed bytes.length (toNat bytes) = bytes := by
  induction bytes using List.reverseRecOn with
  | nil => rfl
  | append_singleton bytes b ih =>
    have hb := b.toNat_lt
    have hhigh : toNat (bytes ++ [b]) / 256 = toNat bytes := by rw [toNat_concat]; omega
    have hlow : toNat (bytes ++ [b]) % 256 = b.toNat := by rw [toNat_concat]; omega
    rw [List.length_append, List.length_singleton, fixed, hhigh, hlow, ih, UInt8.ofNat_toNat]

/-- Only the number modulo the range of its digits is written. -/
theorem fixed_mod (count n : Nat) : fixed count (n % 256 ^ count) = fixed count n := by
  have h := fixed_toNat (fixed count n)
  rwa [length_fixed, toNat_fixed] at h

/-- A number has at most `count` digits exactly if it lies below that power of 256. -/
theorem width_le_iff (n count : Nat) : width n ≤ count ↔ n < 256 ^ count := by
  unfold width
  split
  · next hzero => simp [hzero]
  · next hpos =>
    have hpow : 256 ^ count = 2 ^ (8 * count) := by rw [pow_mul]; rfl
    rw [hpow, ← Nat.log2_lt hpos]
    omega

/-- The shortest form is as long as the number is wide. -/
@[simp] theorem length_shortest (n : Nat) : (shortest n).length = width n := length_fixed _ _

/-- The shortest form reads back as the number. -/
@[simp] theorem toNat_shortest (n : Nat) : toNat (shortest n) = n := by
  rw [shortest, toNat_fixed, Nat.mod_eq_of_lt ((width_le_iff n _).mp le_rfl)]

/-- A byte string with a first digit is at least as large as that digit makes it. -/
theorem pow_le_toNat {b : UInt8} {rest : List UInt8} (hb : b ≠ 0) :
    256 ^ rest.length ≤ toNat (b :: rest) := by
  have hpos : 0 < b.toNat := Nat.pos_of_ne_zero fun h => hb (UInt8.toNat_inj.mp h)
  rw [← List.singleton_append, toNat_append]
  have hfirst : toNat [b] = b.toNat := by simp [toNat]
  rw [hfirst]
  exact (Nat.le_mul_of_pos_left _ hpos).trans (Nat.le_add_right _ _)

/-- A byte string that does not begin with zero has exactly the width of its number. -/
theorem width_toNat {bytes : List UInt8} (h : bytes.head? ≠ some 0) :
    width (toNat bytes) = bytes.length := by
  cases bytes with
  | nil => rfl
  | cons b rest =>
    have hb : b ≠ 0 := by simpa using h
    have hle := (width_le_iff _ _).mpr (toNat_lt (b :: rest))
    have hgt : ¬ width (toNat (b :: rest)) ≤ rest.length := by
      rw [width_le_iff]
      exact Nat.not_lt.mpr (pow_le_toNat hb)
    simp only [List.length_cons] at hle ⊢
    omega

/-- A byte string that does not begin with zero is the shortest form of its number. -/
theorem shortest_toNat {bytes : List UInt8} (h : bytes.head? ≠ some 0) :
    shortest (toNat bytes) = bytes := by
  rw [shortest, width_toNat h, fixed_toNat]

/-- The shortest form never begins with zero. -/
theorem head?_shortest (n : Nat) : (shortest n).head? ≠ some 0 := by
  intro hhead
  obtain ⟨rest, hrest⟩ := List.head?_eq_some_iff.mp hhead
  -- Without the zero the rest would stand for the same number in one digit less.
  have hvalue : n = toNat rest := by
    rw [← toNat_shortest n, hrest, ← List.singleton_append, toNat_append]
    simp [toNat]
  have hwidth : width n = rest.length + 1 := by
    rw [← length_shortest, hrest, List.length_cons]
  have hle := (width_le_iff n rest.length).mpr (hvalue ▸ toNat_lt rest)
  omega

end PeerProbe.BigEndian
