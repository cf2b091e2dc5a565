/-!
# Numbered files, the older the higher

A live file and its backups are files by number: the live file is number 0, and a backup with a higher
number is older. Some of them are moved up by one, from the highest number down, so that none is
overwritten but the last one, and that one only if there is a file to take its place.

What the files hold, from the oldest to the live one, then loses the last file or nothing. Gaps between
the numbers are allowed throughout; a file that is missing moves nothing.
-/

namespace PeerProbe.Log

/-- Files by number. -/
abbrev Chain (α : Type) : Type := Nat → Option α

namespace Chain

variable {α β : Type}

/-- The files with numbers below `n`, the oldest first. -/
def below (c : Chain α) : Nat → List α
  | 0 => []
  | n + 1 => (c n).toList ++ below c n

/-- File `p` moved up by one, over whatever is there. -/
def raise (p : Nat) (c : Chain α) : Chain α := fun n =>
  if n = p then none else if n = p + 1 then (c p).or (c (p + 1)) else c n

/-- The files from `lo` on and below `hi` moved up by one, the highest first. -/
def raised (lo hi : Nat) (c : Chain α) : Chain α := fun n =>
  if hi ≤ lo ∨ n < lo ∨ hi < n then c n
  else if n = lo then none
  else if n < hi then c (n - 1)
  else (c (hi - 1)).or (c hi)

/-- The file that is overwritten when the files from `lo` on and below `hi` are moved up by one. -/
def displaced (lo hi : Nat) (c : Chain α) : List α :=
  if lo < hi ∧ (c (hi - 1)).isSome then (c hi).toList else []

variable {c : Chain α} {lo hi n : Nat}

/-- A file that is missing moves nothing. -/
theorem raise_of_none {p : Nat} (h : c p = none) : raise p c = c := by
  funext n
  grind [raise]

/-- The files below the one that moves stay. -/
theorem raise_of_lt {p : Nat} (h : n < p) (c : Chain α) : raise p c n = c n := by
  rw [raise, if_neg (by omega), if_neg (by omega)]

/-- No file is moved. -/
theorem raised_of_le (h : hi ≤ lo) (c : Chain α) : raised lo hi c = c := by
  funext n
  exact if_pos (.inl h)

/-- The files below the first one that moves stay. -/
theorem raised_of_lt (h : n < lo) (c : Chain α) : raised lo hi c n = c n := if_pos (.inr (.inl h))

/-- The files above the last one that is reached stay. -/
theorem raised_of_gt (h : hi < n) (c : Chain α) : raised lo hi c n = c n := if_pos (.inr (.inr h))

/-- The first file that moves leaves its place. -/
theorem raised_first (h : lo < hi) (c : Chain α) : raised lo hi c lo = none := by
  rw [raised, if_neg (by omega), if_pos rfl]

/-- Every place in between takes the file below it. -/
theorem raised_between (hlo : lo ≤ n) (hhi : n + 1 < hi) (c : Chain α) :
    raised lo hi c (n + 1) = c n := by
  rw [raised, if_neg (by omega), if_neg (by omega), if_pos hhi, Nat.add_sub_cancel]

/-- The last place takes the file below it or keeps its own. -/
theorem raised_last (h : lo ≤ n) (c : Chain α) :
    raised lo (n + 1) c (n + 1) = (c n).or (c (n + 1)) := by
  rw [raised, if_neg (by omega), if_neg (by omega), if_neg (by omega), Nat.add_sub_cancel]

/-- The highest file moves first. -/
theorem raised_raise (h : lo ≤ hi) (c : Chain α) :
    raised lo hi (raise hi c) = raised lo (hi + 1) c := by
  funext n
  grind [raised, raise]

/-- The lowest file moves last. -/
theorem raise_raised (h : lo < hi) (c : Chain α) :
    raise lo (raised (lo + 1) hi c) = raised lo hi c := by
  funext n
  grind [raised, raise]

/-- The files below a place where files have been moved up are the first ones, less one. -/
theorem below_raised (h : lo < hi) (hn : n ≤ hi) (c : Chain α) :
    (raised lo hi c).below n = if n ≤ lo then c.below n else c.below (n - 1) := by
  induction n with
  | zero => simp [below]
  | succ n ih =>
    specialize ih (by omega)
    obtain hlt | rfl | hgt := Nat.lt_trichotomy n lo
    · rw [below, ih, raised_of_lt hlt, if_pos (by omega), if_pos (by omega), below]
    · rw [below, ih, raised_first h, if_pos (Nat.le_refl n), if_neg (by omega)]
      rfl
    · obtain ⟨n, rfl⟩ := Nat.exists_eq_add_one_of_ne_zero (Nat.ne_zero_of_lt hgt)
      rw [below, ih, raised_between (by omega) (by omega), if_neg (by omega), if_neg (by omega)]
      rfl

/-- What is in the files goes along with them. -/
theorem below_map (f : α → β) (c : Chain α) (n : Nat) :
    below (fun m => (c m).map f) n = (c.below n).map f := by
  induction n with
  | zero => rfl
  | succ n ih => rw [below, below, ih, List.map_append, Option.toList_map]

/-- Moving files up loses the last one or nothing. -/
theorem displaced_append_below (lo hi : Nat) (c : Chain α) :
    displaced lo hi c ++ (raised lo hi c).below (hi + 1) = c.below (hi + 1) := by
  by_cases h : lo < hi
  · obtain ⟨hi, rfl⟩ := Nat.exists_eq_add_one_of_ne_zero (Nat.ne_zero_of_lt h)
    have hbelow : (raised lo (hi + 1) c).below (hi + 1) = c.below hi := by
      rw [below_raised h (Nat.le_refl _), if_neg (by omega), Nat.add_sub_cancel]
    rw [below, hbelow, raised_last (by omega), below, below, displaced, Nat.add_sub_cancel]
    cases c hi <;> simp [h]
  · rw [raised_of_le (Nat.le_of_not_lt h), displaced, if_neg fun h' => h h'.1, List.nil_append]

/-! ## The live file and its backups -/

/-- The backups up to number `n`, the oldest first. -/
def backups (c : Chain α) (n : Nat) : List α := below (fun m => c (m + 1)) n

/-- All files are the backups and then the live file. -/
theorem below_succ (c : Chain α) (n : Nat) : c.below (n + 1) = c.backups n ++ (c 0).toList := by
  induction n with
  | zero => exact List.append_nil _
  | succ n ih =>
    rw [below, ih, backups, backups, below, List.append_assoc]

/-- The same backups with another live file. -/
def withLive (c : Chain α) (x : Option α) : Chain α := fun n => if n = 0 then x else c n

/-- The live file that was set. -/
@[simp] theorem withLive_zero (c : Chain α) (x : Option α) : c.withLive x 0 = x := rfl

/-- Another live file leaves the backups alone. -/
theorem withLive_of_pos (h : 0 < n) (c : Chain α) (x : Option α) : c.withLive x n = c n :=
  if_neg (by omega)

/-- Nothing changes if the live file is set to what it is. -/
theorem withLive_self {x : Option α} (h : c 0 = x) : c.withLive x = c := by
  funext n
  grind [withLive]

/-- The live file is set once. -/
@[simp] theorem withLive_withLive (c : Chain α) (x y : Option α) :
    (c.withLive x).withLive y = c.withLive y := by
  funext n
  grind [withLive]

/-- All files are the same backups and then the live file that was set. -/
theorem below_withLive (c : Chain α) (x : Option α) (n : Nat) :
    (c.withLive x).below (n + 1) = c.backups n ++ x.toList := by
  rw [below_succ, withLive_zero]
  rfl

/-- The files behind a rotation that keeps `k` backups: every file has been moved up, the live one too;
if there are to be no backups, the live file has been removed. -/
def rotated (k : Nat) (c : Chain α) : Chain α := (raised 0 k c).withLive none

/-- The file that a rotation loses, if any: the oldest backup, or the live file if there are to be no
backups. -/
def lost (k : Nat) (c : Chain α) : List α := if k = 0 then (c 0).toList else displaced 0 k c

/-- What is at a number behind a rotation. -/
theorem rotated_apply (k : Nat) (c : Chain α) (n : Nat) :
    rotated k c n = if n = 0 then none else raised 0 k c n := rfl

/-- A rotation leaves no live file. -/
@[simp] theorem rotated_zero (k : Nat) (c : Chain α) : rotated k c 0 = none := rfl

/-- A rotation that keeps backups moves the live file like the others. -/
theorem rotated_of_pos {k : Nat} (h : 0 < k) (c : Chain α) : rotated k c = raised 0 k c := by
  funext n
  rw [rotated_apply]
  split
  · next hzero => rw [hzero, raised_first h]
  · rfl

/-- A rotation leaves the files above the last backup alone. -/
theorem rotated_of_gt {k : Nat} (h : k < n) (c : Chain α) : rotated k c n = c n := by
  rw [rotated_apply, if_neg (by omega), raised_of_gt h]

/-- A rotation loses one file or nothing. -/
theorem lost_length_le (k : Nat) (c : Chain α) : (lost k c).length ≤ 1 := by
  rw [lost, displaced]
  split
  · exact Option.length_toList_le
  split
  · exact Option.length_toList_le
  · exact Nat.zero_le 1

/-- What a rotation loses is the oldest file, and what it keeps are the backups. -/
theorem lost_append_backups (k : Nat) (c : Chain α) :
    lost k c ++ (rotated k c).backups k = c.below (k + 1) := by
  have hbackups : (rotated k c).backups k = (rotated k c).below (k + 1) := by
    rw [below_succ, rotated_zero]
    exact (List.append_nil _).symm
  rw [hbackups, lost]
  split
  · next h =>
    subst h
    simp [below]
  · rw [rotated_of_pos (by omega)]
    exact displaced_append_below 0 k c

/-- A rotation moves files and looks at nothing in them. -/
theorem rotated_map (k : Nat) (f : α → β) (c : Chain α) (n : Nat) :
    rotated k (fun n => (c n).map f) n = (rotated k c n).map f := by
  rw [rotated_apply, rotated_apply, raised, raised]
  split
  · rfl
  split
  · rfl
  split
  · rfl
  · exact Option.map_or.symm

/-- Files that have been moved up too far are still so after a rotation. -/
theorem rotated_raised {k : Nat} (h : 0 < lo) (c : Chain α) :
    rotated k (raised lo k c) = raised (lo + 1) k (rotated k c) := by
  funext n
  grind [rotated_apply, raised]

/-- The live file does not matter to backups that are moved. -/
theorem raised_withLive (h : 0 < lo) (c : Chain α) (x : Option α) :
    raised lo hi (c.withLive x) = (raised lo hi c).withLive x := by
  funext n
  grind [raised, withLive]

end Chain

end PeerProbe.Log
