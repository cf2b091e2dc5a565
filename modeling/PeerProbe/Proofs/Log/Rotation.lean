import PeerProbe.Log.FileSink
import PeerProbe.Proofs.Log.Chain

/-!
# What a rotation does to the files

The files next to a live file are read as a chain: the live file first, then the backups by number.
Each operation on files is an operation on the chain, and a rotation is their composition, whether it goes
through, is ended by one step that fails, or finds no live file.

A sink that works has the live file open and knows its length. A write keeps it so.
-/

namespace PeerProbe.Log

/-- The name of the file with a number: number 0 is the live file. -/
def FileName.number : Nat → FileName
  | 0 => .live
  | n + 1 => .backup (n + 1)

/-- The highest number of the files that are still in their places when a step is reached, the last step
apart. -/
def RotationStep.unmoved : RotationStep → Nat
  | .shift n => n
  | .displace | .reopen => 0

/-- Different numbers, different names. -/
theorem FileName.number_inj {m n : Nat} : FileName.number m = FileName.number n ↔ m = n := by
  constructor
  · intro h
    cases m <;> cases n <;> simp_all [FileName.number]
  · exact congrArg _

namespace Files

variable {fs fs' : Files} {s t : FileName} {p : Nat}

/-- The files by number. -/
def chain (fs : Files) : Chain (List UInt8) := fun n => fs.get? (.number n)

/-- What is left when a file is gone. -/
theorem get?_erase (fs : Files) (s t : FileName) :
    (fs.erase s).get? t = if t = s then none else fs.get? t := by
  unfold get? erase
  induction fs with
  | nil => simp
  | cons f fs ih => grind

/-- What is there when a file has been written. -/
theorem get?_put (fs : Files) (s t : FileName) (x : List UInt8) :
    (fs.put s x).get? t = if t = s then some x else fs.get? t := by
  have h := get?_erase fs s t
  unfold get? put at *
  rw [List.lookup_append, h]
  by_cases heq : t = s
  · simp [heq]
  · have hne : (t == s) = false := beq_eq_false_iff_ne.mpr heq
    simp [heq, hne, List.lookup_cons]

/-- A file is there if it has a content. -/
theorem has_number (fs : Files) (n : Nat) : fs.has (.number n) = (fs.chain n).isSome := rfl

/-- Writing the live file leaves the backups alone. -/
theorem chain_put_live (fs : Files) (x : List UInt8) :
    (fs.put .live x).chain = fs.chain.withLive (some x) := by
  funext n
  rw [chain, get?_put, show FileName.live = .number 0 from rfl]
  simp only [FileName.number_inj, Chain.withLive, chain]

/-- Removing the live file leaves the backups alone. -/
theorem chain_erase_live (fs : Files) : (fs.erase .live).chain = fs.chain.withLive none := by
  funext n
  rw [chain, get?_erase, show FileName.live = .number 0 from rfl]
  simp only [FileName.number_inj, Chain.withLive, chain]

/-- A file that is there can be moved up by one, over whatever is there. -/
theorem exists_rename? (h : (fs.chain p).isSome) :
    ∃ fs', fs.rename? (.number p) (.number (p + 1)) = some fs' ∧ fs'.chain = fs.chain.raise p := by
  obtain ⟨x, hx⟩ := Option.isSome_iff_exists.mp h
  refine ⟨(fs.erase (.number p)).put (.number (p + 1)) x, ?_, ?_⟩
  · rw [rename?, show fs.get? (.number p) = some x from hx]
    rfl
  · funext n
    rw [chain, get?_put, get?_erase, Chain.raise, hx]
    simp only [FileName.number_inj]
    by_cases hp : n = p
    · rw [if_neg (by omega), if_pos hp, if_pos hp]
    · rw [if_neg hp, if_neg hp]
      rfl

end Files

namespace FileSink

variable {allowed : RotationStep → Bool} {fs : Files} {lo n k : Nat}

/-- A step that is not refused moves backup `n + 1` if there is one. -/
theorem exists_shift_succ (h : (fs.chain (n + 1)).isSome → allowed (.shift (n + 1))) :
    ∃ fs', fs'.chain = fs.chain.raise (n + 1) ∧
      shift allowed (n + 1) fs = shift allowed n fs' := by
  rw [shift, show FileName.backup (n + 1) = .number (n + 1) from rfl, Files.has_number]
  by_cases hb : (fs.chain (n + 1)).isSome
  · obtain ⟨fs', hrename, hchain⟩ := Files.exists_rename? hb
    refine ⟨fs', hchain, ?_⟩
    rw [if_pos hb, if_pos (h hb), show FileName.backup (n + 2) = .number (n + 1 + 1) from rfl, hrename]
  · rw [if_neg hb]
    refine ⟨fs, ?_, rfl⟩
    rw [Chain.raise_of_none (by simpa using hb)]

/-- The backups from `lo + n` down to `lo + 1` are moved if no step is refused. -/
theorem exists_shift (lo n : Nat) (fs : Files)
    (h : ∀ p, lo < p → p ≤ lo + n → (fs.chain p).isSome → allowed (.shift p)) :
    ∃ fs', fs'.chain = fs.chain.raised (lo + 1) (lo + n + 1) ∧
      shift allowed (lo + n) fs = shift allowed lo fs' := by
  induction n generalizing fs with
  | zero => exact ⟨fs, (Chain.raised_of_le (Nat.le_refl _) _).symm, rfl⟩
  | succ n ih =>
    obtain ⟨fs₁, hraise, hstep⟩ := exists_shift_succ (h (lo + n + 1) (by omega) (by omega))
    obtain ⟨fs₂, hraised, hrest⟩ := ih fs₁ fun p hlo hhi hp => by
      refine h p hlo (by omega) ?_
      rwa [hraise, Chain.raise_of_lt (by omega)] at hp
    refine ⟨fs₂, ?_, hstep.trans hrest⟩
    rw [hraised, hraise, Chain.raised_raise (by omega)]
    rfl

/-- A refused step ends the moving of backups. -/
theorem shift_refused (hb : (fs.chain (n + 1)).isSome) (h : ¬ allowed (.shift (n + 1))) :
    shift allowed (n + 1) fs = (fs, false) := by
  rw [shift, show FileName.backup (n + 1) = .number (n + 1) from rfl, Files.has_number, if_pos hb,
    if_neg h]

/-- The live file makes room if it is there and the step is not refused. -/
theorem exists_displace (hlive : (fs.chain 0).isSome) (h : allowed .displace) (k : Nat) :
    ∃ fs', displace allowed k fs = (fs', true) ∧
      fs'.chain = if k = 0 then fs.chain.withLive none else fs.chain.raise 0 := by
  unfold displace
  obtain rfl | hk := Nat.eq_zero_or_pos k
  · refine ⟨fs.erase .live, ?_, Files.chain_erase_live fs⟩
    rw [if_neg (Nat.lt_irrefl 0), Files.remove?, show FileName.live = .number 0 from rfl,
      Files.has_number, if_pos hlive, h]
  · obtain ⟨fs', hrename, hchain⟩ := Files.exists_rename? hlive
    refine ⟨fs', ?_, ?_⟩
    · rw [if_pos hk, show FileName.live = .number 0 from rfl,
        show FileName.backup 1 = .number (0 + 1) from rfl, hrename, h]
    · rw [if_neg (by omega), hchain]

/-- Without a live file, and if the step is refused, no room is made. -/
theorem displace_failed (h : fs.chain 0 = none ∨ ¬ allowed .displace) (k : Nat) :
    displace allowed k fs = (fs, false) := by
  unfold displace
  obtain h | h := h
  · have hget : fs.get? .live = none := h
    have hmoved : (if 0 < k then fs.rename? .live (.backup 1) else fs.remove? .live) = none := by
      split
      · rw [Files.rename?, hget]
        rfl
      · rw [Files.remove?, Files.has, hget]
        rfl
    rw [hmoved]
    cases allowed .displace <;> rfl
  · rw [eq_false_of_ne_true h]

/-- An opened live file has what it had, or nothing if it is new. -/
theorem opened_eq (fs : Files) : ∃ fs', opened fs = ⟨fs', .attached, ((fs.chain 0).getD []).length⟩ ∧
    fs'.chain = fs.chain.withLive (some ((fs.chain 0).getD [])) := by
  unfold opened
  rw [show fs.get? .live = fs.chain 0 from rfl]
  split
  · next x hx =>
    refine ⟨fs, by rw [hx]; rfl, ?_⟩
    rw [hx, Option.getD_some, Chain.withLive_self hx]
  · next hx => exact ⟨fs.put .live [], by rw [hx]; rfl, by rw [hx]; exact Files.chain_put_live fs []⟩

/-! ## A rotation -/

variable {s : FileSink}

/-- All backups that are to move are moved if no step that moves one is refused. -/
theorem exists_shift_all (h : ∀ p, allowed (.shift p)) (k : Nat) (fs : Files) :
    ∃ fs', fs'.chain = fs.chain.raised 1 k ∧ shift allowed (k - 1) fs = (fs', true) := by
  obtain ⟨fs', hchain, hshift⟩ := exists_shift 0 (k - 1) fs fun p _ _ _ => h p
  refine ⟨fs', ?_, by simpa [shift] using hshift⟩
  obtain rfl | hk := Nat.eq_zero_or_pos k
  · rw [hchain, Chain.raised_of_le (by omega), Chain.raised_of_le (by omega)]
  · rw [hchain, show 0 + (k - 1) + 1 = k by omega]

/-- Every backup has moved and the live file makes room: the files are rotated. -/
theorem exists_displace_all (hshift : ∀ p, allowed (.shift p)) (hdisplace : allowed .displace) (k : Nat)
    (hlive : (fs.chain 0).isSome) :
    ∃ fs₁ fs₂, shift allowed (k - 1) fs = (fs₁, true) ∧ displace allowed k fs₁ = (fs₂, true) ∧
      fs₂.chain = fs.chain.rotated k := by
  obtain ⟨fs₁, hraised, hshifted⟩ := exists_shift_all hshift k fs
  have hlive₁ : (fs₁.chain 0).isSome := by rwa [hraised, Chain.raised_of_lt Nat.one_pos]
  obtain ⟨fs₂, hdisplaced, hchain⟩ := exists_displace hlive₁ hdisplace k
  refine ⟨fs₁, fs₂, hshifted, hdisplaced, ?_⟩
  rw [hchain, hraised]
  split
  · next h => rw [h, Chain.raised_of_le (by omega), Chain.rotated, Chain.raised_of_le (by omega)]
  · rw [Chain.rotated_of_pos (by omega), Chain.raise_raised (by omega)]

/-- A rotation ends where moving the backups does. -/
theorem rotate_of_shift {fs : Files} (h : shift allowed (k - 1) s.files = (fs, false)) :
    s.rotate allowed k = ⟨fs, .closed, s.written⟩ := by
  rw [rotate, h]
  rfl

variable {fs₁ fs₂ : Files}

/-- A rotation ends where no room is made. -/
theorem rotate_of_displace (hshift : shift allowed (k - 1) s.files = (fs₁, true))
    (h : displace allowed k fs₁ = (fs₂, false)) : s.rotate allowed k = ⟨fs₂, .closed, s.written⟩ := by
  rw [rotate, hshift]
  simp only [if_true, h]
  rfl

/-- A rotation that has made room opens the live file, unless that fails. -/
theorem rotate_of_displaced (hshift : shift allowed (k - 1) s.files = (fs₁, true))
    (h : displace allowed k fs₁ = (fs₂, true)) :
    s.rotate allowed k = if allowed .reopen then opened fs₂ else ⟨fs₂, .closed, s.written⟩ := by
  rw [rotate, hshift]
  simp only [if_true, h, Bool.true_and]

/-- A rotation that goes through: the files are rotated and there is a new, empty live file. -/
theorem exists_rotate (hlive : (s.files.chain 0).isSome) (k : Nat) :
    ∃ fs, s.rotate (fun _ => true) k = ⟨fs, .attached, 0⟩ ∧
      fs.chain = (s.files.chain.rotated k).withLive (some []) := by
  let allowed : RotationStep → Bool := fun _ => true
  have hshifts (p : Nat) : allowed (.shift p) := rfl
  obtain ⟨fs₁, fs₂, hshift, hdisplace, hchain⟩ := exists_displace_all hshifts rfl k hlive
  obtain ⟨fs₃, hopened, hlive₃⟩ := opened_eq fs₂
  rw [hchain, Chain.rotated_zero] at hopened hlive₃
  exact ⟨fs₃, (rotate_of_displaced hshift hdisplace).trans hopened, hlive₃⟩

/-- Without a live file a rotation moves the backups and fails. -/
theorem exists_rotate_of_live_missing (hlive : s.files.chain 0 = none) (k : Nat) :
    ∃ fs, s.rotate (fun _ => true) k = ⟨fs, .closed, s.written⟩ ∧ fs.chain 0 = none := by
  let allowed : RotationStep → Bool := fun _ => true
  have hshifts (p : Nat) : allowed (.shift p) := rfl
  obtain ⟨fs₁, hraised, hshift⟩ := exists_shift_all hshifts k s.files
  have hlive₁ : fs₁.chain 0 = none := by rw [hraised, Chain.raised_of_lt Nat.one_pos, hlive]
  exact ⟨fs₁, rotate_of_displace hshift (displace_failed (.inl hlive₁) k), hlive₁⟩

/-- A rotation whose last step fails leaves the files rotated and no live file. -/
theorem exists_rotate_reopen_refused (hlive : (s.files.chain 0).isSome) (k : Nat) :
    ∃ fs, s.rotate (· ≠ .reopen) k = ⟨fs, .closed, s.written⟩ ∧
      fs.chain = s.files.chain.rotated k := by
  let allowed : RotationStep → Bool := (· ≠ .reopen)
  have hshifts (p : Nat) : allowed (.shift p) := rfl
  obtain ⟨fs₁, fs₂, hshift, hdisplace, hchain⟩ := exists_displace_all hshifts rfl k hlive
  exact ⟨fs₂, rotate_of_displaced hshift hdisplace, hchain⟩

/-- The steps of a rotation, by the files they find. -/
theorem mem_rotationPlan_shift {has : Nat → Bool} :
    .shift n ∈ rotationPlan has k ↔ 0 < n ∧ n < k ∧ has n := by
  simp only [rotationPlan, List.mem_append, List.mem_map, List.mem_reverse, List.mem_filter,
    List.mem_range, RotationStep.shift.injEq, exists_eq_right, List.mem_cons, reduceCtorEq,
    List.not_mem_nil, or_false, Bool.and_eq_true, decide_eq_true_eq]
  exact and_left_comm

/-- A rotation that a step before the last one ends has moved the backups above the files that this
step leaves where they are. -/
theorem exists_rotate_refused {f : RotationStep}
    (hf : f ∈ rotationPlan (fun n => s.files.has (.backup n)) k) (hne : f ≠ .reopen) :
    ∃ fs, s.rotate (· ≠ f) k = ⟨fs, .closed, s.written⟩ ∧
      fs.chain = s.files.chain.raised (f.unmoved + 1) k := by
  cases f with
  | shift n =>
    obtain ⟨hpos, hlt, hb⟩ := mem_rotationPlan_shift.mp hf
    obtain ⟨n, rfl⟩ := Nat.exists_eq_add_one_of_ne_zero (Nat.ne_zero_of_lt hpos)
    let allowed : RotationStep → Bool := (· ≠ .shift (n + 1))
    have hshifts (p : Nat) (hp : n + 1 < p) : allowed (.shift p) := by
      refine decide_eq_true fun h => ?_
      have := RotationStep.shift.inj h
      omega
    obtain ⟨fs, hchain, hshift⟩ :=
      exists_shift (n + 1) (k - 1 - (n + 1)) s.files fun p hp _ _ => hshifts p hp
    have hbackup : (fs.chain (n + 1)).isSome := by
      rw [hchain, Chain.raised_of_lt (by omega)]
      exact hb
    have hrefused : ¬ allowed (.shift (n + 1)) := fun h => of_decide_eq_true h rfl
    rw [show n + 1 + (k - 1 - (n + 1)) = k - 1 by omega, shift_refused hbackup hrefused] at hshift
    refine ⟨fs, rotate_of_shift hshift, ?_⟩
    rw [hchain, show n + 1 + (k - 1 - (n + 1)) + 1 = k by omega]
    rfl
  | displace =>
    let allowed : RotationStep → Bool := (· ≠ .displace)
    have hshifts (p : Nat) : allowed (.shift p) := rfl
    obtain ⟨fs, hchain, hshift⟩ := exists_shift_all hshifts k s.files
    exact ⟨fs, rotate_of_displace hshift (displace_failed (.inr (by simp)) k), hchain⟩
  | reopen => exact absurd rfl hne

/-! ## A sink that works -/

/-- A sink that works: the live file is open, it is there, and its length is known. -/
structure Working (s : FileSink) : Prop where
  attached : s.handle = .attached
  counted : ∃ live, s.files.chain 0 = some live ∧ live.length = s.written

/-- A working sink has a live file. -/
theorem Working.live (h : s.Working) : (s.files.chain 0).isSome := by
  obtain ⟨live, hlive, -⟩ := h.counted
  exact Option.isSome_of_eq_some hlive

/-- A sink that has just been opened works. -/
theorem working_opened (fs : Files) : (opened fs).Working := by
  obtain ⟨fs', hopened, hchain⟩ := opened_eq fs
  rw [hopened]
  exact ⟨rfl, _, by rw [hchain, Chain.withLive_zero], rfl⟩

/-- A line goes behind what is in the live file. -/
theorem Working.append (h : s.Working) (line : List UInt8) {live : List UInt8}
    (hlive : s.files.chain 0 = some live) :
    (s.append line).Working ∧
      (s.append line).files.chain = s.files.chain.withLive (some (live ++ line)) := by
  obtain ⟨attached, live', hlive', hlen⟩ := h
  obtain rfl := Option.some_inj.mp (hlive'.symm.trans hlive)
  have hchain : (s.append line).files.chain = s.files.chain.withLive (some (live' ++ line)) := by
    rw [FileSink.append, attached]
    refine (Files.chain_put_live s.files _).trans ?_
    rw [show s.files.get? .live = some live' from hlive, Option.getD_some]
  refine ⟨⟨?_, live' ++ line, ?_, ?_⟩, hchain⟩
  · rw [FileSink.append, attached]
  · rw [hchain, Chain.withLive_zero]
  · rw [FileSink.append, attached, List.length_append, hlen]

variable {limits : FileLimits}

/-- A write that does not rotate appends. -/
theorem Working.write_of_not_due (h : s.Working) (hdue : ¬ s.isDue limits) (line : List UInt8)
    {live : List UInt8} (hlive : s.files.chain 0 = some live) :
    (s.write limits line).Working ∧
      (s.write limits line).files.chain = s.files.chain.withLive (some (live ++ line)) := by
  rw [write, handleWith, if_neg hdue]
  exact h.append line hlive

/-- A write that rotates starts a new live file, whether or not the last one was still open. -/
theorem write_of_due (hlive : (s.files.chain 0).isSome) (hdue : s.isDue limits) (line : List UInt8) :
    (s.write limits line).Working ∧ (s.write limits line).written = line.length ∧
      (s.write limits line).files.chain =
        (s.files.chain.rotated limits.maxBackups).withLive (some line) := by
  obtain ⟨fs, hrotate, hchain⟩ := exists_rotate hlive limits.maxBackups
  have hlive' : fs.chain 0 = some [] := by rw [hchain, Chain.withLive_zero]
  have hworking : Working ⟨fs, .attached, 0⟩ := ⟨rfl, [], hlive', rfl⟩
  rw [write, handleWith, if_pos hdue, hrotate]
  obtain ⟨happended, hfiles⟩ := hworking.append line hlive'
  refine ⟨happended, ?_, ?_⟩
  · exact Nat.zero_add line.length
  · rw [hfiles, hchain, Chain.withLive_withLive, List.nil_append]

/-- A working sink rotates when the live file is at its limit or above. -/
theorem Working.isDue_iff (h : s.Working) {live : List UInt8} (hlive : s.files.chain 0 = some live) :
    s.isDue limits ↔ limits.rotate ∧ limits.maxSize ≤ live.length := by
  obtain ⟨live', hlive', hlen⟩ := h.counted
  obtain rfl := Option.some_inj.mp (hlive'.symm.trans hlive)
  rw [isDue, hlen, Bool.and_eq_true, decide_eq_true_eq]

/-- A working sink still works when it has written a line. -/
theorem Working.write (h : s.Working) (line : List UInt8) : (s.write limits line).Working := by
  obtain ⟨live, hlive, -⟩ := h.counted
  by_cases hdue : s.isDue limits
  · exact (write_of_due h.live hdue line).1
  · exact (h.write_of_not_due hdue line hlive).1

/-- The sink when lines have been written. -/
def run (limits : FileLimits) (s : FileSink) (lines : List (List UInt8)) : FileSink :=
  lines.foldl (FileSink.write limits) s

/-- Lines that are written later. -/
theorem run_append (limits : FileLimits) (s : FileSink) (xs ys : List (List UInt8)) :
    run limits s (xs ++ ys) = run limits (run limits s xs) ys := List.foldl_append

/-- A working sink still works when it has written lines. -/
theorem Working.run (h : s.Working) (lines : List (List UInt8)) : (s.run limits lines).Working := by
  induction lines generalizing s with
  | nil => exact h
  | cons line lines ih => exact ih (h.write line)

end FileSink

end PeerProbe.Log
