import PeerProbe.Proofs.Log.Rotation

/-!
# After a failed rotation

A rotation gives up the open file before it does anything else, so a step that fails leaves the sink with
nothing to write to. The next line finds it over its limit still and rotates once more, from the
beginning, whatever the failed rotation had done.

For the live file this is right as long as there is one: the rotation that goes through opens a new
one. If opening it was the step that failed, there is none, and every later rotation fails for want of
it. For the backups it is right only if those that had been moved can be moved again without loss: from
then on they are one number ahead of where they would be, and pass the last number one rotation too
early.
-/

namespace PeerProbe.Log

namespace Chain

variable {α : Type} {c : Chain α} {lo hi k : Nat}

/-- There is at most one file from `lo` to `hi`. -/
def Sparse (lo hi : Nat) (c : Chain α) : Prop :=
  ∀ p q, lo ≤ p → p < q → q ≤ hi → c p = none ∨ c q = none

/-- Where there is at most one file, none is overwritten. -/
theorem Sparse.displaced (h : Sparse lo hi c) : c.displaced lo hi = [] := by
  rw [Chain.displaced]
  split
  · next hmoved =>
    obtain hlast | hlast := h (hi - 1) hi (by omega) (by omega) (Nat.le_refl hi)
    · rw [hlast] at hmoved
      cases hmoved.2
    · rw [hlast]
      rfl
  · rfl

/-- If none is overwritten, then one of the last two is missing. -/
theorem displaced_eq_nil (hlo : lo < hi) (h : c.displaced lo hi = []) :
    c (hi - 1) = none ∨ c hi = none := by
  rw [Chain.displaced] at h
  cases hlast : c (hi - 1) with
  | none => exact .inl rfl
  | some x =>
    rw [if_pos ⟨hlo, by rw [hlast]; rfl⟩] at h
    exact .inr (Option.toList_eq_nil_iff.mp h)

/-- Behind a rotation there is at most one file from `lo + 1` on if there are no two before it of which
the newer one is `lo` or above and not among the last two. -/
theorem sparse_rotated_iff : Sparse (lo + 1) k (c.rotated k) ↔
    ∀ p q, lo ≤ p → p < q → q ≤ k → p + 2 ≤ k → c p = none ∨ c q = none := by
  constructor
  · intro h p q hlo hpq hq hp
    have hmoved : c.rotated k (p + 1) = c p := by
      rw [rotated_of_pos (by omega), raised_between (Nat.zero_le p) (by omega)]
    obtain hlt | hle := Nat.lt_or_ge (q + 1) k
    · have hmoved' : c.rotated k (q + 1) = c q := by
        rw [rotated_of_pos (by omega), raised_between (Nat.zero_le q) hlt]
      rw [← hmoved, ← hmoved']
      exact h (p + 1) (q + 1) (by omega) (by omega) (by omega)
    · obtain ⟨k, rfl⟩ := Nat.exists_eq_add_one_of_ne_zero (show k ≠ 0 by omega)
      have hlast := h (p + 1) (k + 1) (by omega) (by omega) (Nat.le_refl _)
      rw [hmoved, rotated_of_pos (by omega), raised_last (Nat.zero_le k), Option.or_eq_none_iff] at hlast
      obtain rfl | rfl : q = k ∨ q = k + 1 := by omega
      · exact hlast.imp_right And.left
      · exact hlast.imp_right And.right
  · intro h p q hlo hpq hq
    obtain ⟨p, rfl⟩ := Nat.exists_eq_add_one_of_ne_zero (show p ≠ 0 by omega)
    obtain ⟨q, rfl⟩ := Nat.exists_eq_add_one_of_ne_zero (show q ≠ 0 by omega)
    rw [rotated_of_pos (by omega), raised_between (Nat.zero_le p) (by omega)]
    obtain hnone | hsome := (c p).eq_none_or_eq_some
    · exact .inl hnone
    -- File `p` is there, so there is none above it, and none can have been moved to `q + 1`.
    · have habove (r : Nat) (hr : p < r) (hrk : r ≤ k) : c r = none := by
        obtain hp | hr := h p r (by omega) hr hrk (by omega)
        · obtain ⟨x, hx⟩ := hsome
          rw [hx] at hp
          cases hp
        · exact hr
      right
      obtain hlt | rfl := Nat.lt_or_eq_of_le hq
      · rw [raised_between (Nat.zero_le q) hlt, habove q (by omega) (by omega)]
      · rw [raised_last (Nat.zero_le q), habove q (by omega) (by omega),
          habove (q + 1) (by omega) (Nat.le_refl _)]
        rfl

/-- A rotation does not bring files together. -/
theorem Sparse.rotated (h : Sparse lo k c) : Sparse (lo + 1) k (c.rotated k) :=
  sparse_rotated_iff.mpr fun p q hlo hpq hq _ => h p q hlo hpq hq

/-- The live file is none of the backups. -/
theorem sparse_withLive (hlo : 0 < lo) {x : Option α} : Sparse lo k (c.withLive x) ↔ Sparse lo k c := by
  have hbackup {n : Nat} (hn : lo ≤ n) : c.withLive x n = c n := withLive_of_pos (by omega) c x
  constructor
  · intro h p q hp hpq hq
    rw [← hbackup hp, ← hbackup (n := q) (by omega)]
    exact h p q hp hpq hq
  · intro h p q hp hpq hq
    rw [hbackup hp, hbackup (n := q) (by omega)]
    exact h p q hp hpq hq

end Chain

namespace FileSink

variable {limits : FileLimits} {s t : FileSink} {lo : Nat}

/-- What is due depends on what the sink has counted. -/
theorem isDue_congr (h : t.written = s.written) : t.isDue limits = s.isDue limits := by
  rw [isDue, isDue, h]

/-! ## Every later line is written, or none -/

/-- A sink that will write the next line: it works, or a rotation comes first and finds a live file. -/
def Ready (limits : FileLimits) (s : FileSink) : Prop :=
  s.Working ∨ s.isDue limits ∧ (s.files.chain 0).isSome

/-- The next line is written to the end of the live file. -/
theorem Ready.write (h : Ready limits s) (line : List UInt8) : (s.write limits line).Working ∧
    ∃ before, (s.write limits line).files.chain 0 = some (before ++ line) := by
  have rotates (hdue : s.isDue limits) (hlive : (s.files.chain 0).isSome) :
      (s.write limits line).Working ∧
        ∃ before, (s.write limits line).files.chain 0 = some (before ++ line) := by
    obtain ⟨hworking, -, hchain⟩ := write_of_due hlive hdue line
    exact ⟨hworking, [], by rw [hchain, Chain.withLive_zero, List.nil_append]⟩
  obtain h | ⟨hdue, hlive⟩ := h
  · by_cases hdue : s.isDue limits
    · exact rotates hdue h.live
    · obtain ⟨live, hlive, -⟩ := h.counted
      obtain ⟨hworking, hchain⟩ := h.write_of_not_due hdue line hlive
      exact ⟨hworking, live, by rw [hchain, Chain.withLive_zero]⟩
  · exact rotates hdue hlive

/-- A sink that is ready stays so. -/
theorem Ready.run (h : Ready limits s) (lines : List (List UInt8)) :
    Ready limits (s.run limits lines) := by
  induction lines generalizing s with
  | nil => exact h
  | cons line lines ih => exact ih (.inl (h.write line).1)

/-- A sink that has nothing to write to, and rotates for want of a live file. -/
structure Stuck (limits : FileLimits) (s : FileSink) : Prop where
  closed : s.handle = .closed
  missing : s.files.chain 0 = none
  due : s.isDue limits

/-- No line gets a stuck sink out of it. -/
theorem Stuck.write (h : Stuck limits s) (line : List UInt8) : Stuck limits (s.write limits line) := by
  obtain ⟨fs, hrotate, hlive⟩ := exists_rotate_of_live_missing h.missing limits.maxBackups
  have hwrite : s.write limits line = ⟨fs, .closed, s.written⟩ := by
    rw [FileSink.write, handleWith, if_pos h.due, hrotate]
    rfl
  rw [hwrite]
  exact ⟨rfl, hlive, h.due⟩

/-- A stuck sink stays so, whatever comes. -/
theorem Stuck.run (h : Stuck limits s) (lines : List (List UInt8)) :
    Stuck limits (s.run limits lines) := by
  induction lines generalizing s with
  | nil => exact h
  | cons line lines ih => exact ih (h.write line)

/-! ## Backups that are one number ahead -/

/-- A sink whose backups from `lo` on are one number ahead of those of another one, and which is the same
otherwise. -/
structure Ahead (limits : FileLimits) (lo : Nat) (t s : FileSink) : Prop where
  working : t.Working
  working' : s.Working
  written : t.written = s.written
  chain : t.files.chain = s.files.chain.raised lo limits.maxBackups

/-- A rotation of both moves the place from which the backups are ahead. -/
theorem ahead_of_due (hlo : 0 < lo) (hlive : (s.files.chain 0).isSome) (hwritten : t.written = s.written)
    (hchain : t.files.chain = s.files.chain.raised lo limits.maxBackups) (hdue : s.isDue limits)
    (line : List UInt8) : Ahead limits (lo + 1) (t.write limits line) (s.write limits line) := by
  obtain ⟨hs, hslen, hsfiles⟩ := write_of_due hlive hdue line
  obtain ⟨ht, htlen, htfiles⟩ := write_of_due (s := t) (by rwa [hchain, Chain.raised_of_lt hlo])
    ((isDue_congr hwritten).trans hdue) line
  refine ⟨ht, hs, htlen.trans hslen.symm, ?_⟩
  rw [htfiles, hchain, Chain.rotated_raised hlo, hsfiles, Chain.raised_withLive (Nat.succ_pos lo)]

/-- A line that fits changes nothing about the backups. -/
theorem Ahead.write_of_not_due (h : Ahead limits lo t s) (hlo : 0 < lo) (hdue : ¬ s.isDue limits)
    (line : List UInt8) : Ahead limits lo (t.write limits line) (s.write limits line) := by
  obtain ⟨live, hlive, hlen⟩ := h.working'.counted
  have hlive' : t.files.chain 0 = some live := by rw [h.chain, Chain.raised_of_lt hlo, hlive]
  have hdue' : ¬ t.isDue limits := by rwa [isDue_congr h.written]
  obtain ⟨hs, hsfiles⟩ := h.working'.write_of_not_due hdue line hlive
  obtain ⟨ht, htfiles⟩ := h.working.write_of_not_due hdue' line hlive'
  refine ⟨ht, hs, ?_, ?_⟩
  · obtain ⟨slive, hslive, hslen⟩ := hs.counted
    obtain ⟨tlive, htlive, htlen⟩ := ht.counted
    rw [hsfiles, Chain.withLive_zero] at hslive
    rw [htfiles, Chain.withLive_zero] at htlive
    rw [← htlen, ← hslen, ← Option.some_inj.mp hslive, ← Option.some_inj.mp htlive]
  · rw [htfiles, h.chain, hsfiles, Chain.raised_withLive hlo]

/-- As long as there is at most one backup to be ahead, nothing is lost. -/
theorem Ahead.below_run (h : Ahead limits lo t s) (hlo : 0 < lo)
    (hsparse : s.files.chain.Sparse lo limits.maxBackups) (lines : List (List UInt8)) :
    (t.run limits lines).files.chain.below (limits.maxBackups + 1) =
      (s.run limits lines).files.chain.below (limits.maxBackups + 1) := by
  induction lines generalizing lo t s with
  | nil =>
    have hbelow := Chain.displaced_append_below lo limits.maxBackups s.files.chain
    rw [hsparse.displaced, List.nil_append, ← h.chain] at hbelow
    exact hbelow
  | cons line lines ih =>
    by_cases hdue : s.isDue limits
    · refine ih (ahead_of_due hlo h.working'.live h.written h.chain hdue line) (Nat.succ_pos lo) ?_
      rw [(write_of_due h.working'.live hdue line).2.2]
      exact (Chain.sparse_withLive (Nat.succ_pos lo)).mpr hsparse.rotated
    · obtain ⟨live, hlive, -⟩ := h.working'.counted
      refine ih (h.write_of_not_due hlo hdue line) hlo ?_
      rw [(h.working'.write_of_not_due hdue line hlive).2]
      exact (Chain.sparse_withLive hlo).mpr hsparse

/-- A line of its own that fills the live file. -/
def fullLine (limits : FileLimits) : List UInt8 := List.replicate limits.maxSize 0

/-- Behind a full line the next rotation is due. -/
theorem isDue_write_fullLine (hlive : (s.files.chain 0).isSome) (hdue : s.isDue limits) :
    (s.write limits (fullLine limits)).isDue limits := by
  have hwritten := (write_of_due hlive hdue (fullLine limits)).2.1
  rw [isDue, Bool.and_eq_true] at hdue ⊢
  refine ⟨hdue.1, decide_eq_true (Nat.le_of_eq ?_)⟩
  rw [hwritten, fullLine, List.length_replicate]

/-- Two backups that are ahead: as many rotations as it takes to bring them to the last two numbers, and
the older one is lost. -/
theorem Ahead.exists_lost (h : Ahead limits lo t s) (hlo : 0 < lo) (hdue : s.isDue limits)
    (hsparse : ¬ s.files.chain.Sparse lo limits.maxBackups) :
    ∃ lines, ¬ (s.run limits lines).files.chain.below (limits.maxBackups + 1) <:+
      (t.run limits lines).files.chain.below (limits.maxBackups + 1) := by
  -- Every rotation leaves fewer numbers that can be ahead.
  induction hd : limits.maxBackups - lo generalizing lo t s with
  | zero =>
    refine absurd ?_ hsparse
    intro p q hp hpq hq
    omega
  | succ d ih =>
    by_cases hrotated : (s.files.chain.rotated limits.maxBackups).Sparse (lo + 1) limits.maxBackups
    · refine ⟨[], fun hsuffix => hsparse fun p q hp hpq hq => ?_⟩
      by_cases hlast : p + 2 ≤ limits.maxBackups
      · exact Chain.sparse_rotated_iff.mp hrotated p q hp hpq hq hlast
      · obtain rfl : q = limits.maxBackups := by omega
        obtain rfl : p = limits.maxBackups - 1 := by omega
        have hbelow := Chain.displaced_append_below lo limits.maxBackups s.files.chain
        have hnil : s.files.chain.displaced lo limits.maxBackups = [] := by
          have hlen := hsuffix.length_le
          rw [run, run, List.foldl_nil, List.foldl_nil, ← hbelow, ← h.chain, List.length_append] at hlen
          exact List.eq_nil_of_length_eq_zero (by omega)
        exact Chain.displaced_eq_nil (by omega) hnil
    · have hahead := ahead_of_due hlo h.working'.live h.written h.chain hdue (fullLine limits)
      have hstill : ¬ (s.write limits (fullLine limits)).files.chain.Sparse (lo + 1)
          limits.maxBackups := by
        rwa [(write_of_due h.working'.live hdue (fullLine limits)).2.2,
          Chain.sparse_withLive (Nat.succ_pos lo)]
      obtain ⟨lines, hlost⟩ := ih hahead (Nat.succ_pos lo)
        (isDue_write_fullLine h.working'.live hdue) hstill (by omega)
      exact ⟨fullLine limits :: lines, hlost⟩

/-! ## What a failed step leaves -/

/-- A sink recovers from a failed rotation if every later line is written to the live file, and the files
hold everything that they would hold if the line whose rotation failed had never come. -/
structure Recovers (limits : FileLimits) (s failed : FileSink) : Prop where
  written : ∀ lines line, (failed.run limits (lines ++ [line])).handle = .attached ∧
    ∃ before, (failed.run limits (lines ++ [line])).files.chain 0 = some (before ++ line)
  kept : ∀ lines, lines ≠ [] →
    (s.run limits lines).files.chain.below (limits.maxBackups + 1) <:+
      (failed.run limits lines).files.chain.below (limits.maxBackups + 1)

variable {f : RotationStep} {line : List UInt8}

/-- Without a new live file there will never be one. -/
theorem stuck_of_reopen (hs : s.Working) (hdue : s.isDue limits) (line : List UInt8) :
    Stuck limits (s.handleWith (· ≠ .reopen) limits line) := by
  obtain ⟨fs, hrotate, hchain⟩ := exists_rotate_reopen_refused hs.live limits.maxBackups
  have hhandle : s.handleWith (· ≠ .reopen) limits line = ⟨fs, .closed, s.written⟩ := by
    rw [handleWith, if_pos hdue, hrotate]
    rfl
  rw [hhandle]
  exact ⟨rfl, by rw [hchain, Chain.rotated_zero], hdue⟩

/-- The steps before leave a live file, and the backups that have moved one number ahead. -/
theorem exists_handleWith_refused (hdue : s.isDue limits)
    (hf : f ∈ rotationPlan (fun n => s.files.has (.backup n)) limits.maxBackups) (hne : f ≠ .reopen)
    (line : List UInt8) :
    ∃ fs, s.handleWith (· ≠ f) limits line = ⟨fs, .closed, s.written⟩ ∧
      fs.chain = s.files.chain.raised (f.unmoved + 1) limits.maxBackups := by
  obtain ⟨fs, hrotate, hchain⟩ := exists_rotate_refused hf hne
  refine ⟨fs, ?_, hchain⟩
  rw [handleWith, if_pos hdue, hrotate]
  rfl

/-- A stuck sink does not recover. -/
theorem Stuck.not_recovers (h : Stuck limits t) : ¬ Recovers limits s t := by
  intro hrecovers
  have hattached := (hrecovers.written [] []).1
  rw [(h.run _).closed] at hattached
  cases hattached

/-- A sink that has a live file but nothing open recovers if no two of its backups are ahead once it has
rotated. -/
theorem recovers_iff_sparse (hlo : 0 < lo) (hs : s.Working) (hdue : s.isDue limits)
    (hwritten : t.written = s.written)
    (hchain : t.files.chain = s.files.chain.raised lo limits.maxBackups) :
    Recovers limits s t ↔
      (s.files.chain.rotated limits.maxBackups).Sparse (lo + 1) limits.maxBackups := by
  have hahead (first : List UInt8) := ahead_of_due hlo hs.live hwritten hchain hdue first
  have hsparse (first : List UInt8) :
      (s.write limits first).files.chain.Sparse (lo + 1) limits.maxBackups ↔
        (s.files.chain.rotated limits.maxBackups).Sparse (lo + 1) limits.maxBackups := by
    rw [(write_of_due hs.live hdue first).2.2, Chain.sparse_withLive (Nat.succ_pos lo)]
  constructor
  · intro h
    refine (hsparse (fullLine limits)).mp (Classical.byContradiction fun hnot => ?_)
    obtain ⟨rest, hlost⟩ := (hahead (fullLine limits)).exists_lost (Nat.succ_pos lo)
      (isDue_write_fullLine hs.live hdue) hnot
    exact hlost (h.kept (fullLine limits :: rest) (List.cons_ne_nil _ _))
  · intro h
    have hready : Ready limits t :=
      .inr ⟨(isDue_congr hwritten).trans hdue, by rw [hchain, Chain.raised_of_lt hlo]; exact hs.live⟩
    constructor
    · intro lines line
      obtain ⟨hworking, hlive⟩ := (hready.run lines).write line
      rw [run_append]
      exact ⟨hworking.attached, hlive⟩
    · intro lines hlines
      obtain ⟨first, rest, rfl⟩ := List.exists_cons_of_ne_nil hlines
      have hbelow := (hahead first).below_run (Nat.succ_pos lo) ((hsparse first).mpr h) rest
      exact hbelow ▸ List.suffix_rfl

/-- A sink recovers from a failed rotation exactly if a live file is left and there are no two backups of
which the newer one had been moved and is not among the last two. -/
theorem recovers_iff (limits : FileLimits) (fs : Files) (lines : List (List UInt8)) (line : List UInt8)
    (hdue : ((opened fs).run limits lines).isDue limits)
    (hf : f ∈ rotationPlan (fun n => ((opened fs).run limits lines).files.has (.backup n))
      limits.maxBackups) :
    Recovers limits ((opened fs).run limits lines)
        (((opened fs).run limits lines).handleWith (· ≠ f) limits line) ↔
      f ≠ .reopen ∧ ∀ p q, f.unmoved < p → p < q → q ≤ limits.maxBackups → p + 2 ≤ limits.maxBackups →
        ((opened fs).run limits lines).files.chain p = none ∨
          ((opened fs).run limits lines).files.chain q = none := by
  have hs : ((opened fs).run limits lines).Working := (working_opened fs).run lines
  generalize (opened fs).run limits lines = s at *
  by_cases hne : f = .reopen
  · subst hne
    exact iff_of_false (stuck_of_reopen hs hdue line).not_recovers fun h => h.1 rfl
  · obtain ⟨fs, hfailed, hchain⟩ := exists_handleWith_refused hdue hf hne line
    have hrecovers : Recovers limits s ⟨fs, .closed, s.written⟩ ↔
        (s.files.chain.rotated limits.maxBackups).Sparse (f.unmoved + 1 + 1) limits.maxBackups :=
      recovers_iff_sparse (Nat.succ_pos f.unmoved) hs hdue rfl hchain
    rw [hfailed, hrecovers, Chain.sparse_rotated_iff, and_iff_right hne]
    rfl

/-- Up to three backups, and a rotation before every line but the first one in an empty file. -/
def threeBackups : FileLimits := ⟨true, 1, 3⟩

/-- Two backups, a line in the live file, and the next rotation due. -/
def twoBackups : FileSink := (opened [(.backup 1, [66]), (.backup 2, [65])]).run threeBackups [[67]]

/-- A failure to move the newer of two backups is made good. -/
theorem recovers_iff_twoBackups :
    twoBackups.isDue threeBackups ∧
      .shift 1 ∈ rotationPlan (fun n => twoBackups.files.has (.backup n)) 3 ∧
      Recovers threeBackups twoBackups (twoBackups.handleWith (· ≠ .shift 1) threeBackups [68]) := by
  have hdue : twoBackups.isDue threeBackups := by decide
  have hplan : .shift 1 ∈ rotationPlan (fun n => twoBackups.files.has (.backup n)) 3 := by decide
  refine ⟨hdue, hplan, ?_⟩
  refine (recovers_iff threeBackups [(.backup 1, [66]), (.backup 2, [65])] [[67]] [68] hdue hplan).mpr
    ⟨by decide, ?_⟩
  intro p q (hp : 1 < p) hpq hq (hlast : p + 2 ≤ 3)
  omega

/-- A failure to move the live file behind them is not: they are moved once more for the next line, which
overwrites the older one. Nor is a failure to open a new live file: no line is written any more. -/
theorem not_recovers_of_displace_and_reopen :
    twoBackups.isDue threeBackups ∧
    (.displace ∈ rotationPlan (fun n => twoBackups.files.has (.backup n)) 3 ∧
      ¬ Recovers threeBackups twoBackups (twoBackups.handleWith (· ≠ .displace) threeBackups [68])) ∧
    .reopen ∈ rotationPlan (fun n => twoBackups.files.has (.backup n)) 3 ∧
      ¬ Recovers threeBackups twoBackups (twoBackups.handleWith (· ≠ .reopen) threeBackups [68]) := by
  refine ⟨by decide, ⟨by decide, fun h => ?_⟩, by decide, fun h => ?_⟩
  · exact absurd (h.kept [[69]] (by decide)) (by decide)
  · exact absurd (h.written [] [69]).1 (by decide)

end FileSink

end PeerProbe.Log
