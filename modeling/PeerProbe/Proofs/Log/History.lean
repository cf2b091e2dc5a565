import PeerProbe.Proofs.Log.Rotation

/-!
# What a log keeps

A line goes into one file, whole, and moves with it from number to number. So what the backups and the
live file hold, from the oldest to the newest, is always the end of all that was ever written: a rotation
drops the oldest file, or none, and changes nothing in the others.

The pieces that were written to a file are kept apart here, as they are not in the file: a line may be
part of another one, or of what was there before.
-/

namespace PeerProbe.Log

namespace Chain

/-- Files whose pieces, from the oldest file to the live one, are the end of all that was written. -/
def Records (k : Nat) (written : List (List UInt8)) (c : Chain (List UInt8)) : Prop :=
  ∃ parts : Chain (List (List UInt8)), (∀ n, c n = (parts n).map List.flatten) ∧
    (parts.below (k + 1)).flatten <:+ written

variable {k : Nat} {written : List (List UInt8)} {c : Chain (List UInt8)}

/-- At first every file is a piece, and a live file that is created has none. -/
theorem records_files (k : Nat) (c : Chain (List UInt8)) :
    Records k (c.below (k + 1)) (c.withLive (some ((c 0).getD []))) := by
  refine ⟨withLive (fun n => (c n).map ([·])) (some (c 0).toList), ?_, ?_⟩
  · intro n
    obtain rfl | hn := Nat.eq_zero_or_pos n
    · rw [withLive_zero, withLive_zero]
      cases c 0 <;> simp
    · rw [withLive_of_pos hn, withLive_of_pos hn]
      cases c n <;> simp
  · have hbackups : backups (fun n => (c n).map ([·])) k = (c.backups k).map ([·]) :=
      below_map ([·]) (fun n => c (n + 1)) k
    rw [below_withLive, hbackups, below_succ]
    simp [← List.flatMap_def]

/-- A line that is appended to the live file is its last piece. -/
theorem Records.append (h : Records k written c) {live : List UInt8} (hlive : c 0 = some live)
    (line : List UInt8) : Records k (written ++ [line]) (c.withLive (some (live ++ line))) := by
  obtain ⟨parts, hparts, old, hold⟩ := h
  obtain ⟨pieces, hpieces, hflatten⟩ := Option.map_eq_some_iff.mp ((hparts 0).symm.trans hlive)
  refine ⟨parts.withLive (some (pieces ++ [line])), ?_, old, ?_⟩
  · intro n
    obtain rfl | hn := Nat.eq_zero_or_pos n
    · simp [← hflatten]
    · rw [withLive_of_pos hn, withLive_of_pos hn, hparts]
  · rw [← hold, below_withLive, below_succ, hpieces]
    simp

/-- A line that is written behind a rotation is the only piece of the live file. -/
theorem Records.rotated (h : Records k written c) (line : List UInt8) :
    Records k (written ++ [line]) ((c.rotated k).withLive (some line)) := by
  obtain ⟨parts, hparts, old, hold⟩ := h
  refine ⟨(parts.rotated k).withLive (some [line]), ?_, old ++ (parts.lost k).flatten, ?_⟩
  · intro n
    obtain rfl | hn := Nat.eq_zero_or_pos n
    · simp
    · rw [withLive_of_pos hn, withLive_of_pos hn, funext hparts, rotated_map]
  · rw [← hold, below_withLive, ← lost_append_backups]
    simp

/-- The end of what was written, piece by piece, is the end of it, byte by byte. -/
theorem Records.flatten (h : Records k written c) : (c.below (k + 1)).flatten <:+ written.flatten := by
  obtain ⟨parts, hparts, old, hold⟩ := h
  refine ⟨old.flatten, ?_⟩
  rw [← hold, funext hparts, below_map, List.flatten_append, List.flatten_flatten]

end Chain

namespace FileSink

/-- What a sink has of the files it was opened on and of the lines it has written. -/
structure Keeps (limits : FileLimits) (fs : Files) (lines : List (List UInt8)) (s : FileSink) :
    Prop where
  /-- The files together are the end of the first files and the lines, in order. -/
  contents : (s.files.chain.below (limits.maxBackups + 1)).flatten <:+
    (fs.chain.below (limits.maxBackups + 1)).flatten ++ lines.flatten
  /-- Each file is made of whole lines and of what a whole file had at first, none of them twice, and
  none before an older one. -/
  pieces : s.files.chain.Records limits.maxBackups (fs.chain.below (limits.maxBackups + 1) ++ lines)
  /-- The sink knows the length of the live file. -/
  counted : ∃ live, s.files.chain 0 = some live ∧ live.length = s.written
  /-- The files above the last backup are as they were. -/
  above : ∀ n, limits.maxBackups < n → s.files.chain n = fs.chain n

/-- What the next line does to a sink whose live file has a content. -/
structure Writes (limits : FileLimits) (s : FileSink) (live line : List UInt8) : Prop where
  /-- At the limit or above, the files rotate: the oldest one or none is dropped, the others are the
  backups, and the line is alone in the live file. -/
  rotates : limits.rotate ∧ limits.maxSize ≤ live.length →
    (s.write limits line).files.chain =
      (s.files.chain.rotated limits.maxBackups).withLive (some line) ∧
    ∃ dropped, dropped.length ≤ 1 ∧
      dropped ++ (s.write limits line).files.chain.backups limits.maxBackups =
        s.files.chain.below (limits.maxBackups + 1)
  /-- Otherwise only the live file changes, and it gets longer by the line. -/
  appends : ¬ (limits.rotate ∧ limits.maxSize ≤ live.length) →
    (s.write limits line).files.chain = s.files.chain.withLive (some (live ++ line))

variable {limits : FileLimits} {fs : Files} {s : FileSink}

/-- A working sink rotates or appends. -/
theorem Working.writes (h : s.Working) (limits : FileLimits) {live : List UInt8}
    (hlive : s.files.chain 0 = some live) (line : List UInt8) : Writes limits s live line := by
  constructor
  · intro hdue
    have hchain := (write_of_due h.live ((h.isDue_iff hlive).mpr hdue) line).2.2
    refine ⟨hchain, s.files.chain.lost limits.maxBackups, Chain.lost_length_le _ _, ?_⟩
    rw [hchain]
    exact Chain.lost_append_backups _ _
  · intro hdue
    exact (h.write_of_not_due (fun h' => hdue ((h.isDue_iff hlive).mp h')) line hlive).2

/-- A new sink has all files, and a live file. -/
theorem keeps_opened (limits : FileLimits) (fs : Files) : Keeps limits fs [] (opened fs) := by
  obtain ⟨fs', hopened, hchain⟩ := opened_eq fs
  have hpieces : (opened fs).files.chain.Records limits.maxBackups
      (fs.chain.below (limits.maxBackups + 1) ++ []) := by
    rw [hopened, hchain, List.append_nil]
    exact Chain.records_files _ _
  refine ⟨?_, hpieces, (working_opened fs).counted, ?_⟩
  · simpa using hpieces.flatten
  · intro n hn
    rw [hopened, hchain, Chain.withLive_of_pos (by omega)]

/-- A write keeps what there is, and the line. -/
theorem Keeps.write {lines : List (List UInt8)} (h : Keeps limits fs lines s) (hs : s.Working)
    (line : List UInt8) : Keeps limits fs (lines ++ [line]) (s.write limits line) := by
  obtain ⟨live, hlive, -⟩ := h.counted
  have hwrites := hs.writes limits hlive line
  have hpieces : (s.write limits line).files.chain.Records limits.maxBackups
      (fs.chain.below (limits.maxBackups + 1) ++ lines ++ [line]) := by
    by_cases hdue : limits.rotate ∧ limits.maxSize ≤ live.length
    · rw [(hwrites.rotates hdue).1]
      exact h.pieces.rotated line
    · rw [hwrites.appends hdue]
      exact h.pieces.append hlive line
  refine ⟨?_, by rwa [← List.append_assoc], (hs.write line).counted, ?_⟩
  · simpa using hpieces.flatten
  · intro n hn
    rw [← h.above n hn]
    by_cases hdue : limits.rotate ∧ limits.maxSize ≤ live.length
    · rw [(hwrites.rotates hdue).1, Chain.withLive_of_pos (by omega), Chain.rotated_of_gt hn]
    · rw [hwrites.appends hdue, Chain.withLive_of_pos (by omega)]

/-- Writes keep what there is, and the lines. -/
theorem Keeps.run {lines : List (List UInt8)} (h : Keeps limits fs lines s) (hs : s.Working)
    (more : List (List UInt8)) : Keeps limits fs (lines ++ more) (s.run limits more) := by
  induction more generalizing lines s with
  | nil => rwa [List.append_nil]
  | cons line more ih =>
    rw [List.append_cons]
    exact ih (h.write hs line) (hs.write line)

/-- Whatever the first files, the limits and the lines are, a sink keeps the end of it all, and the next
line rotates the files exactly if it finds the live file at the limit or above. -/
theorem keeps_and_writes (limits : FileLimits) (fs : Files) (lines : List (List UInt8)) :
    Keeps limits fs lines ((opened fs).run limits lines) ∧
      ∃ live, ((opened fs).run limits lines).files.chain 0 = some live ∧
        ∀ line, Writes limits ((opened fs).run limits lines) live line := by
  have hworking : ((opened fs).run limits lines).Working := (working_opened fs).run lines
  obtain ⟨live, hlive, -⟩ := hworking.counted
  refine ⟨(keeps_opened limits fs).run (working_opened fs) lines, live, hlive, ?_⟩
  intro line
  exact hworking.writes limits hlive line

/-- The first line still fits. The second one finds the live file above its limit of three bytes, and the
older of two backups is dropped. -/
example : ((opened [(.live, [65, 10]), (.backup 1, [64, 10]), (.backup 2, [63, 10])]).run
    ⟨true, 3, 2⟩ [[66, 10], [67, 10]]).files.chain.below 3 = [[64, 10], [65, 10, 66, 10], [67, 10]] := by
  decide

end FileSink

end PeerProbe.Log
