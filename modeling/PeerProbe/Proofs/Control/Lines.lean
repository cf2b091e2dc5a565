import PeerProbe.Control.Lines
import PeerProbe.Proofs.Text.Blank

/-!
# Lines, however the bytes arrive

What a reader of lines makes of a stream depends on the bytes alone and not on the pieces in which
they arrive. A line that has no line feed in it and does not end in a carriage return is handed on as
it was sent.
-/

namespace PeerProbe.Control.LineReader

variable {r : LineReader} {line : List UInt8}

/-- Two pieces are one. -/
theorem feed_feed (r : LineReader) (xs ys : List UInt8) :
    (r.feed xs).feed ys = r.feed (xs ++ ys) := by
  cases hended : r.ended with
  | true => simp [feed, hended]
  | false =>
    simp only [feed, hended, Bool.false_eq_true, ↓reduceIte, ← List.append_assoc]
    -- the last piece of what came first goes on into what comes next
    rw [Text.pieces_append lineFeed (r.pending ++ xs) ys]
    generalize Text.pieces lineFeed (r.pending ++ xs) = first
    have hne := Text.pieces_ne_nil lineFeed (first.getLastD [] ++ ys)
    generalize Text.pieces lineFeed (first.getLastD [] ++ ys) = second at hne ⊢
    have hlast : (first.dropLast ++ second).getLastD [] = second.getLastD [] := by
      rw [List.getLastD_eq_getLast?, List.getLast?_append, List.getLast?_eq_some_getLast hne,
        List.getLastD_eq_getLast?, List.getLast?_eq_some_getLast hne]
      rfl
    rw [hlast, List.dropLast_append_of_ne_nil hne, List.map_append, List.append_assoc]

/-- A piece without bytes changes nothing. -/
theorem feed_nil (h : lineFeed ∉ r.pending) : r.feed [] = r := by
  cases hended : r.ended with
  | true => rw [feed, hended, if_pos rfl]
  | false =>
    rw [feed, hended, List.append_nil, Text.pieces_of_not_mem h, ← hended]
    simp [List.getLastD]

/-- What waits for its end has no line feed in it. -/
theorem lineFeed_not_mem_feed (h : lineFeed ∉ r.pending) (xs : List UInt8) :
    lineFeed ∉ (r.feed xs).pending := by
  unfold feed
  split
  · exact h
  · exact Text.not_mem_getLastD_pieces lineFeed (r.pending ++ xs)

/-- The bytes count, and not how they are cut. -/
theorem foldl_feed (h : lineFeed ∉ r.pending) (cut : List (List UInt8)) :
    cut.foldl feed r = r.feed cut.flatten := by
  induction cut generalizing r with
  | nil => exact (feed_nil h).symm
  | cons piece cut ih =>
    rw [List.foldl_cons, ih (lineFeed_not_mem_feed h piece), feed_feed, List.flatten_cons]

/-- What arrives is put behind the lines that wait, so the first of them may be taken before. -/
theorem feed_cons {first : List UInt8} {rest : List (List UInt8)} (hready : r.ready = first :: rest)
    (bytes : List UInt8) :
    (r.feed bytes).ready = first :: ({ r with ready := rest }.feed bytes).ready ∧
      { r.feed bytes with ready := ({ r with ready := rest }.feed bytes).ready } =
        { r with ready := rest }.feed bytes := by
  cases hended : r.ended <;> simp [feed, hended, hready]

/-- The end of a stream does not come by bytes. -/
theorem ended_feed (r : LineReader) (bytes : List UInt8) : (r.feed bytes).ended = r.ended := by
  unfold feed
  split <;> rfl

/-- A line that is sent whole is handed on. -/
theorem feed_line (hended : r.ended = false) (hpending : r.pending = []) (hline : lineFeed ∉ line)
    (hreturn : line.getLast? ≠ some carriageReturn) :
    r.feed (line ++ [lineFeed]) = { r with ready := r.ready ++ [line] } := by
  have hpieces : Text.pieces lineFeed (line ++ [lineFeed]) = [line, []] :=
    Text.pieces_append_cons hline []
  rw [feed, hended, hpending, List.nil_append, hpieces]
  simp [dropReturn, hreturn, List.getLastD]

end PeerProbe.Control.LineReader
