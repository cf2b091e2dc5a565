import PeerProbe.Control.Server
import PeerProbe.Proofs.Control.Lines

/-!
# Serving, however the bytes arrive

A connection takes one line after the other. What it makes of a line does not depend on the lines
behind it, so it makes no difference whether they are there already. Serving the pieces of a stream
as they arrive is serving the stream.
-/

namespace PeerProbe.Control.Connection

variable {σ : Type} {service : Service σ} {s : σ} {c : Connection} {step : ServerStep}

/-- What becomes of a line does not depend on the lines behind it. -/
theorem advance_handle (service : Service σ) (s : σ) (c : Connection) (line : List UInt8)
    (lines : LineReader) :
    advance service s (({ c with lines } : Connection).handle line) =
      ((advance service s (c.handle line)).1,
        { (advance service s (c.handle line)).2 with lines }) := by
  unfold handle
  split
  · rfl
  · next cs _ =>
    split
    · rfl
    · cases dispatch cs with
      | answered r => rfl
      | call id order =>
        simp only [advance]
        cases (service s order).1 <;> rfl

/-- A line leaves the lines behind it alone. -/
theorem lines_advance_handle (service : Service σ) (s : σ) (c : Connection) (line : List UInt8) :
    (advance service s (c.handle line)).2.lines = c.lines :=
  congrArg (fun r => r.2.lines) (advance_handle service s c line c.lines)

/-- A step takes a line, as long as the stream goes on. -/
theorem exists_line_of_step? (hopen : c.lines.ended = false) (h : c.step? = some step) :
    c.closed = false ∧ c.calling = none ∧ ∃ line rest, c.lines.ready = line :: rest ∧
      step = ({ c with lines := { c.lines with ready := rest } } : Connection).handle line := by
  unfold step? at h
  obtain ⟨hidle, h⟩ := Option.ite_none_left_eq_some.mp h
  simp only [Bool.or_eq_true, not_or, Bool.not_eq_true, Option.isSome_eq_false_iff,
    Option.isNone_iff_eq_none] at hidle
  refine ⟨hidle.1, hidle.2, ?_⟩
  cases hready : c.lines.ready with
  | nil => simp [LineReader.take?, hready, hopen] at h
  | cons line rest =>
    simp only [LineReader.take?, hready, Option.some.injEq] at h
    exact ⟨line, rest, rfl, h.symm⟩

/-- A connection with a line to take takes it. -/
theorem step?_eq_some {line : List UInt8} {rest : List (List UInt8)} (hclosed : c.closed = false)
    (hcalling : c.calling = none) (hready : c.lines.ready = line :: rest) :
    c.step? =
      some (({ c with lines := { c.lines with ready := rest } } : Connection).handle line) := by
  simp [step?, hclosed, hcalling, LineReader.take?, hready]

/-- A connection that has nothing to do is served. -/
theorem serve_of_rest (h : c.step? = none) : serve service s c = (s, c) := by
  rw [serve, advanceMany, h]

/-- Serving takes one line after the other. -/
theorem serve_of_step (hopen : c.lines.ended = false) (h : c.step? = some step) :
    serve service s c = serve service (advance service s step).1 (advance service s step).2 := by
  obtain ⟨-, -, line, rest, hready, rfl⟩ := exists_line_of_step? hopen h
  have hlines := lines_advance_handle service s
    ({ c with lines := { c.lines with ready := rest } } : Connection) line
  rw [serve, serve, advanceMany, h, hlines, hready]
  rfl

/-- What arrives behind a line that can be taken waits until it is taken. -/
theorem advance_feed (service : Service σ) (s : σ) {line : List UInt8}
    {rest : List (List UInt8)} (hready : c.lines.ready = line :: rest) (hclosed : c.closed = false)
    (hcalling : c.calling = none) (bytes : List UInt8) :
    ∃ step step', c.step? = some step ∧ (c.feed bytes).step? = some step' ∧
      (advance service s step).2.lines = { c.lines with ready := rest } ∧
      advance service s step' =
        ((advance service s step).1, (advance service s step).2.feed bytes) := by
  obtain ⟨hready', hlines⟩ := LineReader.feed_cons hready bytes
  have hstep := step?_eq_some hclosed hcalling hready
  have hstep' := step?_eq_some (c := c.feed bytes) hclosed hcalling hready'
  have hkept := lines_advance_handle service s
    ({ c with lines := { c.lines with ready := rest } } : Connection) line
  refine ⟨_, _, hstep, hstep', hkept, ?_⟩
  have hmove := advance_handle service s
    ({ c with lines := { c.lines with ready := rest } } : Connection) line
    ({ c.lines with ready := rest }.feed bytes)
  have hsame : ({ c.feed bytes with lines := { (c.feed bytes).lines with
      ready := ({ c.lines with ready := rest }.feed bytes).ready } } : Connection) =
      { c with lines := { c.lines with ready := rest }.feed bytes } :=
    congrArg (fun lines => ({ c with lines } : Connection)) hlines
  rw [hsame, hmove, feed, hkept]

/-- Lines that arrive later may arrive at once. -/
theorem serve_feed (hopen : c.lines.ended = false) (s : σ) (bytes : List UInt8) :
    serve service s (c.feed bytes) =
      serve service (serve service s c).1 ((serve service s c).2.feed bytes) := by
  induction hcount : c.lines.ready.length using Nat.strongRecOn generalizing s c with
  | ind count ih =>
    cases hstep : c.step? with
    | none => rw [serve_of_rest hstep]
    | some step =>
      obtain ⟨hclosed, hcalling, line, rest, hready, -⟩ := exists_line_of_step? hopen hstep
      obtain ⟨step, step', hstep, hstep', hlines, hadvance⟩ :=
        advance_feed service s hready hclosed hcalling bytes
      have hopen' : (c.feed bytes).lines.ended = false := (LineReader.ended_feed _ _).trans hopen
      have hfewer : rest.length < count := by simp [← hcount, hready]
      rw [serve_of_step hopen' hstep', hadvance, serve_of_step hopen hstep]
      exact ih rest.length hfewer (by rw [hlines]; exact hopen) _ (by rw [hlines])

/-- A connection that was served has nothing to do until more arrives, and waits for the same line
as before. -/
theorem serve_rests (service : Service σ) (hopen : c.lines.ended = false) (s : σ) :
    (serve service s c).2.step? = none ∧ (serve service s c).2.lines.ended = false ∧
      (serve service s c).2.lines.pending = c.lines.pending := by
  induction hcount : c.lines.ready.length using Nat.strongRecOn generalizing s c with
  | ind count ih =>
    cases hstep : c.step? with
    | none =>
      rw [serve_of_rest hstep]
      exact ⟨hstep, hopen, rfl⟩
    | some step =>
      obtain ⟨-, -, line, rest, hready, rfl⟩ := exists_line_of_step? hopen hstep
      have hlines := lines_advance_handle service s
        ({ c with lines := { c.lines with ready := rest } } : Connection) line
      have hfewer : rest.length < count := by simp [← hcount, hready]
      rw [serve_of_step hopen hstep]
      generalize advance service s _ = advanced at hlines ⊢
      have hrests := ih rest.length hfewer (by rw [hlines]; exact hopen) advanced.1 (by rw [hlines])
      rw [hlines] at hrests
      exact hrests

/-- Serving the pieces of a stream as they arrive is serving the stream. -/
theorem servePieces_eq (hopen : c.lines.ended = false) (hpending : lineFeed ∉ c.lines.pending)
    (hrest : c.step? = none) (s : σ) (cut : List (List UInt8)) :
    servePieces service s c cut = serve service s (c.feed cut.flatten) := by
  induction cut generalizing s c with
  | nil =>
    have hnothing : c.feed [] = c := by rw [feed, LineReader.feed_nil hpending]
    rw [List.flatten_nil, hnothing, serve_of_rest hrest]
    rfl
  | cons piece cut ih =>
    have hfeed : c.feed (piece ++ cut.flatten) = (c.feed piece).feed cut.flatten := by
      rw [feed, feed, feed, LineReader.feed_feed]
    have hopen' : (c.feed piece).lines.ended = false := (LineReader.ended_feed _ _).trans hopen
    obtain ⟨hidle, hended, hkept⟩ := serve_rests service hopen' s
    rw [List.flatten_cons, hfeed, serve_feed hopen']
    exact ih hended (by rw [hkept]; exact LineReader.lineFeed_not_mem_feed hpending piece) hidle _

end PeerProbe.Control.Connection
