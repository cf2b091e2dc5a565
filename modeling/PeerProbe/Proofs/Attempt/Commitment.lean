import PeerProbe.Proofs.Attempt.Ways

/-!
# When an attempt is committed to its report

A watcher that has decided does not look at its cancellation again, and neither does an attempt on
its way from the outcome to the report, unless an exchange lies in between. So there is a point from
which on an attempt reports whether it is cancelled or not: it is committed.

A cancelled attempt does not become committed any more, but for one way: the transport reported a
connection, and has none when the attempt asks for it.
-/

namespace PeerProbe

namespace Watcher

/-- What a watcher has decided, whether or not it has handed it over. -/
def decision? (w : Watcher) : Option (Option Outcome) :=
  match w.phase with
  | .decided o | .done o => some o
  | _ => none

variable {w : Watcher} {now : Nat} {f : Feed} {r : Watcher × Feed × List Log.Entry}
  {o : Option Outcome}

/-- What a watcher hands over is what it has decided. -/
theorem decision?_of_result? (h : w.result? = some o) : w.decision? = some o := by
  unfold result? at h
  unfold decision?
  split at h
  · next hphase => rw [hphase, ← h]
  · contradiction

/-- A decision is final. -/
theorem decision?_of_step? {cancelled : Bool} (h : w.step? now cancelled f = some r)
    (ho : w.decision? = some o) : r.1.decision? = some o := by
  unfold step? at h
  unfold decision? at ho
  cases hphase : w.phase with
  | decided o' =>
    simp only [hphase, Option.some.injEq] at h ho
    subst h ho
    rfl
  | done | created | waiting => simp [hphase] at h ho

/-- All that a cancelled watcher still comes to is to have no outcome. -/
theorem decision?_of_cancelled (h : w.step? now true f = some r) :
    r.1.decision? = w.decision? ∨ r.1.decision? = some none := by
  unfold step? at h
  cases hphase : w.phase with
  | created =>
    simp only [hphase, Option.some.injEq] at h
    subst h
    exact .inl (by simp [decision?, hphase])
  | waiting deadline =>
    simp only [hphase, turn?, ↓reduceIte, Option.some.injEq] at h
    subst h
    exact .inr rfl
  | decided o =>
    simp only [hphase, Option.some.injEq] at h
    subst h
    exact .inl (by simp [decision?, hphase])
  | done => simp [hphase] at h

end Watcher

namespace Attempt

/-- An attempt will report, cancelled or not: its watcher has an outcome that is reported as it is,
or the report is made. -/
inductive Committed (cfg : AttemptConfig) (a : Attempt) : Prop where
  | decided {o : Outcome} (hearly : a.phase.isEarly = true)
      (ho : a.watcher.decision? = some (some o))
      (hplain : o.isConnected = true → cfg.exchange = none)
  | made {report : AttemptReport} {conn : Option ConnId} (h : a.phase = .reporting report conn)

variable {cfg : AttemptConfig} {a a' : Attempt}

/-- What leaves the course of an attempt alone leaves it committed. -/
theorem Committed.sameCourse (ha : a.Committed cfg) (h : a.SameCourse a') : a'.Committed cfg := by
  cases ha with
  | made hphase => exact .made (h.phase.trans hphase)
  | decided hearly ho hplain =>
    refine .decided (by rw [h.phase, hearly]) ?_ hplain
    obtain hw | ⟨now, f, r, hr, hw⟩ := h.watcher
    · rw [hw, ho]
    · rw [hw, Watcher.decision?_of_step? hr ho]

/-- What leaves the course of a cancelled attempt alone does not commit it. -/
theorem SameCourse.committed (h : a.SameCourse a') (hcancelled : a.cancelled = true)
    (ha' : a'.Committed cfg) : a.Committed cfg := by
  cases ha' with
  | made hphase => exact .made (h.phase.symm.trans hphase)
  | decided hearly ho hplain =>
    refine .decided (by rw [← h.phase, hearly]) ?_ hplain
    obtain hw | ⟨now, f, r, hr, hw⟩ := h.watcher
    · rw [← hw, ho]
    · rw [hcancelled] at hr
      rw [hw] at ho
      obtain hkept | hnone := Watcher.decision?_of_cancelled hr
      · rw [← hkept, ho]
      · simp [hnone] at ho

/-- A committed attempt goes on to its report. -/
theorem Committed.goes (ha : a.Committed cfg) (hgoes : Goes cfg a a.phase a'.phase)
    (hreport : a'.report = a.phase.reported a.report) (hwatcher : a'.watcher = a.watcher) :
    a'.Committed cfg ∨ a'.report.isSome = true := by
  cases ha with
  | made hphase =>
    rw [hreport, hphase]
    exact .inr rfl
  | @decided o hearly ho hplain =>
    left
    have hlater (h : a'.phase.isEarly = true) : a'.Committed cfg :=
      .decided h (by rw [hwatcher, ho]) hplain
    have hmade {report : AttemptReport} {conn : Option ConnId}
        (h : a'.phase = .reporting report conn) : a'.Committed cfg := .made h
    generalize a.phase = p at hgoes hearly
    generalize a'.phase = q at hgoes hlater hmade
    cases hgoes with
    | spawn | dial | watch => exact hlater rfl
    | failed | connected => exact hmade rfl
    | cancelledWatch h => simp [Watcher.decision?_of_result? h] at ho
    | exchange h hex =>
      -- a connection that an exchange follows commits nobody
      have hdecided := Watcher.decision?_of_result? h
      rw [ho, Option.some.injEq, Option.some.injEq] at hdecided
      subst hdecided
      simp [hplain rfl] at hex
    | _ => contradiction

/-- Wherever a cancelled attempt goes, it was committed before if it is committed then, unless there
was no connection to take. -/
theorem Committed.of_goes (ha' : a'.Committed cfg) (hgoes : Goes cfg a a.phase a'.phase)
    (hcancelled : a.cancelled = true) (hwatcher : a'.watcher = a.watcher) :
    a.Committed cfg ∨ ∃ peer, a.phase = .taking peer ∧
      a'.phase = .reporting (.failed peer (.exchange (.transport .disconnected))) none := by
  have hphase : a'.phase.isEarly = true ∨ ∃ report conn, a'.phase = .reporting report conn := by
    cases ha' with
    | made h => exact .inr ⟨_, _, h⟩
    | decided h => exact .inl h
  have hbefore {o : Outcome} (hearly : a.phase.isEarly = true)
      (ho : a.watcher.decision? = some (some o))
      (hplain : o.isConnected = true → cfg.exchange = none) : a.Committed cfg :=
    .decided hearly ho hplain
  have hsame (hearly : a.phase.isEarly = true) (hearly' : a'.phase.isEarly = true) :
      a.Committed cfg := by
    cases ha' with
    | made h => simp [h, AttemptPhase.isEarly] at hearly'
    | decided _ ho hplain => exact .decided hearly (by rw [← hwatcher, ho]) hplain
  generalize a.phase = p at hgoes hbefore hsame ⊢
  generalize a'.phase = q at hgoes hphase hsame ⊢
  cases hgoes with
  | spawn | dial | watch => exact .inl (hsame rfl rfl)
  | failed h =>
    have hplain (hconnected : false = true) : cfg.exchange = none := absurd hconnected (by simp)
    exact .inl (hbefore rfl (Watcher.decision?_of_result? h) hplain)
  | connected h hex => exact .inl (hbefore rfl (Watcher.decision?_of_result? h) fun _ => hex)
  | untaken => exact .inr ⟨_, rfl, rfl⟩
  | turn h | exchanged h | look h => simp [hcancelled] at h
  | _ => simp [AttemptPhase.isEarly] at hphase

section Steps

variable {σ : Type} [Transport σ] {now : Nat} {t : σ} {s : Stepped σ} {peer : PeerRef}

/-- An attempt whose connection is gone when it asks for it has none to take. -/
theorem take_eq_none_of_step? (h : a.step? cfg now t = some s) (hphase : a.phase = .taking peer)
    {report : AttemptReport} {conn : Option ConnId} (hmade : s.1.phase = .reporting report conn) :
    (Transport.take peer t).1 = none := by
  simp only [step?, hphase, Option.map_eq_some_iff] at h
  obtain ⟨ex, -, rfl⟩ := h
  unfold takeForExchange at hmade
  dsimp only at hmade
  split at hmade
  · contradiction
  · next htake => rw [htake]

/-- An attempt that asks for a connection where there is none is committed. -/
theorem committed_of_take_eq_none (h : a.step? cfg now t = some s) (hphase : a.phase = .taking peer)
    (hnone : (Transport.take peer t).1 = none) : s.1.Committed cfg := by
  simp only [step?, hphase, Option.map_eq_some_iff] at h
  obtain ⟨ex, -, rfl⟩ := h
  unfold takeForExchange
  dsimp only
  split
  · next htake => simp [htake] at hnone
  · exact .made rfl

end Steps

end Attempt

end PeerProbe
