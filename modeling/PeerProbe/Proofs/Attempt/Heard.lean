import PeerProbe.Proofs.Attempt.Ending
import PeerProbe.Proofs.Eth.Trace

/-!
# What an observing attempt hears

An attempt that observes hands every result of its reads to its reader, and counts the answers that are
messages. It looks at its cancellation and at its deadline before every poll, so what it hears are
frames up to the first failure of the connection, and nothing once it is cancelled or the deadline is
there. The number that it logs at its end is the number of messages among these frames.
-/

namespace PeerProbe

namespace Eth.Reading

/-- The answer to a frame is a message or an error of decoding. -/
theorem report_ok_ne_transport (r : Reading) (f : Frame) (e : TransportError) :
    r.report (.ok f) ≠ .error (.transport e) := by
  unfold report
  dsimp only
  repeat' split
  all_goals simp

end Eth.Reading

namespace Attempt

open Eth (Reading)

variable {σ : Type} [Transport σ] {cfg : AttemptConfig} {a a' : Attempt} {now began : Nat} {t : σ}
  {s : Stepped σ} {items : List (Except TransportError Frame)}

/-- What an attempt hears in a step: the result of its read, if it observes and looks at its connection
and the read is ready. -/
def heard (a : Attempt) (now : Nat) (t : σ) : List (Except TransportError Frame) :=
  match a.phase with
  | .observing conn _ deadline _ taken =>
    if a.cancelled || decide (deadline ≤ now) then []
    else match Transport.read now conn taken t with
      | .ready item _ => [item]
      | _ => []
  | _ => []

/-- Why observing ends: with what is heard in that step, and what is logged in front of the count. -/
inductive Ends (a : Attempt) (now due : Nat) :
    List (Except TransportError Frame) → List Log.Entry → Prop where
  | cancelled (h : a.cancelled = true) : Ends a now due [] []
  | deadline (h : due ≤ now) : Ends a now due [] []
  | failed (e : TransportError) (hgoing : a.cancelled = false) (hearly : now < due) :
      Ends a now due [.error e] [a.entry "observe_ended" (some e.message)]

/-- What a turn of observing comes to. -/
inductive Turns (a : Attempt) (now : Nat) (t : σ) (conn : ConnId) (reading : Reading)
    (deadline seen : Nat) : Stepped σ → Prop where
  | ends {t' : σ} {before : List Log.Entry} (h : a.Ends now deadline (a.heard now t) before) :
      Turns a now t conn reading deadline seen (a.observed conn seen before t')
  | ahead {t' : σ} (taken' : List UInt8) (hgoing : a.cancelled = false) (hearly : now < deadline)
      (h : a.heard now t = []) : Turns a now t conn reading deadline seen
        (a.goto (.observing conn reading deadline seen taken'), t', [], none)
  | frame {t' : σ} {es : List Log.Entry} (f : Frame) (hgoing : a.cancelled = false)
      (hearly : now < deadline) (h : a.heard now t = [.ok f]) :
      Turns a now t conn reading deadline seen
        (a.goto (.observing conn (reading.next (.ok f)).2 deadline
          (seen + if (reading.report (.ok f)).isOk then 1 else 0) []), t', es, none)

theorem turns_of_observeTurn? {conn : ConnId} {reading : Reading} {deadline seen : Nat}
    {taken : List UInt8} (hphase : a.phase = .observing conn reading deadline seen taken)
    (h : observeTurn? a conn reading deadline seen taken now t = some s) :
    a.Turns now t conn reading deadline seen s := by
  unfold observeTurn? at h
  split at h
  · next hover =>
    obtain rfl := Option.some.inj h
    have hheard : a.heard now t = [] := by simp only [heard, hphase, if_pos hover]
    refine .ends ?_
    rw [hheard]
    rcases Bool.or_eq_true_iff.mp hover with hcancelled | hdue
    · exact .cancelled hcancelled
    · exact .deadline (of_decide_eq_true hdue)
  · next hgoing =>
    have hlistens : a.heard now t = match Transport.read now conn taken t with
        | .ready item _ => [item]
        | _ => [] := by simp only [heard, hphase, if_neg hgoing]
    have hcancelled : a.cancelled = false ∧ now < deadline := by simpa using hgoing
    split at h
    · contradiction
    · next hread =>
      obtain rfl := Option.some.inj h
      rw [hread] at hlistens
      exact .ahead _ hcancelled.1 hcancelled.2 hlistens
    · next item t' hread =>
      rw [hread] at hlistens
      cases item with
      | error e =>
        obtain rfl := Option.some.inj h
        refine .ends ?_
        rw [hlistens]
        exact .failed e hcancelled.1 hcancelled.2
      | ok f =>
        have hnext : (reading.next (.ok f)).1 = reading.report (.ok f) := rfl
        have hturn (es : List Log.Entry) : a.Turns now t conn reading deadline seen
            (a.goto (.observing conn (reading.next (.ok f)).2 deadline
              (seen + if (reading.report (.ok f)).isOk then 1 else 0) []), t', es, none) :=
          .frame f hcancelled.1 hcancelled.2 hlistens
        rw [← hnext] at hturn
        dsimp only at h
        split at h
        · next p hreport =>
          obtain rfl := Option.some.inj h
          rw [hreport] at hturn
          exact hturn _
        · next e hreport =>
          obtain rfl := Option.some.inj h
          rw [hreport] at hturn
          exact hturn _
        · next e hreport => exact absurd hreport (reading.report_ok_ne_transport f e)

end Attempt

/-! ## The count -/

/-- An attempt in this phase observes. -/
def AttemptPhase.IsObserving : AttemptPhase → Prop
  | .observing .. => True
  | _ => False

/-- An attempt in this phase observes no more. -/
def AttemptPhase.IsBehind : AttemptPhase → Prop
  | .hangingUp _ | .removing _ | .idling _ | .closing _ | .releasing | .finished => True
  | _ => False

namespace Attempt

variable {σ : Type} [Transport σ] {cfg : AttemptConfig} {a : Attempt} {now began : Nat} {t : σ}
  {s : Stepped σ} {items : List (Except TransportError Frame)}

/-- What an attempt makes of the items that it has heard since it began to observe: its reader has dealt
with all of them, and it has counted those that were accepted. -/
inductive Tallies (cfg : AttemptConfig) (began : Nat) (items : List (Except TransportError Frame))
    (a : Attempt) : Prop where
  | observing (conn : ConnId) (taken : List UInt8)
      (hphase : a.phase = .observing conn (cfg.reading.after items) (began + cfg.observe)
        (cfg.reading.accepted items) taken) (hframes : ∀ e, .error e ∉ items)
  | behind (h : a.phase.IsBehind)

/-- Observing begins with a new reader, and nothing is counted yet. -/
theorem tallies_resume {conn : Option ConnId} (hphase : a.phase = .resuming conn)
    (hs : a.step? cfg now t = some s) (hobserves : s.1.phase.IsObserving) :
    Tallies cfg now [] s.1 := by
  simp only [step?, hphase, Option.some.injEq] at hs
  subst hs
  revert hobserves
  unfold resume
  split
  · exact fun _ => .observing _ [] rfl (by simp)
  · exact fun hobserves => hobserves.elim

/-- No step leads back. -/
theorem isBehind_of_step? (h : a.phase.IsBehind) (hs : a.step? cfg now t = some s) :
    s.1.phase.IsBehind := by
  have hgoes := goes_of_step? hs
  generalize a.phase = p at h hgoes
  generalize s.1.phase = p' at hgoes
  cases hgoes <;> trivial

/-- A step goes on with what it hears. -/
theorem Tallies.step? (h : Tallies cfg began items a) (hs : a.step? cfg now t = some s) :
    Tallies cfg began (items ++ a.heard now t) s.1 := by
  cases h with
  | behind h => exact .behind (isBehind_of_step? h hs)
  | observing conn taken hphase hframes =>
    simp only [Attempt.step?, hphase] at hs
    cases turns_of_observeTurn? hphase hs with
    | ends => exact .behind trivial
    | ahead taken' _ _ h =>
      rw [h, List.append_nil]
      exact .observing conn taken' rfl hframes
    | frame f _ _ h =>
      rw [h]
      refine .observing conn [] ?_ (by simpa using hframes)
      rw [Eth.Reading.after_append, Eth.Reading.accepted_concat]
      rfl

/-- When observing ends, the number of accepted items is logged. -/
theorem Tallies.ends (h : Tallies cfg began items a) (hobserves : a.phase.IsObserving)
    (hs : a.step? cfg now t = some s) (hleft : ¬s.1.phase.IsObserving) :
    ∃ before, a.Ends now (began + cfg.observe) (a.heard now t) before ∧
      s.2.2.1 = before ++ [a.entry "observe_done"
        (some ("messages=" ++ toString (cfg.reading.accepted items)))] := by
  cases h with
  | behind h =>
    generalize a.phase = p at h hobserves
    cases p <;> contradiction
  | observing conn taken hphase hframes =>
    simp only [Attempt.step?, hphase] at hs
    cases turns_of_observeTurn? hphase hs with
    | ends h => exact ⟨_, h, rfl⟩
    | ahead | frame => exact absurd trivial hleft

end Attempt

end PeerProbe
