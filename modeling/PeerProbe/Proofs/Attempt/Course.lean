import PeerProbe.Attempt.Step

/-!
# The course of an attempt

An attempt is undecided until it reports or is abandoned. Then it either keeps its peer or leaves
it, and it is unwound when that is done. The removal of the peer is the step from leaving to
unwound, and no other step removes anything.

So an attempt that has unwound has removed its peer once if it did not end with a connection that
it was to keep, and never otherwise.
-/

namespace PeerProbe

/-- The stages of an attempt. -/
inductive AttemptStage where
  | undecided
  | keeping
  | leaving
  | unwound
  deriving DecidableEq

/-- The stage that a phase belongs to. -/
def AttemptPhase.stage : AttemptPhase → AttemptStage
  | .spawned | .dialing | .dialed | .watching | .taking _ | .exchanging .. | .reporting .. =>
    .undecided
  | .keeping _ | .handingOver _ => .keeping
  | .resuming _ | .observing .. | .hangingUp _ | .removing _ => .leaving
  | .idling _ | .closing _ | .releasing | .finished => .unwound

namespace Attempt

/-- The stage of an attempt. -/
def stage (a : Attempt) : AttemptStage := a.phase.stage

/-- Whether an attempt reported a connection. -/
def isConnected (a : Attempt) : Bool :=
  match a.report with
  | some r => r.outcome.isConnected
  | none => false

/-- Whether an attempt reported a connection that is to be kept. -/
def keepsPeer (cfg : AttemptConfig) (a : Attempt) : Bool := a.isConnected && !cfg.disconnect

/-- What one step does to the course of an attempt: it goes on within a stage, gives up, reports,
leaves its peer connected or removes it. -/
inductive Course (cfg : AttemptConfig) (a a' : Attempt) : Prop where
  | goOn (acts : List AttemptAct) (hacts : .remove ∉ acts) (hstage : a'.stage = a.stage)
      (hreport : a'.report = a.report) (hhistory : a'.history = a.history ++ acts)
  | abandon (hfrom : a.stage = .undecided) (hstage : a'.stage = .leaving)
      (hreport : a'.report = a.report) (hhistory : a'.history = a.history)
  | report (r : AttemptReport) (hfrom : a.stage = .undecided)
      (hstage : a'.stage =
        if r.outcome.isConnected && !cfg.disconnect then .keeping else .leaving)
      (hreport : a'.report = some r) (hhistory : a'.history = a.history ++ [.report])
  | keep (acts : List AttemptAct) (hacts : .remove ∉ acts) (hfrom : a.stage = .keeping)
      (hstage : a'.stage = .unwound) (hreport : a'.report = a.report)
      (hhistory : a'.history = a.history ++ acts)
  | remove (hfrom : a.stage = .leaving) (hstage : a'.stage = .unwound)
      (hreport : a'.report = a.report) (hhistory : a'.history = a.history ++ [.remove])

/-- A step of the attempt's own task: it follows the course and leaves the rest alone. -/
structure Advance (cfg : AttemptConfig) (a a' : Attempt) : Prop where
  slot : a'.slot = a.slot
  peer : a'.peer = a.peer
  watcher : a'.watcher = a.watcher
  cancelled : a'.cancelled = a.cancelled
  course : Course cfg a a'

variable {cfg : AttemptConfig} {a : Attempt}

/-- Going on to a phase of the same stage. -/
theorem advance_goto {p : AttemptPhase} (hp : p.stage = a.stage) : Advance cfg a (a.goto p) :=
  ⟨rfl, rfl, rfl, rfl, .goOn [] (by simp) hp rfl (by simp [goto])⟩

/-- Going on to a phase of the same stage after something other than a removal. -/
theorem advance_noted {act : AttemptAct} {p : AttemptPhase} (hact : act ≠ .remove)
    (hp : p.stage = a.stage) : Advance cfg a ((a.noted act).goto p) :=
  ⟨rfl, rfl, rfl, rfl, .goOn [act] (by simpa using hact.symm) hp rfl rfl⟩

section Steps

variable {σ : Type} [Transport σ] {now : Nat} {t : σ} {s : Stepped σ}

omit [Transport σ] in
/-- Taking up the outcome of the watcher leaves an attempt undecided or gives it up. -/
theorem advance_onOutcome (hstage : a.stage = .undecided) (o : Option Outcome) :
    Advance cfg a (onOutcome cfg a t o).1 := by
  cases o with
  | none => exact ⟨rfl, rfl, rfl, rfl, .abandon hstage rfl rfl rfl⟩
  | some outcome =>
    cases outcome with
    | failed reason => exact advance_goto hstage.symm
    | connected peer =>
      unfold onOutcome
      cases cfg.exchange with
      | none => exact advance_goto hstage.symm
      | some ex =>
        exact ⟨rfl, rfl, rfl, rfl, .goOn [.publish .handshaking] (by simp) hstage.symm rfl rfl⟩

/-- Taking the connection for the exchange leaves an attempt undecided. -/
theorem advance_takeForExchange {ex : Eth.ExchangeConfig} {peer : PeerRef}
    (hstage : a.stage = .undecided) : Advance cfg a (takeForExchange ex a peer now t).1 := by
  unfold takeForExchange
  split <;> exact advance_noted (by simp) hstage.symm

/-- A turn of the exchange leaves an attempt undecided. -/
theorem advance_exchangeTurn? {ex : Eth.ExchangeConfig} {peer : PeerRef} {conn : ConnId}
    {legs : Eth.Legs} {deadline : Nat} {taken : List UInt8} (hstage : a.stage = .undecided)
    (h : exchangeTurn? cfg ex a peer conn legs deadline taken now t = some s) :
    Advance cfg a s.1 := by
  unfold exchangeTurn? at h
  split at h
  · obtain rfl := Option.some.inj h
    exact advance_goto hstage.symm
  · split at h
    · obtain rfl := Option.some.inj h
      exact advance_goto hstage.symm
    · split at h
      · obtain rfl := Option.some.inj h
        exact advance_goto hstage.symm
      · split at h
        · obtain rfl := Option.some.inj h
          exact advance_goto hstage.symm
        · split at h
          · obtain rfl := Option.some.inj h
            exact advance_goto hstage.symm
          · contradiction

omit [Transport σ] in
/-- Sending the report decides whether the peer is kept. -/
theorem advance_sendReport {report : AttemptReport} {conn : Option ConnId}
    (hstage : a.stage = .undecided) : Advance cfg a (sendReport cfg a report conn t).1 := by
  refine ⟨rfl, rfl, rfl, rfl, .report report hstage ?_ rfl rfl⟩
  unfold sendReport stage
  cases report.outcome.isConnected <;> cases cfg.disconnect <;> cases cfg.observes <;> rfl

/-- An attempt that keeps its peer hands a connection over or unwinds at once. -/
theorem advance_keep {conn : Option ConnId} (hstage : a.stage = .keeping) :
    Advance cfg a (keep cfg a conn t).1 := by
  cases conn with
  | some c => exact advance_goto hstage.symm
  | none =>
    simp only [keep, ownOrTake, Option.isSome_none, Bool.false_or]
    cases cfg.observes with
    | true =>
      simp only [↓reduceIte]
      cases (Transport.take a.peer t).1 with
      | some c => exact ⟨rfl, rfl, rfl, rfl, .goOn [.take] (by simp) hstage.symm rfl rfl⟩
      | none => exact ⟨rfl, rfl, rfl, rfl, .keep [.take] (by simp) hstage rfl rfl rfl⟩
    | false => exact ⟨rfl, rfl, rfl, rfl, .keep [] (by simp) hstage rfl rfl (by simp [goto])⟩

/-- Handing the connection over unwinds an attempt. -/
theorem advance_handOver {conn : ConnId} (hstage : a.stage = .keeping) :
    Advance cfg a (handOver cfg a conn t).1 :=
  ⟨rfl, rfl, rfl, rfl, .keep [] (by simp) hstage rfl rfl (by simp [handOver, goto])⟩

/-- Beginning to observe leaves the peer to be removed. -/
theorem advance_resume {conn : Option ConnId} (hstage : a.stage = .leaving) :
    Advance cfg a (resume cfg a conn now t).1 := by
  cases conn with
  | some c =>
    exact ⟨rfl, rfl, rfl, rfl, .goOn [.publish .observing] (by simp) hstage.symm rfl rfl⟩
  | none =>
    simp only [resume, ownOrTake]
    cases (Transport.take a.peer t).1 with
    | some c =>
      exact ⟨rfl, rfl, rfl, rfl, .goOn [.take, .publish .observing] (by simp) hstage.symm rfl
        (by simp [published, noted, goto])⟩
    | none => exact advance_noted (by simp) hstage.symm

/-- A turn of observing leaves the peer to be removed. -/
theorem advance_observeTurn? {conn : ConnId} {reading : Eth.Reading} {deadline seen : Nat}
    {taken : List UInt8} (hstage : a.stage = .leaving)
    (h : observeTurn? a conn reading deadline seen taken now t = some s) : Advance cfg a s.1 := by
  unfold observeTurn? at h
  split at h
  · obtain rfl := Option.some.inj h
    exact advance_goto hstage.symm
  · split at h
    · contradiction
    · obtain rfl := Option.some.inj h
      exact advance_goto hstage.symm
    · dsimp only at h
      split at h <;>
      · obtain rfl := Option.some.inj h
        exact advance_goto hstage.symm

/-- Every step of an attempt advances its course. -/
theorem advance_of_step? (h : a.step? cfg now t = some s) : Advance cfg a s.1 := by
  have hstage : a.stage = a.phase.stage := rfl
  unfold step? at h
  cases hphase : a.phase with
  | spawned =>
    simp only [hphase, Option.some.injEq] at h
    subst h
    exact advance_goto (by rw [hstage, hphase]; rfl)
  | dialing =>
    simp only [hphase, Option.some.injEq] at h
    subst h
    exact advance_noted (by simp) (by rw [hstage, hphase]; rfl)
  | dialed =>
    simp only [hphase, Option.some.injEq] at h
    subst h
    exact ⟨rfl, rfl, rfl, rfl,
      .goOn [.publish .watching] (by simp) (by rw [hstage, hphase]; rfl) rfl rfl⟩
  | watching =>
    simp only [hphase, Option.map_eq_some_iff] at h
    obtain ⟨o, -, rfl⟩ := h
    exact advance_onOutcome (by rw [hstage, hphase]; rfl) o
  | taking peer =>
    simp only [hphase, Option.map_eq_some_iff] at h
    obtain ⟨ex, -, rfl⟩ := h
    exact advance_takeForExchange (by rw [hstage, hphase]; rfl)
  | exchanging peer conn legs deadline taken =>
    simp only [hphase] at h
    split at h
    · obtain rfl := Option.some.inj h
      exact ⟨rfl, rfl, rfl, rfl, .abandon (by rw [hstage, hphase]; rfl) rfl rfl rfl⟩
    · obtain ⟨ex, -, h⟩ := Option.bind_eq_some_iff.mp h
      exact advance_exchangeTurn? (by rw [hstage, hphase]; rfl) h
  | reporting report conn =>
    simp only [hphase, Option.some.injEq] at h
    subst h
    exact advance_sendReport (by rw [hstage, hphase]; rfl)
  | keeping conn =>
    simp only [hphase, Option.some.injEq] at h
    subst h
    exact advance_keep (by rw [hstage, hphase]; rfl)
  | handingOver conn =>
    simp only [hphase, Option.some.injEq] at h
    subst h
    exact advance_handOver (by rw [hstage, hphase]; rfl)
  | resuming conn =>
    simp only [hphase, Option.some.injEq] at h
    subst h
    exact advance_resume (by rw [hstage, hphase]; rfl)
  | observing conn reading deadline seen taken =>
    simp only [hphase] at h
    exact advance_observeTurn? (by rw [hstage, hphase]; rfl) h
  | hangingUp conn =>
    simp only [hphase, Option.some.injEq] at h
    subst h
    exact advance_goto (by rw [hstage, hphase]; rfl)
  | removing conn =>
    simp only [hphase, Option.some.injEq] at h
    subst h
    exact ⟨rfl, rfl, rfl, rfl, .remove (by rw [hstage, hphase]; rfl) rfl rfl rfl⟩
  | idling conn =>
    simp only [hphase, Option.some.injEq] at h
    subst h
    exact ⟨rfl, rfl, rfl, rfl,
      .goOn [.publish .idle] (by simp) (by rw [hstage, hphase]; rfl) rfl rfl⟩
  | closing conn =>
    simp only [hphase, Option.some.injEq] at h
    subst h
    exact ⟨rfl, rfl, rfl, rfl, .goOn [] (by simp) (by rw [hstage, hphase]; rfl) rfl (by simp)⟩
  | releasing =>
    simp only [hphase, Option.some.injEq] at h
    subst h
    exact advance_goto (by rw [hstage, hphase]; rfl)
  | finished => simp [hphase] at h

/-- Only an attempt that is not finished takes steps. -/
theorem isFinished_of_step? (h : a.step? cfg now t = some s) : a.isFinished = false := by
  cases hfinished : a.isFinished with
  | false => rfl
  | true =>
    have hphase : a.phase = .finished := by simpa [isFinished] using hfinished
    simp [step?, hphase] at h

end Steps

/-! ## The account of removals -/

/-- What every attempt made with some settings satisfies: it has no report before it is decided,
it keeps or leaves its peer as the report says, and it has removed its peer once if it unwound
without keeping it, and never otherwise. -/
structure Sound (cfg : AttemptConfig) (a : Attempt) : Prop where
  undecided : a.stage = .undecided → a.report = none
  keeping : a.stage = .keeping → a.keepsPeer cfg = true
  leaving : a.stage = .leaving → a.keepsPeer cfg = false
  removals : a.history.count .remove =
    if a.stage = .unwound ∧ a.keepsPeer cfg = false then 1 else 0

/-- Attempts begin sound. -/
theorem sound_create (cfg : AttemptConfig) (slot : Nat) (peer : PeerRef)
    (timeout subscription : Nat) : (create slot peer timeout subscription).Sound cfg :=
  ⟨fun _ => rfl, nofun, nofun, rfl⟩

/-- Whether an attempt reported a connection depends on the report alone. -/
theorem isConnected_congr {a' : Attempt} (h : a'.report = a.report) :
    a'.isConnected = a.isConnected := by
  simp only [isConnected, h]

/-- The outcome of the report says whether an attempt reported a connection. -/
theorem isConnected_of_report_eq_some {r : AttemptReport} (h : a.report = some r) :
    a.isConnected = r.outcome.isConnected := by
  simp only [isConnected, h]

/-- Whether a peer is kept depends on the report alone. -/
theorem keepsPeer_congr {a' : Attempt} (h : a'.report = a.report) :
    a'.keepsPeer cfg = a.keepsPeer cfg := by
  rw [keepsPeer, isConnected_congr h, keepsPeer]

/-- A reported connection is kept if the settings say so. -/
theorem keepsPeer_of_report_eq_some {r : AttemptReport} (h : a.report = some r) :
    a.keepsPeer cfg = (r.outcome.isConnected && !cfg.disconnect) := by
  rw [keepsPeer, isConnected_of_report_eq_some h]

/-- An attempt without a report keeps nothing. -/
theorem keepsPeer_of_report_eq_none (h : a.report = none) : a.keepsPeer cfg = false := by
  simp [keepsPeer, isConnected, h]

/-- Following the course keeps an attempt sound. -/
theorem Sound.course {a' : Attempt} (hs : a.Sound cfg) (h : Course cfg a a') : a'.Sound cfg := by
  obtain ⟨hundecided, hkeeping, hleaving, hremovals⟩ := hs
  cases h with
  | goOn acts hacts hstage hreport hhistory =>
    refine ⟨?_, ?_, ?_, ?_⟩
    · rwa [hstage, hreport]
    · rwa [hstage, keepsPeer_congr hreport]
    · rwa [hstage, keepsPeer_congr hreport]
    · rw [hhistory, hstage, keepsPeer_congr hreport, List.count_append, hremovals,
        List.count_eq_zero_of_not_mem hacts, Nat.add_zero]
  | abandon hfrom hstage hreport hhistory =>
    have hnone : a'.keepsPeer cfg = false :=
      keepsPeer_of_report_eq_none (hreport.trans (hundecided hfrom))
    refine ⟨by simp [hstage], by simp [hstage], fun _ => hnone, ?_⟩
    rw [hhistory, hremovals]
    simp [hfrom, hstage]
  | report r hfrom hstage hreport hhistory =>
    have hkeeps : a'.keepsPeer cfg = (r.outcome.isConnected && !cfg.disconnect) :=
      keepsPeer_of_report_eq_some hreport
    rw [← hkeeps] at hstage
    refine ⟨?_, ?_, ?_, ?_⟩
    · rw [hstage]
      split <;> simp
    · rw [hstage]
      split <;> simp_all
    · rw [hstage]
      split <;> simp_all
    · rw [hhistory, List.count_append, hremovals, hstage]
      cases a'.keepsPeer cfg <;> simp [hfrom]
  | keep acts hacts hfrom hstage hreport hhistory =>
    have hkept : a'.keepsPeer cfg = true := (keepsPeer_congr hreport).trans (hkeeping hfrom)
    refine ⟨by simp [hstage], by simp [hstage], by simp [hstage], ?_⟩
    rw [hhistory, List.count_append, hremovals, List.count_eq_zero_of_not_mem hacts]
    simp [hfrom, hkept]
  | remove hfrom hstage hreport hhistory =>
    have hkept : a'.keepsPeer cfg = false := (keepsPeer_congr hreport).trans (hleaving hfrom)
    refine ⟨by simp [hstage], by simp [hstage], by simp [hstage], ?_⟩
    rw [hhistory, List.count_append, hremovals]
    simp [hfrom, hstage, hkept]

/-- A report stays what it is. -/
theorem Sound.report_eq_some {cfg' : AttemptConfig} {a' : Attempt} {r : AttemptReport}
    (hs : a.Sound cfg) (h : Course cfg' a a') (hr : a.report = some r) : a'.report = some r := by
  cases h with
  | report r' hfrom =>
    rw [hs.undecided hfrom] at hr
    contradiction
  | goOn _ _ _ hreport | abandon _ _ hreport | keep _ _ _ _ hreport | remove _ _ hreport =>
    rw [hreport, hr]

/-- Two states of an attempt that differ in its watcher or its cancellation at most. A cancellation
is not taken back, and the watcher has taken one step at most. -/
structure SameCourse (a a' : Attempt) : Prop where
  slot : a'.slot = a.slot
  peer : a'.peer = a.peer
  phase : a'.phase = a.phase
  report : a'.report = a.report
  history : a'.history = a.history
  cancelled : a.cancelled = true → a'.cancelled = true
  watcher : a'.watcher = a.watcher ∨
    ∃ now f r, a.watcher.step? now a.cancelled f = some r ∧ a'.watcher = r.1

/-- An attempt shares its course with itself. -/
theorem SameCourse.refl (a : Attempt) : a.SameCourse a := ⟨rfl, rfl, rfl, rfl, rfl, id, .inl rfl⟩

/-- Cancelling an attempt leaves its course alone. -/
theorem sameCourse_cancel (a : Attempt) : a.SameCourse a.cancel :=
  ⟨rfl, rfl, rfl, rfl, rfl, fun _ => rfl, .inl rfl⟩

/-- So does leaving it as it is. -/
theorem sameCourse_of_kept_or_cancelled {a' : Attempt} (h : a' = a ∨ a' = a.cancel) :
    a.SameCourse a' := by
  rcases h with rfl | rfl
  · exact .refl _
  · exact a.sameCourse_cancel

/-- What leaves the course of an attempt alone goes on within its stage. -/
theorem SameCourse.course {a' : Attempt} (h : a.SameCourse a') : Course cfg a a' :=
  .goOn [] (by simp) (congrArg AttemptPhase.stage h.phase) h.report (by simp [h.history])

/-- A watcher that is done stays as it is. -/
theorem SameCourse.result {a' : Attempt} {o : Option Outcome} (h : a.SameCourse a')
    (ho : a.watcher.result? = some o) : a'.watcher.result? = some o := by
  rcases h.watcher with hw | ⟨now, f, r, hr, -⟩
  · rw [hw, ho]
  · unfold Watcher.result? at ho
    split at ho
    · next hdone => simp [Watcher.step?, hdone] at hr
    · contradiction

/-- A step of the watcher of an attempt is one of the watcher itself, on the feed of the transport. -/
theorem exists_of_watcherStep? {σ : Type} [Transport σ] {now : Nat} {t : σ}
    {r : Attempt × σ × List Log.Entry} (h : a.watcherStep? now t = some r) :
    ∃ w, a.watcher.step? now a.cancelled (Transport.feed t) = some w ∧
      r = ({ a with watcher := w.1 }, Transport.withFeed w.2.1 t, w.2.2) := by
  unfold watcherStep? at h
  obtain ⟨-, h⟩ := Option.ite_none_left_eq_some.mp h
  obtain ⟨w, hw, rfl⟩ := Option.map_eq_some_iff.mp h
  exact ⟨w, hw, rfl⟩

/-- A step of the watcher leaves the course of its attempt alone. -/
theorem sameCourse_of_watcherStep? {σ : Type} [Transport σ] {now : Nat} {t : σ}
    {r : Attempt × σ × List Log.Entry} (h : a.watcherStep? now t = some r) : a.SameCourse r.1 := by
  obtain ⟨w, hw, rfl⟩ := exists_of_watcherStep? h
  exact ⟨rfl, rfl, rfl, rfl, rfl, id, .inr ⟨now, _, w, hw, rfl⟩⟩

end Attempt

end PeerProbe
