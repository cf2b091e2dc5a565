import PeerProbe.Proofs.Attempt.Course

/-!
# How an attempt ends

The phases of an attempt form a graph without cycles, but for two waits: the turns of an exchange
and those of observing. Every other step brings the attempt closer to its end, and an attempt that
has a reason to end never waits again, so a known number of its own steps is left.

The last state that an attempt publishes is that it is idle. It does so when its peer is removed or
kept, and the end of its task comes after that.
-/

namespace PeerProbe

namespace Attempt

variable {cfg : AttemptConfig} {a : Attempt}

/-- The phases to which one step of an attempt leads. -/
inductive Goes (cfg : AttemptConfig) (a : Attempt) : AttemptPhase → AttemptPhase → Prop where
  | spawn : Goes cfg a .spawned .dialing
  | dial : Goes cfg a .dialing .dialed
  | watch : Goes cfg a .dialed .watching
  | cancelledWatch (h : a.watcher.result? = some none) : Goes cfg a .watching (.removing none)
  | failed {reason : FailureReason} (h : a.watcher.result? = some (some (.failed reason))) :
      Goes cfg a .watching (.reporting (.failed a.peer reason) none)
  | connected {peer : PeerRef} (h : a.watcher.result? = some (some (.connected peer)))
      (hex : cfg.exchange = none) : Goes cfg a .watching (.reporting (.connected peer) none)
  | exchange {peer : PeerRef} (h : a.watcher.result? = some (some (.connected peer)))
      (hex : cfg.exchange.isSome = true) : Goes cfg a .watching (.taking peer)
  | taken {peer : PeerRef} (conn : ConnId) (deadline : Nat) :
      Goes cfg a (.taking peer) (.exchanging peer conn .start deadline [])
  | untaken {peer : PeerRef} :
      Goes cfg a (.taking peer)
        (.reporting (.failed peer (.exchange (.transport .disconnected))) none)
  | cancelledExchange {peer : PeerRef} {conn : ConnId} {legs : Eth.Legs} {deadline : Nat}
      {taken : List UInt8} (h : a.cancelled = true) :
      Goes cfg a (.exchanging peer conn legs deadline taken) (.removing (some conn))
  | turn {peer : PeerRef} {conn : ConnId} {legs : Eth.Legs} {deadline : Nat}
      {taken : List UInt8} (h : a.cancelled = false) (legs' : Eth.Legs) (taken' : List UInt8) :
      Goes cfg a (.exchanging peer conn legs deadline taken)
        (.exchanging peer conn legs' deadline taken')
  | exchanged {peer : PeerRef} {conn : ConnId} {legs : Eth.Legs} {deadline : Nat}
      {taken : List UInt8} (h : a.cancelled = false)
      (result : Except Eth.ExchangeError Eth.ExchangeReport) :
      Goes cfg a (.exchanging peer conn legs deadline taken)
        (.reporting (.ofExchange peer result) (some conn))
  | keep {report : AttemptReport} {conn : Option ConnId}
      (h : (report.outcome.isConnected && !cfg.disconnect) = true) :
      Goes cfg a (.reporting report conn) (.keeping conn)
  | observe {report : AttemptReport} {conn : Option ConnId}
      (h : (report.outcome.isConnected && cfg.disconnect && cfg.observes) = true) :
      Goes cfg a (.reporting report conn) (.resuming conn)
  | leave {report : AttemptReport} {conn : Option ConnId}
      (h : (report.outcome.isConnected && !cfg.disconnect) = false) :
      Goes cfg a (.reporting report conn) (.removing conn)
  | held {conn : Option ConnId} (c : ConnId) : Goes cfg a (.keeping conn) (.handingOver c)
  | unheld {conn : Option ConnId} : Goes cfg a (.keeping conn) (.idling none)
  | handedOver {c : ConnId} : Goes cfg a (.handingOver c) (.idling none)
  | resumed {conn : Option ConnId} (c : ConnId) (reading : Eth.Reading) (deadline : Nat) :
      Goes cfg a (.resuming conn) (.observing c reading deadline 0 [])
  | unresumed {conn : Option ConnId} : Goes cfg a (.resuming conn) (.removing none)
  | look {c : ConnId} {reading : Eth.Reading} {deadline seen : Nat} {taken : List UInt8}
      (h : a.cancelled = false) (reading' : Eth.Reading) (seen' : Nat) (taken' : List UInt8) :
      Goes cfg a (.observing c reading deadline seen taken)
        (.observing c reading' deadline seen' taken')
  | observed {c : ConnId} {reading : Eth.Reading} {deadline seen : Nat} {taken : List UInt8} :
      Goes cfg a (.observing c reading deadline seen taken) (.hangingUp c)
  | hungUp {c : ConnId} : Goes cfg a (.hangingUp c) (.removing none)
  | removed {conn : Option ConnId} : Goes cfg a (.removing conn) (.idling conn)
  | idled {conn : Option ConnId} : Goes cfg a (.idling conn) (.closing conn)
  | closed {conn : Option ConnId} : Goes cfg a (.closing conn) .releasing
  | released : Goes cfg a .releasing .finished

section Steps

variable {σ : Type} [Transport σ] {now : Nat} {t : σ} {s : Stepped σ}

omit [Transport σ] in
/-- The outcome of the watcher decides where an attempt goes. -/
theorem goes_onOutcome {o : Option Outcome} (h : a.watcher.result? = some o) :
    Goes cfg a .watching (onOutcome cfg a t o).1.phase := by
  cases o with
  | none => exact .cancelledWatch h
  | some outcome =>
    cases outcome with
    | failed reason => exact .failed h
    | connected peer =>
      unfold onOutcome
      cases hex : cfg.exchange with
      | none => exact .connected h hex
      | some ex => exact .exchange h (by rw [hex]; rfl)

/-- A turn of an exchange that was not cancelled goes on or ends the exchange. -/
theorem goes_exchangeTurn? {ex : Eth.ExchangeConfig} {peer : PeerRef} {conn : ConnId}
    {legs : Eth.Legs} {deadline : Nat} {taken : List UInt8} (hcancelled : a.cancelled = false)
    (h : exchangeTurn? cfg ex a peer conn legs deadline taken now t = some s) :
    Goes cfg a (.exchanging peer conn legs deadline taken) s.1.phase := by
  unfold exchangeTurn? at h
  split at h
  · obtain rfl := Option.some.inj h
    exact .exchanged hcancelled _
  · split at h
    · obtain rfl := Option.some.inj h
      exact .exchanged hcancelled _
    · split at h
      · obtain rfl := Option.some.inj h
        exact .exchanged hcancelled _
      · split at h
        · obtain rfl := Option.some.inj h
          exact .exchanged hcancelled _
        · split at h
          · obtain rfl := Option.some.inj h
            exact .turn hcancelled _ _
          · contradiction

omit [Transport σ] in
/-- The report and the settings decide where an attempt goes. -/
theorem goes_sendReport (cfg : AttemptConfig) (a : Attempt) (report : AttemptReport)
    (conn : Option ConnId) :
    Goes cfg a (.reporting report conn) (sendReport cfg a report conn t).1.phase := by
  unfold sendReport
  cases hkeep : report.outcome.isConnected && !cfg.disconnect with
  | true => exact .keep hkeep
  | false =>
    simp only [Bool.false_eq_true, ↓reduceIte]
    split
    · next hobserve =>
      refine .observe ?_
      simp only [Bool.and_eq_true] at hobserve
      simpa [hobserve.1, hobserve.2] using hkeep
    · exact .leave hkeep

/-- An attempt that keeps its peer has a connection to hand over, or none. -/
theorem goes_keep (cfg : AttemptConfig) (a : Attempt) (conn : Option ConnId) (t : σ) :
    Goes cfg a (.keeping conn) (keep cfg a conn t).1.phase := by
  unfold keep
  dsimp only
  split
  · exact .held _
  · exact .unheld

/-- An attempt that is to observe has a connection, or leaves. -/
theorem goes_resume (cfg : AttemptConfig) (a : Attempt) (conn : Option ConnId) (now : Nat) (t : σ) :
    Goes cfg a (.resuming conn) (resume cfg a conn now t).1.phase := by
  unfold resume
  split
  · exact .resumed _ _ _
  · exact .unresumed

/-- A turn of observing goes on, or ends it. -/
theorem goes_observeTurn? {conn : ConnId} {reading : Eth.Reading} {deadline seen : Nat}
    {taken : List UInt8} (h : observeTurn? a conn reading deadline seen taken now t = some s) :
    Goes cfg a (.observing conn reading deadline seen taken) s.1.phase := by
  unfold observeTurn? at h
  split at h
  · obtain rfl := Option.some.inj h
    exact .observed
  · next hgoing =>
    have hcancelled : a.cancelled = false := by
      simp only [Bool.or_eq_true, not_or, Bool.not_eq_true] at hgoing
      exact hgoing.1
    split at h
    · contradiction
    · obtain rfl := Option.some.inj h
      exact .look hcancelled _ _ _
    · dsimp only at h
      split at h
      · obtain rfl := Option.some.inj h
        exact .look hcancelled _ _ _
      · obtain rfl := Option.some.inj h
        exact .look hcancelled _ _ _
      · obtain rfl := Option.some.inj h
        exact .observed

/-- Every step of an attempt follows the graph. -/
theorem goes_of_step? (h : a.step? cfg now t = some s) : Goes cfg a a.phase s.1.phase := by
  unfold step? at h
  cases hphase : a.phase with
  | watching =>
    simp only [hphase, Option.map_eq_some_iff] at h
    obtain ⟨o, ho, rfl⟩ := h
    exact goes_onOutcome ho
  | taking peer =>
    simp only [hphase, Option.map_eq_some_iff] at h
    obtain ⟨ex, -, rfl⟩ := h
    unfold takeForExchange
    dsimp only
    split
    · exact .taken _ _
    · exact .untaken
  | exchanging peer conn legs deadline taken =>
    simp only [hphase] at h
    split at h
    · next hcancelled =>
      obtain rfl := Option.some.inj h
      exact .cancelledExchange hcancelled
    · next hcancelled =>
      obtain ⟨ex, -, h⟩ := Option.bind_eq_some_iff.mp h
      exact goes_exchangeTurn? (Bool.eq_false_iff.mpr hcancelled) h
  | observing conn reading deadline seen taken =>
    simp only [hphase] at h
    exact goes_observeTurn? h
  | reporting report conn =>
    simp only [hphase, Option.some.injEq] at h
    subst h
    exact goes_sendReport cfg a report conn
  | keeping conn =>
    simp only [hphase, Option.some.injEq] at h
    subst h
    exact goes_keep cfg a conn t
  | resuming conn =>
    simp only [hphase, Option.some.injEq] at h
    subst h
    exact goes_resume cfg a conn now t
  | finished => simp [hphase] at h
  | _ =>
    simp only [hphase, Option.some.injEq] at h
    subst h
    constructor

end Steps

end Attempt

/-! ## Coming closer to the end -/

namespace AttemptPhase

/-- The most steps that are left from a phase, not counting the turns of an exchange and of
observing. -/
def rank : AttemptPhase → Nat
  | .spawned => 14
  | .dialing => 13
  | .dialed => 12
  | .watching => 11
  | .taking _ => 10
  | .exchanging .. => 9
  | .reporting .. => 8
  | .resuming _ => 7
  | .observing .. => 6
  | .keeping _ | .hangingUp _ => 5
  | .handingOver _ | .removing _ => 4
  | .idling _ => 3
  | .closing _ => 2
  | .releasing => 1
  | .finished => 0

/-- Whether an attempt takes turns in a phase, each of which may leave it there. -/
def takesTurns : AttemptPhase → Bool
  | .exchanging .. | .observing .. => true
  | _ => false

/-- Whether nothing is left to do but to let go of what the attempt owns. -/
def isOver : AttemptPhase → Bool
  | .closing _ | .releasing | .finished => true
  | _ => false

end AttemptPhase

/-- The most steps that are left to a watcher that was cancelled. -/
def WatcherPhase.rank : WatcherPhase → Nat
  | .created => 3
  | .waiting _ => 2
  | .decided _ => 1
  | .done _ => 0

namespace Attempt

variable {cfg : AttemptConfig} {a : Attempt}

/-- The most steps that are left to an attempt and its watcher once it was cancelled. -/
def unwinding (a : Attempt) : Nat := a.phase.rank + a.watcher.phase.rank

/-- Every step but a turn comes closer to the end, and a cancelled attempt takes no turns. -/
theorem Goes.rank_lt {p q : AttemptPhase} (h : Goes cfg a p q) :
    q.rank < p.rank ∨ (p.takesTurns = true ∧ a.cancelled = false) := by
  cases h with
  | turn h => exact .inr ⟨rfl, h⟩
  | look h => exact .inr ⟨rfl, h⟩
  | _ => exact .inl (by simp [AttemptPhase.rank])

/-- The last thing that an attempt has done when it is over is to show that it is idle. -/
def EndsIdle (a : Attempt) : Prop :=
  a.phase.isOver = true → a.history.getLast? = some (.publish .idle)

/-- Attempts begin with something left to do. -/
theorem endsIdle_create (slot : Nat) (peer : PeerRef) (timeout subscription : Nat) :
    (create slot peer timeout subscription).EndsIdle := nofun

/-- What leaves the course of an attempt alone leaves its last act alone. -/
theorem EndsIdle.sameCourse {a' : Attempt} (ha : a.EndsIdle) (h : a.SameCourse a') :
    a'.EndsIdle := by
  rw [EndsIdle, h.phase, h.history]
  exact ha

/-- A taken connection comes up only where there is an exchange. -/
def TakesForExchange (cfg : AttemptConfig) (a : Attempt) : Prop :=
  ∀ peer, a.phase = .taking peer → cfg.exchange.isSome = true

/-- A reason to end is there: the watcher has no connection to report, the attempt was cancelled
where it looks for that, the time to observe is over, there is nothing to observe, or the attempt is
about to let its peer go or to keep it. -/
def IsEnding (cfg : AttemptConfig) (now : Nat) (a : Attempt) : Prop :=
  match a.phase with
  | .watching => ∃ o, a.watcher.result? = some o ∧ ∀ peer, o ≠ some (.connected peer)
  | .exchanging .. => a.cancelled = true
  | .observing _ _ deadline _ _ => a.cancelled = true ∨ deadline ≤ now
  | .reporting report _ => (report.outcome.isConnected && cfg.disconnect && cfg.observes) = false
  | .spawned | .dialing | .dialed | .taking _ | .resuming _ => False
  | .keeping _ | .handingOver _ | .hangingUp _ | .removing _ | .idling _ | .closing _
  | .releasing | .finished => True

section Steps

variable {σ : Type} [Transport σ] {now : Nat} {t : σ} {s : Stepped σ}

/-- Steps keep it so that the last act is to be idle. -/
theorem EndsIdle.step? (ha : a.EndsIdle) (h : a.step? cfg now t = some s) : s.1.EndsIdle := by
  intro hover
  have hgoes := goes_of_step? h
  unfold Attempt.step? at h
  cases hphase : a.phase with
  | idling conn =>
    simp only [hphase, Option.some.injEq] at h
    subst h
    exact List.getLast?_concat ..
  | closing conn =>
    simp only [hphase, Option.some.injEq] at h
    subst h
    exact ha (by rw [hphase]; rfl)
  | releasing =>
    simp only [hphase, Option.some.injEq] at h
    subst h
    exact ha (by rw [hphase]; rfl)
  | _ =>
    rw [hphase] at hgoes
    generalize s.1.phase = q at hgoes hover
    cases hgoes <;> contradiction

omit [Transport σ] in
/-- What leaves the course of an attempt alone does not make it take anything. -/
theorem TakesForExchange.sameCourse {a' : Attempt} (ha : a.TakesForExchange cfg)
    (h : a.SameCourse a') : a'.TakesForExchange cfg := by
  rw [TakesForExchange, h.phase]
  exact ha

/-- Only an attempt with an exchange goes on to take a connection for it. -/
theorem TakesForExchange.step? (h : a.step? cfg now t = some s) : s.1.TakesForExchange cfg := by
  intro peer hpeer
  have hgoes := goes_of_step? h
  rw [hpeer] at hgoes
  generalize a.phase = p at hgoes
  cases hgoes with
  | exchange _ hex => exact hex

/-- An attempt waits only for its watcher and between turns. -/
theorem isSome_step? (hfinished : a.isFinished = false) (htakes : a.TakesForExchange cfg)
    (hwatching : a.phase = .watching → a.watcher.result?.isSome = true)
    (hcancelled : a.phase.takesTurns = true → a.cancelled = true) :
    (a.step? cfg now t).isSome = true := by
  unfold Attempt.step?
  cases hphase : a.phase with
  | watching => simpa [hphase] using hwatching hphase
  | taking peer => simpa [hphase] using htakes peer hphase
  | exchanging => simp [hcancelled (by rw [hphase]; rfl)]
  | observing => simp [observeTurn?, hcancelled (by rw [hphase]; rfl)]
  | finished => simp [isFinished, hphase] at hfinished
  | _ => rfl

omit [Transport σ] in
/-- Where an attempt with a reason to end goes, the reason stays. Observing is apart, because its
turns look at the clock. -/
theorem IsEnding.goes {a' : Attempt} (ha : a.IsEnding cfg now)
    (hgoes : Goes cfg a a.phase a'.phase)
    (hobserving : ∀ c reading deadline seen taken,
      a.phase ≠ .observing c reading deadline seen taken) :
    a'.IsEnding cfg now ∧ a'.phase.rank < a.phase.rank := by
  unfold IsEnding at ha ⊢
  generalize a.phase = p at ha hgoes hobserving ⊢
  generalize a'.phase = q at hgoes ⊢
  cases hgoes with
  | spawn | dial | watch | taken | untaken | resumed | unresumed => contradiction
  | turn h | exchanged h => simp [h] at ha
  | connected h | exchange h =>
    obtain ⟨o, ho, hno⟩ := ha
    rw [h, Option.some.injEq] at ho
    exact absurd ho.symm (hno _)
  | observe h => simp [h] at ha
  | look | observed => exact absurd rfl (hobserving _ _ _ _ _)
  | failed => exact ⟨rfl, by simp [AttemptPhase.rank]⟩
  | _ => exact ⟨trivial, by simp [AttemptPhase.rank]⟩

omit [Transport σ] in
/-- What leaves the course of an attempt alone leaves it a reason to end, and so does the clock. -/
theorem IsEnding.sameCourse {a' : Attempt} {now' : Nat} (ha : a.IsEnding cfg now)
    (h : a.SameCourse a') (hnow : now ≤ now') : a'.IsEnding cfg now' := by
  unfold IsEnding at ha ⊢
  rw [h.phase]
  generalize a.phase = p at ha ⊢
  cases p with
  | watching =>
    obtain ⟨o, ho, hno⟩ := ha
    exact ⟨o, h.result ho, hno⟩
  | exchanging => exact h.cancelled ha
  | observing conn reading deadline =>
    rcases ha with hcancelled | hdue
    · exact .inl (h.cancelled hcancelled)
    · exact .inr (Nat.le_trans hdue hnow)
  | _ => exact ha

/-- An attempt that has a reason to end takes a step, which comes closer to the end, and the reason
stays. -/
theorem IsEnding.exists_step? (ha : a.IsEnding cfg now) (hfinished : a.isFinished = false) (t : σ) :
    ∃ s, a.step? cfg now t = some s ∧ s.1.IsEnding cfg now ∧ s.1.phase.rank < a.phase.rank := by
  by_cases hobserving : ∃ c reading deadline seen taken,
      a.phase = .observing c reading deadline seen taken
  · obtain ⟨c, reading, deadline, seen, taken, hphase⟩ := hobserving
    have hdue : (a.cancelled || decide (deadline ≤ now)) = true := by
      simpa [IsEnding, hphase] using ha
    refine ⟨a.observed c seen [] t, by simp [Attempt.step?, hphase, observeTurn?, hdue], ?_, ?_⟩
    · simp [observed, goto, IsEnding]
    · simp [observed, goto, hphase, AttemptPhase.rank]
  · have hsome : (a.step? cfg now t).isSome = true := by
      unfold IsEnding at ha
      refine isSome_step? hfinished (fun peer hphase => ?_) (fun hphase => ?_) fun hturns => ?_
      · simp [hphase] at ha
      · simp only [hphase] at ha
        obtain ⟨o, ho, -⟩ := ha
        rw [ho]
        rfl
      · cases hphase : a.phase with
        | exchanging => simpa [hphase] using ha
        | observing => exact absurd ⟨_, _, _, _, _, hphase⟩ hobserving
        | _ => simp [hphase, AttemptPhase.takesTurns] at hturns
    obtain ⟨s, hs⟩ := Option.isSome_iff_exists.mp hsome
    have hgoes := ha.goes (goes_of_step? hs) fun c reading deadline seen taken hphase =>
      hobserving ⟨c, reading, deadline, seen, taken, hphase⟩
    exact ⟨s, hs, hgoes⟩

/-! ## Cancelled attempts -/

omit [Transport σ] in
/-- A step of a cancelled watcher decides, or is the one before or behind that. -/
theorem rank_lt_of_watcherStep? {w w' : Watcher} {f f' : Feed} {es : List Log.Entry}
    (h : w.step? now true f = some (w', f', es)) : w'.phase.rank < w.phase.rank := by
  unfold Watcher.step? at h
  cases hphase : w.phase with
  | created =>
    simp only [hphase, Option.some.injEq, Prod.mk.injEq] at h
    obtain ⟨rfl, -, -⟩ := h
    simp [WatcherPhase.rank]
  | waiting deadline =>
    simp only [hphase, Watcher.turn?, ↓reduceIte, Option.some.injEq, Prod.mk.injEq] at h
    obtain ⟨rfl, -, -⟩ := h
    simp [Watcher.concluded, WatcherPhase.rank]
  | decided o =>
    simp only [hphase, Option.some.injEq, Prod.mk.injEq] at h
    obtain ⟨rfl, -, -⟩ := h
    simp [WatcherPhase.rank]
  | done o => simp [hphase] at h

/-- A cancelled attempt comes closer to its end in every step of its own. -/
theorem unwinding_lt_of_step? (hcancelled : a.cancelled = true)
    (h : a.step? cfg now t = some s) : s.1.unwinding < a.unwinding := by
  have hadvance := advance_of_step? h
  rcases (goes_of_step? h).rank_lt with hlt | ⟨-, hgoing⟩
  · unfold unwinding
    rw [hadvance.watcher]
    omega
  · simp [hcancelled] at hgoing

/-- It does so in every step of its watcher. -/
theorem unwinding_lt_of_watcherStep? {r : Attempt × σ × List Log.Entry}
    (hcancelled : a.cancelled = true) (h : a.watcherStep? now t = some r) :
    r.1.unwinding < a.unwinding := by
  unfold watcherStep? at h
  split at h
  · contradiction
  · obtain ⟨⟨w, f, es⟩, hw, rfl⟩ := Option.map_eq_some_iff.mp h
    rw [hcancelled] at hw
    have hlt := rank_lt_of_watcherStep? hw
    unfold unwinding
    dsimp only
    omega

omit [Transport σ] in
/-- What leaves the course of a cancelled attempt alone does not take it away from its end. -/
theorem unwinding_le_of_sameCourse {a' : Attempt} (hcancelled : a.cancelled = true)
    (h : a.SameCourse a') : a'.unwinding ≤ a.unwinding := by
  have hwatcher : a'.watcher.phase.rank ≤ a.watcher.phase.rank := by
    rcases h.watcher with hw | ⟨now, f, r, hr, hw⟩
    · exact Nat.le_of_eq (by rw [hw])
    · rw [hcancelled] at hr
      rw [hw]
      exact Nat.le_of_lt (rank_lt_of_watcherStep? hr)
  unfold unwinding
  rw [h.phase]
  omega

/-- A cancelled attempt is never stuck: as long as its task has not ended, the task or its watcher
goes on. -/
theorem exists_step_of_cancelled (hcancelled : a.cancelled = true)
    (htakes : a.TakesForExchange cfg) (hfinished : a.isFinished = false) :
    (a.step? cfg now t).isSome = true ∨ (a.watcherStep? now t).isSome = true := by
  by_cases hwaits : a.phase = .watching ∧ a.watcher.result? = none
  · obtain ⟨hphase, hresult⟩ := hwaits
    right
    unfold watcherStep?
    rw [if_neg (by simp [hphase]), Option.isSome_map, hcancelled]
    unfold Watcher.step?
    cases hwatcher : a.watcher.phase with
    | waiting deadline => simp [Watcher.turn?]
    | done o => simp [Watcher.result?, hwatcher] at hresult
    | created | decided => rfl
  · left
    refine isSome_step? hfinished htakes (fun hphase => ?_) fun _ => hcancelled
    exact Option.isSome_iff_ne_none.mpr fun hresult => hwaits ⟨hphase, hresult⟩

end Steps

end Attempt

end PeerProbe
