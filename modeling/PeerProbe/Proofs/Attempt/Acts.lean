import PeerProbe.Proofs.Transport.Uses

/-!
# What an attempt does

An attempt notes what it asks of the transport and what it shows to others. The notes of one step
follow from the phases before and behind it, and they are true: the step asks the transport for
what is noted, in that order, and for nothing else that concerns its peer.
-/

namespace PeerProbe

namespace Transport

variable {σ : Type} [Transport σ]

/-- What an attempt does to a transport without asking it for a peer: it reads, sends and lets go,
and it subscribes. -/
inductive Aside (t : σ) : σ → Prop where
  | ready {now : Nat} {c : ConnId} {taken : List UInt8} {item : Except TransportError Frame}
      {t' : σ} (h : read now c taken t = .ready item t') : Aside t t'
  | ahead {now : Nat} {c : ConnId} {taken taken' : List UInt8} {t' : σ}
      (h : read now c taken t = .ahead taken' t') : Aside t t'
  | send {now : Nat} {c : ConnId} {code : UInt64} {payload : List UInt8}
      {r : Except TransportError Unit} {t' : σ} (h : send now c code payload t = some (r, t')) :
      Aside t t'
  | release (c : ConnId) : Aside t (release c t)
  | subscribe : Aside t (subscribe t).2

/-- It is one of the things that are done to a transport. -/
theorem Aside.use {t t' : σ} (h : Aside t t') : Use t t' := by
  cases h with
  | ready h => exact .ready h
  | ahead h => exact .ahead h
  | send h => exact .send h
  | release c => exact .release c
  | subscribe => exact .withFeed _

/-- What acts for the sake of a peer, and nothing else about it, make of a transport. To publish
and to report is not the transport's business. -/
inductive Asked (peer : PeerRef) (t : σ) : List AttemptAct → σ → Prop where
  | nothing : Asked peer t [] t
  | aside {acts : List AttemptAct} {t' t'' : σ} (h : Asked peer t acts t') (h' : Aside t' t'') :
      Asked peer t acts t''
  | dial {acts : List AttemptAct} {t' : σ} (now : Nat) (h : Asked peer t acts t') :
      Asked peer t (acts ++ [.dial]) (dial now peer t')
  | take {acts : List AttemptAct} {t' : σ} (p : PeerRef) (h : Asked peer t acts t') :
      Asked peer t (acts ++ [.take]) (take p t').2
  | remove {acts : List AttemptAct} {t' : σ} (h : Asked peer t acts t') :
      Asked peer t (acts ++ [.remove]) (remove peer t')
  | publish {acts : List AttemptAct} {t' : σ} (s : AttemptState) (h : Asked peer t acts t') :
      Asked peer t (acts ++ [.publish s]) t'
  | report {acts : List AttemptAct} {t' : σ} (h : Asked peer t acts t') :
      Asked peer t (acts ++ [.report]) t'

/-- To ask a transport for something neither starts nor stops it. -/
theorem Asked.uses {peer : PeerRef} {t t' : σ} {acts : List AttemptAct}
    (h : Asked peer t acts t') : Uses t t' := by
  induction h with
  | nothing => exact .none
  | aside _ h' ih => exact .more ih h'.use
  | dial now _ ih => exact .more ih (.dial now peer)
  | take p _ ih => exact .more ih (.take p)
  | remove _ ih => exact .more ih (.remove peer)
  | publish _ _ ih | report _ ih => exact ih

end Transport

open Transport

/-- What an attempt does on its way from one phase to the next one. -/
def AttemptPhase.actsTo (cfg : AttemptConfig) : AttemptPhase → AttemptPhase → List AttemptAct
  | .dialing, _ => [.dial]
  | .dialed, _ => [.publish .watching]
  | .watching, .taking _ => [.publish .handshaking]
  | .taking _, _ => [.take]
  | .reporting .., _ => [.report]
  | .keeping none, _ => if cfg.observes then [.take] else []
  | .resuming none, .observing .. => [.take, .publish .observing]
  | .resuming none, _ => [.take]
  | .resuming (some _), _ => [.publish .observing]
  | .removing _, _ => [.remove]
  | .idling _, _ => [.publish .idle]
  | _, _ => []

/-- The state that an act shows to others, if it shows one. -/
def AttemptAct.state? : AttemptAct → Option AttemptState
  | .publish s => some s
  | _ => none

/-- The report of an attempt after a step from a phase. -/
def AttemptPhase.reported (before : Option AttemptReport) : AttemptPhase → Option AttemptReport
  | .reporting report _ => some report
  | _ => before

namespace Attempt

variable {σ : Type} [Transport σ] {cfg : AttemptConfig} {a : Attempt} {now : Nat} {t : σ}
  {s : Stepped σ}

/-- What one step of an attempt does: the acts that belong to its phases are noted and carried
out, others see the state that these show last, and nothing but the step that reports changes the
report. -/
structure Does (cfg : AttemptConfig) (a : Attempt) (t : σ) (s : Stepped σ) : Prop where
  history : s.1.history = a.history ++ a.phase.actsTo cfg s.1.phase
  state :
    s.1.state = ((a.phase.actsTo cfg s.1.phase).filterMap AttemptAct.state?).getLast?.getD a.state
  report : s.1.report = a.phase.reported a.report
  asked : Asked a.peer t (a.phase.actsTo cfg s.1.phase) s.2.1

/-- What a step from a phase does. -/
theorem does_of_phase {p : AttemptPhase} (hphase : a.phase = p)
    (history : s.1.history = a.history ++ p.actsTo cfg s.1.phase)
    (state : s.1.state = ((p.actsTo cfg s.1.phase).filterMap AttemptAct.state?).getLast?.getD a.state)
    (report : s.1.report = p.reported a.report)
    (asked : Asked a.peer t (p.actsTo cfg s.1.phase) s.2.1) : Does cfg a t s := by
  subst hphase
  exact ⟨history, state, report, asked⟩

/-- A step of an attempt that does nothing but go on, with what happens to the transport aside. -/
theorem does_goto {p q : AttemptPhase} {t' : σ} {es : List Log.Entry} {h : Option HeldPeer}
    (hphase : a.phase = p) (hacts : p.actsTo cfg q = []) (hreport : p.reported a.report = a.report)
    (hasked : Asked a.peer t [] t') : Does cfg a t (a.goto q, t', es, h) :=
  does_of_phase hphase (by simp [goto, hacts]) (by simp [goto, hacts]) hreport.symm
    (by simpa only [goto, hacts] using hasked)

/-! ## The two legs of an exchange -/

/-- The send leg asks for nothing. -/
theorem asked_sendLeg (peer : PeerRef) (cfg : AttemptConfig) (conn : ConnId) (now : Nat)
    (legs : Eth.Legs) (t : σ) : Asked peer t [] (sendLeg cfg conn now legs t).2 := by
  unfold sendLeg
  split
  · exact .nothing
  · split
    · next hsend => exact .aside .nothing (.send hsend)
    · exact .nothing

/-- The receive leg asks for nothing. -/
theorem asked_receiveLeg {peer : PeerRef} {t₀ : σ} (h : Asked peer t₀ [] t) (max : UInt32)
    (conn : ConnId) (now : Nat) (legs : Eth.Legs) (taken : List UInt8) :
    Asked peer t₀ [] (receiveLeg max conn now legs taken t).2 := by
  unfold receiveLeg
  split
  · exact h
  · split
    · next hread => exact .aside h (.ready hread)
    · next hread => exact .aside h (.ahead hread)
    · exact h

/-! ## The steps -/

/-- Taking up the outcome of the watcher shows that an exchange begins, if one does. -/
theorem does_onOutcome (hphase : a.phase = .watching) (o : Option Outcome) :
    Does cfg a t (onOutcome cfg a t o) := by
  cases o with
  | none => exact does_goto hphase rfl rfl .nothing
  | some outcome =>
    cases outcome with
    | failed reason => exact does_goto hphase rfl rfl .nothing
    | connected peer =>
      unfold onOutcome
      cases cfg.exchange with
      | none => exact does_goto hphase rfl rfl .nothing
      | some ex => exact does_of_phase hphase rfl rfl rfl (.publish .handshaking .nothing)

/-- An exchange begins with a connection that is asked for. -/
theorem does_takeForExchange {ex : Eth.ExchangeConfig} {peer : PeerRef}
    (hphase : a.phase = .taking peer) : Does cfg a t (takeForExchange ex a peer now t) := by
  have htake : Asked a.peer t [.take] (take peer t).2 := .take peer .nothing
  unfold takeForExchange
  dsimp only
  split
  · next hconn =>
    rw [hconn] at htake
    exact does_of_phase hphase rfl rfl rfl htake
  · next hconn =>
    rw [hconn] at htake
    exact does_of_phase hphase rfl rfl rfl htake

/-- A turn of an exchange only sends and reads. -/
theorem does_exchangeTurn? {ex : Eth.ExchangeConfig} {peer : PeerRef} {conn : ConnId}
    {legs : Eth.Legs} {deadline : Nat} {taken : List UInt8}
    (hphase : a.phase = .exchanging peer conn legs deadline taken)
    (h : exchangeTurn? cfg ex a peer conn legs deadline taken now t = some s) : Does cfg a t s := by
  have hgoes {q : AttemptPhase} {t' : σ} {es : List Log.Entry} (hasked : Asked a.peer t [] t') :
      Does cfg a t (a.goto q, t', es, none) := does_goto hphase rfl rfl hasked
  have hsend := asked_sendLeg a.peer cfg conn now legs t
  unfold exchangeTurn? at h
  split at h
  · next hleg =>
    obtain rfl := Option.some.inj h
    rw [hleg] at hsend
    exact hgoes hsend
  · next legs' sent t' hleg =>
    rw [hleg] at hsend
    have hreceive := asked_receiveLeg hsend ex.maxMessage conn now legs' taken
    split at h
    · next hleg' =>
      obtain rfl := Option.some.inj h
      rw [hleg'] at hreceive
      exact hgoes hreceive
    · next hleg' =>
      rw [hleg'] at hreceive
      split at h
      · obtain rfl := Option.some.inj h
        exact hgoes hreceive
      · split at h
        · obtain rfl := Option.some.inj h
          exact hgoes hreceive
        · split at h
          · obtain rfl := Option.some.inj h
            exact hgoes hreceive
          · contradiction

/-- An attempt that keeps its peer asks for the connection if traffic is wanted and it has none. -/
theorem does_keep {conn : Option ConnId} (hphase : a.phase = .keeping conn) :
    Does cfg a t (keep cfg a conn t) := by
  cases conn with
  | some c => exact does_goto hphase rfl rfl .nothing
  | none =>
    simp only [keep, ownOrTake, Option.isSome_none, Bool.false_or]
    have hacts (q : AttemptPhase) : (AttemptPhase.keeping none).actsTo cfg q =
        if cfg.observes then [.take] else [] := by
      cases q <;> rfl
    cases hobserves : cfg.observes with
    | true =>
      simp only [hobserves, ↓reduceIte] at hacts ⊢
      have htake : Asked a.peer t [.take] (take a.peer t).2 := .take a.peer .nothing
      cases (take a.peer t).1 with
      | some c | none =>
        exact does_of_phase hphase (by rw [hacts]; rfl) (by rw [hacts]; rfl) rfl
          (by rw [hacts]; exact htake)
    | false =>
      simp only [hobserves, Bool.false_eq_true, ↓reduceIte] at hacts ⊢
      exact does_goto hphase (hacts _) rfl .nothing

/-- An attempt that is to observe asks for the connection if it has none. -/
theorem does_resume {conn : Option ConnId} (hphase : a.phase = .resuming conn) :
    Does cfg a t (resume cfg a conn now t) := by
  cases conn with
  | some c => exact does_of_phase hphase rfl rfl rfl (.publish .observing .nothing)
  | none =>
    have htake : Asked a.peer t [.take] (take a.peer t).2 := .take a.peer .nothing
    simp only [resume, ownOrTake]
    cases (take a.peer t).1 with
    | some c =>
      exact does_of_phase hphase (by simp [goto, published, noted, AttemptPhase.actsTo]) rfl rfl
        (.publish .observing htake)
    | none => exact does_of_phase hphase rfl rfl rfl htake

/-- A turn of observing only reads. -/
theorem does_observeTurn? {conn : ConnId} {reading : Eth.Reading} {deadline seen : Nat}
    {taken : List UInt8} (hphase : a.phase = .observing conn reading deadline seen taken)
    (h : observeTurn? a conn reading deadline seen taken now t = some s) : Does cfg a t s := by
  unfold observeTurn? at h
  split at h
  · obtain rfl := Option.some.inj h
    exact does_goto hphase rfl rfl .nothing
  · split at h
    · contradiction
    · next hread =>
      obtain rfl := Option.some.inj h
      exact does_goto hphase rfl rfl (.aside .nothing (.ahead hread))
    · next hread =>
      dsimp only at h
      split at h <;>
      · obtain rfl := Option.some.inj h
        exact does_goto hphase rfl rfl (.aside .nothing (.ready hread))

/-- Every step of an attempt does what belongs to its phases. -/
theorem does_of_step? (h : a.step? cfg now t = some s) : Does cfg a t s := by
  unfold step? at h
  cases hphase : a.phase with
  | spawned | releasing =>
    simp only [hphase, Option.some.injEq] at h
    subst h
    exact does_goto hphase rfl rfl .nothing
  | dialing =>
    simp only [hphase, Option.some.injEq] at h
    subst h
    exact does_of_phase hphase rfl rfl rfl (.dial now .nothing)
  | dialed =>
    simp only [hphase, Option.some.injEq] at h
    subst h
    exact does_of_phase hphase rfl rfl rfl (.publish .watching .nothing)
  | watching =>
    simp only [hphase, Option.map_eq_some_iff] at h
    obtain ⟨o, -, rfl⟩ := h
    exact does_onOutcome hphase o
  | taking peer =>
    simp only [hphase, Option.map_eq_some_iff] at h
    obtain ⟨ex, -, rfl⟩ := h
    exact does_takeForExchange hphase
  | exchanging peer conn legs deadline taken =>
    simp only [hphase] at h
    split at h
    · obtain rfl := Option.some.inj h
      exact does_goto hphase rfl rfl .nothing
    · obtain ⟨ex, -, h⟩ := Option.bind_eq_some_iff.mp h
      exact does_exchangeTurn? hphase h
  | reporting report conn =>
    simp only [hphase, Option.some.injEq] at h
    subst h
    exact does_of_phase hphase rfl rfl rfl (.report .nothing)
  | keeping conn =>
    simp only [hphase, Option.some.injEq] at h
    subst h
    exact does_keep hphase
  | handingOver conn =>
    simp only [hphase, Option.some.injEq] at h
    subst h
    exact does_goto hphase rfl rfl (.aside .nothing .subscribe)
  | resuming conn =>
    simp only [hphase, Option.some.injEq] at h
    subst h
    exact does_resume hphase
  | observing conn reading deadline seen taken =>
    simp only [hphase] at h
    exact does_observeTurn? hphase h
  | hangingUp conn =>
    simp only [hphase, Option.some.injEq] at h
    subst h
    exact does_goto hphase rfl rfl (.aside .nothing (.release conn))
  | removing conn =>
    simp only [hphase, Option.some.injEq] at h
    subst h
    exact does_of_phase hphase rfl rfl rfl (.remove .nothing)
  | idling conn =>
    simp only [hphase, Option.some.injEq] at h
    subst h
    exact does_of_phase hphase rfl rfl rfl (.publish .idle .nothing)
  | closing conn =>
    simp only [hphase, Option.some.injEq] at h
    subst h
    have hasked : Asked a.peer t [] (releaseConn conn t) := by
      cases conn with
      | some c => exact .aside .nothing (.release c)
      | none => exact .nothing
    exact does_of_phase hphase (List.append_nil _).symm rfl rfl hasked
  | finished => simp [hphase] at h

/-- A step of an attempt neither starts nor stops the transport. -/
theorem uses_of_step? (h : a.step? cfg now t = some s) : Uses t s.2.1 :=
  (does_of_step? h).asked.uses

/-- A step of a watcher only reads from the feed. -/
theorem uses_of_watcherStep? {r : Attempt × σ × List Log.Entry}
    (h : a.watcherStep? now t = some r) : Uses t r.2.1 := by
  unfold watcherStep? at h
  split at h
  · contradiction
  · obtain ⟨s, -, rfl⟩ := Option.map_eq_some_iff.mp h
    exact (Use.withFeed _).uses

end Attempt

end PeerProbe
