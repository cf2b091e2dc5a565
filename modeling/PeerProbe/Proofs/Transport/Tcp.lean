import PeerProbe.Proofs.Transport.Publishing
import PeerProbe.Tcp.Basic

/-!
# What is done to the transport over TCP

It runs while it has a current session, and nothing but a start or a stop touches that. The feed is
only ever sent to, closed and reopened.

A dial or an inbound connection is a task that is not taken back: it stays with the peer that it
began for, and goes on until it has ended. Nothing but its own steps and the network moves it.
-/

namespace PeerProbe

/-- A dial to a peer: a connection that comes of it is one to that peer. -/
structure Establishment.Dials (p : PeerRef) (e : Establishment) : Prop where
  expected : e.expected = some p
  peer : ∀ q, e.phase = .identified q ∨ (∃ g, e.phase = .numbered q g) ∨ e.phase = .registered q →
    q = p

/-- What may become of an establishment: it stays a dial to the same peer, and its end is final. -/
structure Establishment.Follows (e e' : Establishment) : Prop where
  dials : ∀ p, e.Dials p → e'.Dials p
  ended : e.phase = .done → e' = e

/-- Nothing may become of it. -/
theorem Establishment.Follows.refl (e : Establishment) : e.Follows e := ⟨fun _ => id, fun _ => rfl⟩

/-- What becomes of it later becomes of it. -/
theorem Establishment.Follows.trans {e e' e'' : Establishment} (h : e.Follows e')
    (h' : e'.Follows e'') : e.Follows e'' :=
  ⟨fun p hp => h'.dials p (h.dials p hp), fun hdone => by
    rw [h'.ended (h.ended hdone ▸ hdone), h.ended hdone]⟩

namespace Tcp

variable {t t' : Tcp}

/-- What every use of the transport leaves to it: its session, its feed but for what is announced
there, and its establishments but for what becomes of them. -/
structure Onward (t t' : Tcp) : Prop where
  current : t'.current = t.current
  feed : t.feed.Acted t'.feed
  tasks : ∀ (i : Nat) (e : Establishment), t.tasks[i]? = some e →
    ∃ e', t'.tasks[i]? = some e' ∧ e.Follows e'

/-- A use that leaves the session, the feed and the establishments as they are. -/
theorem onward_of_eq (hcurrent : t'.current = t.current) (hfeed : t'.feed = t.feed)
    (htasks : t'.tasks = t.tasks) : t.Onward t' :=
  ⟨hcurrent, hfeed ▸ .refl _, fun _ e he => ⟨e, by rw [htasks, he], .refl e⟩⟩

/-- A use goes on where another one ended. -/
theorem Onward.trans {t'' : Tcp} (h : t.Onward t') (h' : t'.Onward t'') : t.Onward t'' := by
  refine ⟨h'.current.trans h.current, h.feed.trans h'.feed, fun i e he => ?_⟩
  obtain ⟨e', he', hfollows⟩ := h.tasks i e he
  obtain ⟨e'', he'', hfollows'⟩ := h'.tasks i e' he'
  exact ⟨e'', he'', hfollows.trans hfollows'⟩

/-- A use goes on behind a change that touches none of this. -/
theorem Onward.behind {t'' : Tcp} (h : t'.Onward t'') (hcurrent : t'.current = t.current)
    (hfeed : t'.feed = t.feed) (htasks : t'.tasks = t.tasks) : t.Onward t'' :=
  (onward_of_eq hcurrent hfeed htasks).trans h

/-! ## Connections -/

/-- An announcement leaves all but the feed alone. -/
theorem onward_announce (t : Tcp) (change : PeerChange) (p : PeerRef) :
    t.Onward (t.announce change p) :=
  ⟨rfl, Feed.acted_act t.feed (.send ⟨change, p⟩), fun _ e he => ⟨e, he, .refl e⟩⟩

/-- Giving up a slot announces the drop at most. -/
theorem onward_releaseSlot (t : Tcp) (id : NodeId) (g : ConnId) :
    t.Onward (t.releaseSlot id g) := by
  unfold releaseSlot
  split
  · split
    · exact (onward_announce _ _ _).behind rfl rfl rfl
    · exact onward_of_eq rfl rfl rfl
  · exact onward_of_eq rfl rfl rfl

/-- So does ending a connection. -/
theorem onward_release (g : ConnId) (t : Tcp) : t.Onward (t.release g) := by
  unfold release
  split
  · exact (onward_releaseSlot _ _ _).behind rfl rfl rfl
  · exact onward_of_eq rfl rfl rfl

/-- So does removing a peer. -/
theorem onward_remove (p : PeerRef) (t : Tcp) : t.Onward (t.remove p) := by
  unfold remove
  split
  · exact onward_releaseSlot _ _ _
  · exact onward_of_eq rfl rfl rfl

/-- Taking a connection announces nothing. -/
theorem onward_take (p : PeerRef) (t : Tcp) : t.Onward (t.take p).2 := by
  unfold take
  split
  · split <;> exact onward_of_eq rfl rfl rfl
  · exact onward_of_eq rfl rfl rfl

/-- A read that comes to something ends the connection at most. -/
theorem onward_read {now : Nat} {g : ConnId} {taken : List UInt8}
    (h : (∃ item, t.read now g taken = .ready item t') ∨
      ∃ taken', t.read now g taken = .ahead taken' t') : t.Onward t' := by
  unfold read at h
  rcases h with ⟨item, h⟩ | ⟨taken', h⟩
  · split at h
    · contradiction
    · split at h
      · cases h
        exact onward_release g t
      · split at h
        · cases h
          exact onward_of_eq rfl rfl rfl
        · cases h
          exact (onward_release g _).behind rfl rfl rfl
        · contradiction
        · contradiction
  · split at h
    · contradiction
    · split at h
      · contradiction
      · split at h
        · contradiction
        · contradiction
        · cases h
          exact onward_of_eq rfl rfl rfl
        · contradiction

/-- A send announces nothing. -/
theorem onward_send {now : Nat} {g : ConnId} {code : UInt64} {payload : List UInt8}
    {r : Except TransportError Unit} (h : t.send now g code payload = some (r, t')) :
    t.Onward t' := by
  obtain ⟨c, -, hc⟩ := Option.map_eq_some_iff.mp h
  split at hc
  · cases hc
    exact onward_of_eq rfl rfl rfl
  · cases hc
    exact onward_of_eq rfl rfl rfl

/-- Registering a connection announces nothing. -/
theorem onward_register (t : Tcp) (peer : PeerRef) (g : ConnId) : t.Onward (t.register peer g) := by
  unfold register
  dsimp only
  split <;> exact onward_of_eq rfl rfl rfl

/-! ## Establishments -/

/-- A task goes on to another phase, and the others stay. -/
theorem onward_setPhase {i : Nat} {e : Establishment} {p : EstablishPhase}
    (he : t.tasks[i]? = some e) (h : e.Follows { e with phase := p }) : t.Onward (t.setPhase i p) := by
  refine ⟨rfl, .refl _, fun j d hd => ?_⟩
  by_cases hij : i = j
  · subst hij
    obtain rfl := Option.some.inj (he.symm.trans hd)
    exact ⟨{ e with phase := p }, by simp [setPhase, he], h⟩
  · exact ⟨d, (List.getElem?_modify_ne _ _ hij).trans hd, .refl d⟩

/-- A task that has not ended may go on to a phase that names nobody else. -/
theorem follows_phase {e : Establishment} {p : EstablishPhase} (hrunning : e.phase ≠ .done)
    (hpeer : ∀ want, e.Dials want →
      ∀ q, p = .identified q ∨ (∃ g, p = .numbered q g) ∨ p = .registered q → q = want) :
    e.Follows { e with phase := p } :=
  ⟨fun want hdials => ⟨hdials.expected, hpeer want hdials⟩, fun hdone => absurd hdone hrunning⟩

/-- A task that has not ended may begin the exchange of identities. -/
theorem onward_beginExchange {i now : Nat} {e : Establishment} (he : t.tasks[i]? = some e)
    (hrunning : e.phase ≠ .done) : t.Onward (t.beginExchange i now e) := by
  unfold beginExchange
  dsimp only
  split
  · have he' : (t.setStream e.stream ((t.stream e.stream).write t.id.bytes).2).tasks[i]? = some e :=
      he
    exact (onward_setPhase he' (follows_phase hrunning (by simp))).behind rfl rfl rfl
  · exact onward_setPhase he (follows_phase hrunning (by simp))

/-- What comes of an exchange of identities reads at most, and names nobody but the dialled peer. -/
theorem onward_identify? {e : Establishment} {deadline now : Nat}
    {r : Except TransportError PeerRef × Tcp} (h : t.identify? e deadline now = some r) :
    t.Onward r.2 ∧ r.2.tasks = t.tasks ∧
      ∀ want q, e.expected = some want → r.1 = .ok q → q = want := by
  unfold identify? at h
  dsimp only at h
  split at h
  · split at h
    · next want hwant =>
      split at h
      · cases h
        refine ⟨onward_of_eq rfl rfl rfl, rfl, fun want' q hexpected hq => ?_⟩
        obtain rfl := Option.some.inj (hwant.symm.trans hexpected)
        exact (Except.ok.inj hq).symm
      · cases h
        exact ⟨onward_of_eq rfl rfl rfl, rfl, nofun⟩
    · next hnone =>
      cases h
      exact ⟨onward_of_eq rfl rfl rfl, rfl, fun want q hexpected => by simp [hnone] at hexpected⟩
  · split at h
    · cases h
      exact ⟨onward_of_eq rfl rfl rfl, rfl, nofun⟩
    · split at h
      · cases h
        exact ⟨onward_of_eq rfl rfl rfl, rfl, nofun⟩
      · contradiction

/-- A step of an establishment goes on with that establishment. -/
theorem onward_establishStep? {now i : Nat} {e : Establishment} (he : t.tasks[i]? = some e)
    (h : t.establishStep? now i e = some t') : t.Onward t' := by
  unfold establishStep? at h
  cases hphase : e.phase with
  | spawned =>
    simp only [hphase] at h
    split at h
    · obtain rfl := Option.some.inj h
      exact Onward.trans (onward_setPhase he (follows_phase (by simp [hphase]) (by simp)))
        (onward_of_eq rfl rfl rfl)
    · exact Option.some.inj h ▸ onward_beginExchange he (by simp [hphase])
  | connecting deadline =>
    simp only [hphase] at h
    split at h
    · exact Option.some.inj h ▸ onward_setPhase he (follows_phase (by simp [hphase]) (by simp))
    · split at h
      · exact Option.some.inj h ▸ onward_setPhase he (follows_phase (by simp [hphase]) (by simp))
      · contradiction
  | refused reason =>
    simp only [hphase] at h
    exact Option.some.inj h ▸ onward_setPhase he (follows_phase (by simp [hphase]) (by simp))
  | connected =>
    simp only [hphase] at h
    exact Option.some.inj h ▸ onward_beginExchange he (by simp [hphase])
  | exchanging deadline =>
    simp only [hphase] at h
    obtain ⟨r, hr, rfl⟩ := Option.map_eq_some_iff.mp h
    obtain ⟨honward, htasks, hpeer⟩ := onward_identify? hr
    refine honward.trans (onward_setPhase (by rw [htasks, he]) (follows_phase (by simp [hphase]) ?_))
    intro want hdials q hq
    split at hq
    · next peer hok => simp_all [hpeer want peer hdials.expected hok]
    · simp at hq
  | identified peer =>
    simp only [hphase] at h
    obtain rfl := Option.some.inj h
    refine Onward.trans (onward_setPhase he (follows_phase (by simp [hphase]) ?_))
      (onward_of_eq rfl rfl rfl)
    intro want hdials q hq
    have hpeer := hdials.peer peer (.inl hphase)
    simp_all
  | numbered peer g =>
    simp only [hphase] at h
    obtain rfl := Option.some.inj h
    refine Onward.trans (onward_setPhase he (follows_phase (by simp [hphase]) ?_))
      (onward_register _ _ _)
    intro want hdials q hq
    have hpeer := hdials.peer peer (.inr (.inl ⟨g, hphase⟩))
    simp_all
  | registered peer =>
    simp only [hphase] at h
    obtain rfl := Option.some.inj h
    exact Onward.trans (onward_setPhase he (follows_phase (by simp [hphase]) (by simp)))
      ((onward_announce _ _ _).behind rfl rfl rfl)
  | failed err =>
    simp only [hphase] at h
    obtain rfl := Option.some.inj h
    have hdone := onward_setPhase he (follows_phase (p := .done) (by simp [hphase]) (by simp))
    unfold failStep
    dsimp only
    split
    · exact hdone.trans ((onward_announce _ _ _).behind rfl rfl rfl)
    · exact hdone.trans (onward_of_eq rfl rfl rfl)
  | done => simp [hphase] at h

/-- Beginning an establishment leaves those under way alone. -/
theorem onward_beginEstablishing (t : Tcp) (expected : Option PeerRef) (remote : Endpoint)
    (session : Nat) : t.Onward (t.beginEstablishing expected remote session) := by
  refine ⟨rfl, .refl _, fun i e he => ⟨e, ?_, .refl e⟩⟩
  exact (List.getElem?_append_left (List.getElem?_eq_some_iff.mp he).1).trans he

/-- Dialling announces a peer that is connected already, and else begins an establishment at
most. -/
theorem onward_dial (now : Nat) (p : PeerRef) (t : Tcp) : t.Onward (t.dial now p) := by
  unfold dial
  split
  · exact onward_of_eq rfl rfl rfl
  · split
    · exact onward_announce _ _ _
    · exact onward_beginEstablishing _ _ _ _

/-- A dialled stream goes on from waiting to a phase that names nobody. -/
theorem onward_onConnecting {i : Nat} {p : EstablishPhase}
    (hp : ∀ q, ¬ (p = .identified q ∨ (∃ g, p = .numbered q g) ∨ p = .registered q)) :
    t.Onward (t.onConnecting i p) := by
  unfold onConnecting
  split
  · next e he =>
    split
    · next hphase =>
      exact onward_setPhase he (follows_phase (by simp [hphase]) fun _ _ q hq => absurd hq (hp q))
    · exact onward_of_eq rfl rfl rfl
  · exact onward_of_eq rfl rfl rfl

/-- What the network or another user does is one of these things. -/
theorem onward_move (now : Nat) (m : Move) (t : Tcp) : t.Onward (t.move now m) := by
  cases m with
  | connect i => exact onward_onConnecting (by simp)
  | refuse i reason => exact onward_onConnecting (by simp)
  | arrive session remote =>
    simp only [move, arrive]
    split
    · exact (onward_beginEstablishing _ _ _ _).behind rfl rfl rfl
    · exact onward_of_eq rfl rfl rfl
  | stopAccepting session =>
    simp only [move, stopAccepting]
    split <;> exact onward_of_eq rfl rfl rfl
  | deliver | finish | breakWrites | bind => exact onward_of_eq rfl rfl rfl
  | dial p => exact onward_dial now p t
  | remove p => exact onward_remove p t
  | take p => exact onward_take p t
  | read g =>
    simp only [move]
    split
    · next hread => exact onward_read (.inl ⟨_, hread⟩)
    · next hread => exact onward_read (.inr ⟨_, hread⟩)
    · exact onward_of_eq rfl rfl rfl
  | send g code payload =>
    simp only [move]
    cases hsend : t.send now g code payload with
    | none => exact onward_of_eq rfl rfl rfl
    | some r => exact onward_send hsend
  | release g => exact onward_release g t

/-- Whatever is done about a peer or a connection leaves this to the transport. -/
theorem onward_of_touch (h : Transport.Touch t t') : t.Onward t' := by
  cases h with
  | dial now p => exact onward_dial now p t
  | remove p => exact onward_remove p t
  | take p => exact onward_take p t
  | ready h => exact onward_read (.inl ⟨_, h⟩)
  | ahead h => exact onward_read (.inr ⟨_, h⟩)
  | send h => exact onward_send h
  | release g => exact onward_release g t
  | background h =>
    obtain ⟨e, he, hstep⟩ := Option.bind_eq_some_iff.mp h
    exact onward_establishStep? he hstep

/-- A use reads from the feed, or goes on. -/
theorem withFeed_or_onward (h : Transport.Use t t') :
    (∃ f, t' = Transport.withFeed f t) ∨ t.Onward t' := by
  rcases h.touch_or with htouch | hfeed | ⟨now, m, rfl⟩
  · exact .inr (onward_of_touch htouch)
  · exact .inl hfeed
  · exact .inr (onward_move now m t)

/-! ## Starting and stopping -/

/-- A start reopens the feed at most, and a stop closes it; the establishments go on. -/
theorem onward_start (t : Tcp) : t.feed.Acted t.start.2.feed ∧ t.start.2.tasks = t.tasks := by
  unfold start
  split
  · exact ⟨.refl _, rfl⟩
  · split
    · exact ⟨.refl _, rfl⟩
    · exact ⟨Feed.acted_act t.feed .reopen, rfl⟩

/-- A stop closes the feed at most; the establishments go on. -/
theorem onward_stop (t : Tcp) : t.feed.Acted t.stop.feed ∧ t.stop.tasks = t.tasks := by
  unfold stop
  split
  · exact ⟨.refl _, rfl⟩
  · exact ⟨Feed.acted_act t.feed .close, rfl⟩

/-- The transport over TCP runs from a start to a stop. -/
theorem switched : Transport.Switched Tcp where
  start t t' e hstopped h := by
    change t.start = _ at h
    unfold start at h
    split at h
    · cases h
    · split at h
      · cases h
        exact hstopped
      · cases h
  stop t := by
    change t.stop.isRunning = false
    unfold stop
    split
    · next hcurrent => rw [isRunning, hcurrent, Option.isSome_none]
    · rfl
  use t t' h := by
    rcases withFeed_or_onward h with ⟨f, rfl⟩ | honward
    · rfl
    · exact congrArg Option.isSome honward.current

/-- The transport over TCP takes nothing from anybody's subscription, whatever the network does. -/
theorem publishes : Transport.Publishes Tcp fun _ _ => False where
  feed_withFeed _ _ := rfl
  start t := (onward_start t).1
  stop t := (onward_stop t).1
  touch _ _ h := (onward_of_touch h).feed
  move now m t := (onward_move now m t).feed.usedBy _

end Tcp

end PeerProbe
