import PeerProbe.Proofs.Node.Account
import PeerProbe.Proofs.Node.Power
import PeerProbe.Proofs.Transport.Tcp

/-!
# What becomes of a dial over TCP

The dial of an attempt is a task of the transport, which nobody takes back: an attempt that ends
removes its peer, but a removal knows only the connection that is registered by then. A dial whose
task has ended has no effect any more. One whose task has not ended can still have one, whatever
became of the attempt: it goes on until it has announced its peer as added or dropped.
-/

namespace PeerProbe

/-- The most steps that are left to an establishment. -/
def EstablishPhase.rank : EstablishPhase → Nat
  | .spawned => 7
  | .connecting _ => 6
  | .connected => 5
  | .exchanging _ => 4
  | .identified _ => 3
  | .numbered _ _ | .refused _ => 2
  | .registered _ | .failed _ => 1
  | .done => 0

/-- The time until which an establishment can be kept waiting for the identity of its peer. -/
def EstablishPhase.patience : EstablishPhase → Nat
  | .exchanging deadline => deadline
  | _ => 0

namespace Tcp

variable {t t' : Tcp} {i : Nat} {e : Establishment} {p : PeerRef}

/-- What a dial may do about its peer: register a connection to it or announce that it came or
went. -/
inductive DialEffect (p : PeerRef) (t t' : Tcp) : Prop where
  | registers (g : ConnId) (hbefore : t.slot? p.id ≠ some ⟨p, g, false⟩)
      (hafter : t'.slot? p.id = some ⟨p, g, false⟩)
  | announces (change : PeerChange) (hfeed : t'.feed = t.feed.send ⟨change, p⟩)

/-! ## The task of a dial -/

/-- What becomes of an establishment, whatever is done to the transport. -/
theorem exists_follows_of_use (h : Transport.Use t t') (he : t.tasks[i]? = some e) :
    ∃ e', t'.tasks[i]? = some e' ∧ e.Follows e' := by
  rcases withFeed_or_onward h with ⟨f, rfl⟩ | honward
  · exact ⟨e, he, .refl e⟩
  · exact honward.tasks i e he

/-- A task stays a dial to its peer. -/
theorem lasts_dials (i : Nat) (p : PeerRef) :
    Transport.Lasts fun t : Tcp => ∃ e, t.tasks[i]? = some e ∧ e.Dials p where
  start t h := by
    change ∃ e, t.start.2.tasks[i]? = some e ∧ e.Dials p
    rwa [(onward_start t).2]
  stop t h := by
    change ∃ e, t.stop.tasks[i]? = some e ∧ e.Dials p
    rwa [(onward_stop t).2]
  use t t' h huse := by
    obtain ⟨e, he, hdials⟩ := h
    obtain ⟨e', he', hfollows⟩ := exists_follows_of_use huse he
    exact ⟨e', he', hfollows.dials p hdials⟩

/-- A task that has ended stays as it is. -/
theorem lasts_ended (i : Nat) :
    Transport.Lasts fun t : Tcp => ∃ e, t.tasks[i]? = some e ∧ e.phase = .done where
  start t h := by
    change ∃ e, t.start.2.tasks[i]? = some e ∧ e.phase = .done
    rwa [(onward_start t).2]
  stop t h := by
    change ∃ e, t.stop.tasks[i]? = some e ∧ e.phase = .done
    rwa [(onward_stop t).2]
  use t t' h huse := by
    obtain ⟨e, he, hdone⟩ := h
    obtain ⟨e', he', hfollows⟩ := exists_follows_of_use huse he
    exact ⟨e', he', by rw [hfollows.ended hdone, hdone]⟩

/-- What a dial begins is a dial to its peer. -/
theorem dials_of_dial (now : Nat) (hnew : t.tasks.length ≤ i)
    (he : (t.dial now p).tasks[i]? = some e) : e.Dials p := by
  have hold {tasks : List Establishment} (h : tasks = t.tasks) (he : tasks[i]? = some e) : False := by
    rw [h, List.getElem?_eq_none hnew] at he
    contradiction
  unfold dial at he
  split at he
  · exact (hold rfl he).elim
  · split at he
    · exact (hold rfl he).elim
    · rw [beginEstablishing, List.getElem?_append_right hnew] at he
      obtain rfl := List.mem_singleton.mp (List.mem_of_getElem? he)
      exact ⟨rfl, by simp⟩

/-- The phase that is set is there. -/
theorem tasks_setPhase (he : t.tasks[i]? = some e) (q : EstablishPhase) :
    (t.setPhase i q).tasks[i]? = some { e with phase := q } := by
  simp [setPhase, he]

/-- Whether or not our identity goes out, the task goes on. -/
theorem tasks_beginExchange (he : t.tasks[i]? = some e) (now : Nat) :
    (t.beginExchange i now e).tasks[i]? =
        some { e with phase := .exchanging (now + t.dialTimeout) } ∨
      ∃ err, (t.beginExchange i now e).tasks[i]? = some { e with phase := .failed err } := by
  unfold beginExchange
  dsimp only
  split
  · exact .inl (tasks_setPhase (t := t.setStream _ _) he _)
  · exact .inr ⟨_, tasks_setPhase he _⟩

/-- An exchange of identities whose time is over comes to something. -/
theorem isSome_identify? {deadline now : Nat} (h : deadline ≤ now) :
    (t.identify? e deadline now).isSome = true := by
  unfold identify?
  dsimp only
  split
  · split
    · split <;> rfl
    · rfl
  · split
    · rfl
    · rw [if_pos h]
      rfl

/-- A task that registers a connection stays what it is. -/
theorem tasks_register (peer : PeerRef) (g : ConnId) (t : Tcp) :
    (t.register peer g).tasks = t.tasks := by
  unfold register
  dsimp only
  split <;> rfl

/-- The task of a dial that waits for nothing announces its peer, or gets closer to that. -/
theorem exists_establishStep? (now : Nat) (he : t.tasks[i]? = some e) (hdials : e.Dials p)
    (hrunning : e.phase ≠ .done) (hconnecting : ∀ deadline, e.phase ≠ .connecting deadline)
    (hexchanging : ∀ deadline, e.phase = .exchanging deadline → deadline ≤ now) :
    ∃ t', t.establishStep? now i e = some t' ∧
      (DialEffect p t t' ∨ ∃ q, t'.tasks[i]? = some { e with phase := q } ∧ q ≠ .done ∧
        q.rank < e.phase.rank) := by
  -- one step to another phase that is not the last
  have hcloser {t' : Tcp} {q : EstablishPhase} (ht' : t.establishStep? now i e = some t')
      (htasks : t'.tasks[i]? = some { e with phase := q }) (hq : q ≠ .done)
      (hrank : q.rank < e.phase.rank) :
      ∃ t', t.establishStep? now i e = some t' ∧
        (DialEffect p t t' ∨ ∃ q, t'.tasks[i]? = some { e with phase := q } ∧ q ≠ .done ∧
          q.rank < e.phase.rank) :=
    ⟨t', ht', .inr ⟨q, htasks, hq, hrank⟩⟩
  cases hphase : e.phase with
  | spawned =>
    rw [hphase] at hcloser
    have hconnects : t.establishStep? now i e =
        some ((t.setPhase i (.connecting (now + t.dialTimeout))).logged .info "dial_start"
          (some e.remote.text) (some ("id=" ++ p.shortId))) := by
      simp only [establishStep?, hphase, hdials.expected]
    exact hcloser (q := .connecting (now + t.dialTimeout)) hconnects (tasks_setPhase he _)
      (by simp) (by simp [EstablishPhase.rank])
  | connecting deadline => exact absurd hphase (hconnecting deadline)
  | refused reason =>
    rw [hphase] at hcloser
    have hfails : t.establishStep? now i e =
        some (t.setPhase i (.failed (.dial e.remote.text reason))) := by
      simp only [establishStep?, hphase]
    exact hcloser hfails (tasks_setPhase he _) (by simp) (by simp [EstablishPhase.rank])
  | connected =>
    rw [hphase] at hcloser
    have hbegins : t.establishStep? now i e = some (t.beginExchange i now e) := by
      simp only [establishStep?, hphase]
    rcases tasks_beginExchange he now with htasks | ⟨err, htasks⟩
    · exact hcloser hbegins htasks (by simp) (by simp [EstablishPhase.rank])
    · exact hcloser hbegins htasks (by simp) (by simp [EstablishPhase.rank])
  | exchanging deadline =>
    rw [hphase] at hcloser
    obtain ⟨⟨reply, t'⟩, hidentify⟩ := Option.isSome_iff_exists.mp
      (isSome_identify? (t := t) (e := e) (hexchanging deadline hphase))
    have htasks : t'.tasks[i]? = some e := by rw [(onward_identify? hidentify).2.1, he]
    have hexchanges : t.establishStep? now i e = some (t'.setPhase i
        (match reply with
          | .ok peer => .identified peer
          | .error err => .failed err)) := by
      cases reply <;> simp [establishStep?, hphase, hidentify]
    refine hcloser hexchanges (tasks_setPhase htasks _) ?_ ?_
    · cases reply <;> simp
    · cases reply <;> simp [EstablishPhase.rank]
  | identified peer =>
    rw [hphase] at hcloser
    have hnumbers : t.establishStep? now i e = some
        { t.setPhase i (.numbered peer t.conns.length) with
          conns := t.conns ++ [⟨peer, e.session, false, e.stream⟩] } := by
      simp only [establishStep?, hphase]
    exact hcloser (q := .numbered peer t.conns.length) hnumbers (tasks_setPhase he _) (by simp)
      (by simp [EstablishPhase.rank])
  | numbered peer g =>
    rw [hphase] at hcloser
    have hregisters : t.establishStep? now i e =
        some ((t.setPhase i (.registered peer)).register peer g) := by
      simp only [establishStep?, hphase]
    refine hcloser (q := .registered peer) hregisters ?_ (by simp) (by simp [EstablishPhase.rank])
    rw [tasks_register]
    exact tasks_setPhase he _
  | registered peer =>
    obtain rfl := hdials.peer peer (.inr (.inr hphase))
    refine ⟨_, by simp only [establishStep?, hphase]; rfl, .inl (.announces .added rfl)⟩
  | failed err =>
    refine ⟨_, by simp only [establishStep?, hphase]; rfl, .inl (.announces .dropped ?_)⟩
    simp only [failStep, hdials.expected]
    rfl
  | done => exact absurd hphase hrunning

end Tcp

namespace Node

variable {allowed : Act Tcp → Prop} {x y n : Node Tcp} {k i : Nat} {a b : Attempt}
  {e : Establishment} {p : PeerRef}

/-- A step of an establishment is a step of its task. -/
theorem step?_background {t : Tcp} (he : n.transport.tasks[i]? = some e)
    (h : n.transport.establishStep? n.now i e = some t) :
    n.step? (.background i) = some { n with transport := t } := by
  have hbackground : Transport.background n.now i n.transport = some t := by
    change n.transport.tasks[i]?.bind _ = _
    rw [he, Option.bind_some, h]
  simp [step?, hbackground]

/-- In no state that the node gets into does the task of a dial register a connection to the peer or
announce it. -/
def NoLaterEffect (n : Node Tcp) (i : Nat) (p : PeerRef) : Prop :=
  ∀ m m', Reachable (fun _ => True) n m → m.step? (.background i) = some m' →
    ¬ Tcp.DialEffect p m.transport m'.transport

/-- A task that has ended has no later effect. -/
theorem noLaterEffect_of_ended (h : ∃ e, n.transport.tasks[i]? = some e ∧ e.phase = .done)
    (p : PeerRef) : n.NoLaterEffect i p := by
  intro m m' hm hstep
  obtain ⟨e, he, hdone⟩ := lasts_of_reachable (Tcp.lasts_ended i) hm h
  cases stepped_of_step? hstep with
  | background ht =>
    obtain ⟨e', he', hestablish⟩ := Option.bind_eq_some_iff.mp ht
    obtain rfl := Option.some.inj (he.symm.trans he')
    simp [Tcp.establishStep?, hdone] at hestablish

/-- The dial of a task that has not ended comes to an effect, or closer to one, by itself and with
what the network does. -/
theorem effect_or_closer (he : n.transport.tasks[i]? = some e) (hdials : e.Dials p)
    (hrunning : e.phase ≠ .done) :
    ∃ m, Reachable (fun _ => True) n m ∧
      ((∃ m', m.step? (.background i) = some m' ∧ Tcp.DialEffect p m.transport m'.transport) ∨
        ∃ e', m.transport.tasks[i]? = some e' ∧ e'.phase ≠ .done ∧
          e'.phase.rank < e.phase.rank) := by
  by_cases hconnecting : ∃ deadline, e.phase = .connecting deadline
  · -- the network refuses the connection
    obtain ⟨deadline, hphase⟩ := hconnecting
    refine ⟨n.act (.move (Tcp.Move.refuse i "")), .next .first (.act n _ trivial),
      .inr ⟨{ e with phase := .refused "" }, ?_, by simp, by simp [hphase, EstablishPhase.rank]⟩⟩
    change (n.transport.onConnecting i (.refused "")).tasks[i]? = _
    simp only [Tcp.onConnecting, he, hphase]
    exact Tcp.tasks_setPhase he _
  · -- as soon as the time for an exchange of identities is over, the task takes a step
    have hwaited : Reachable (fun _ => True) n (n.act (.wait e.phase.patience)) :=
      .next .first (.act n _ trivial)
    obtain ⟨t', hestablish, hnext⟩ := Tcp.exists_establishStep? (n.now + e.phase.patience) he hdials
      hrunning (fun deadline hphase => hconnecting ⟨deadline, hphase⟩)
      (fun deadline hphase => by simp [EstablishPhase.patience, hphase])
    have hstep := step?_background (n := n.act (.wait e.phase.patience)) he hestablish
    rcases hnext with heffect | ⟨q, htasks, hq, hrank⟩
    · exact ⟨_, hwaited, .inl ⟨_, hstep, heffect⟩⟩
    · exact ⟨_, .next hwaited (.step _ hstep), .inr ⟨_, htasks, hq, hrank⟩⟩

/-- The dial of a task that has not ended can still have an effect. -/
theorem exists_later_effect (he : n.transport.tasks[i]? = some e) (hdials : e.Dials p)
    (hrunning : e.phase ≠ .done) : ¬ n.NoLaterEffect i p := by
  induction hrank : e.phase.rank using Nat.strongRecOn generalizing n e with
  | ind rank ih =>
    subst hrank
    intro hnone
    obtain ⟨m, hm, ⟨m', hstep, heffect⟩ | ⟨e', he', hrunning', hlt⟩⟩ :=
      effect_or_closer he hdials hrunning
    · exact hnone m m' hm hstep heffect
    · obtain ⟨d, hd, hdials'⟩ := lasts_of_reachable (Tcp.lasts_dials i p) hm ⟨e, he, hdials⟩
      obtain rfl := Option.some.inj (he'.symm.trans hd)
      exact ih _ hlt he' hdials' hrunning' rfl fun l l' hl => hnone l l' (hm.trans hl)

/-! ## The dial of an attempt -/

/-- A task of the transport began between two states. -/
def BeganTask (x y : Node Tcp) (i : Nat) : Prop :=
  x.transport.tasks.length ≤ i ∧ i < y.transport.tasks.length

instance (x y : Node Tcp) (i : Nat) : Decidable (BeganTask x y i) :=
  inferInstanceAs (Decidable (_ ∧ _))

/-- The tasks that an attempt's dial began are dials to its peer, whatever happens. -/
theorem exists_dial_of_beganTask (hb : x.attempts[k]? = some b)
    (hphase : b.phase = .dialing) (hxy : x.step? (.attempt k) = some y)
    (hn : Reachable allowed y n) (ha : n.attempts[k]? = some a) (hi : BeganTask x y i) :
    ∃ e, n.transport.tasks[i]? = some e ∧ e.Dials a.peer := by
  have hxn : Reachable allowed x n := Reachable.trans (.next .first (.step _ hxy)) hn
  obtain ⟨a', ha', -, hpeer⟩ := exists_attempt_of_reachable hxn hb
  obtain rfl := Option.some.inj (ha.symm.trans ha')
  rw [hpeer]
  refine lasts_of_reachable (Tcp.lasts_dials i b.peer) hn ?_
  obtain ⟨hold, hnew⟩ := hi
  have hdialled : y.transport = Transport.dial x.now b.peer x.transport := by
    cases stepped_of_step? hxy with
    | @attempt _ b' cfg s hb' hcfg hs =>
      obtain rfl := Option.some.inj (hb.symm.trans hb')
      simp only [Attempt.step?, hphase, Option.some.injEq] at hs
      subst hs
      split <;> rfl
  rw [hdialled] at hnew ⊢
  exact ⟨_, List.getElem?_eq_getElem hnew,
    Tcp.dials_of_dial x.now hold (List.getElem?_eq_getElem hnew)⟩

/-- The dial that an attempt made has no later effect exactly if its task, if it began one, has
ended. -/
theorem noLaterEffect_iff (hb : x.attempts[k]? = some b)
    (hphase : b.phase = .dialing) (hxy : x.step? (.attempt k) = some y)
    (hn : Reachable allowed y n) (ha : n.attempts[k]? = some a) :
    (∀ i, BeganTask x y i → n.NoLaterEffect i a.peer) ↔
      ∀ i, BeganTask x y i → ∃ e, n.transport.tasks[i]? = some e ∧ e.phase = .done := by
  constructor
  · intro h i hi
    obtain ⟨e, he, hdials⟩ := exists_dial_of_beganTask hb hphase hxy hn ha hi
    by_cases hdone : e.phase = .done
    · exact ⟨e, he, hdone⟩
    · exact absurd (h i hi) (exists_later_effect he hdials hdone)
  · exact fun h i hi => noLaterEffect_of_ended (h i hi) a.peer

/-! ## A dial that comes too late -/

/-- A new node over TCP whose attempts run without an exchange. -/
def tcpNode : Node Tcp :=
  create (.create ⟨"127.0.0.1:0", none, defaultNodeName, 1024, .ofMillis 5000⟩ ownRef.id
    (.ok ownRef.tcpEndpoint)) plainConfig 1000

/-- The node is started, and an attempt on a peer is about to dial. -/
def diallingNode : Node Tcp :=
  (tcpNode.perform [.call 0, .call 1] 20
    [.order .start, .order (.attempt false 1 guestRef 1000)]).runTasks [.attempt 0] 1

/-- The attempt has dialled. -/
def dialledNode : Node Tcp := diallingNode.runTasks [.attempt 0] 1

/-- The stream connects, but the peer says nothing until the attempt has timed out. -/
def timedOutNode : Node Tcp :=
  dialledNode.perform [.attempt 0, .watcher 0, .background 0] 30
    [.wait 0, .move (Tcp.Move.connect 0), .wait 1000]

/-- Another attempt on the peer is under way, and the peer answers the dial of the first one. -/
def lateNode : Node Tcp :=
  (timedOutNode.perform [.call 2, .attempt 1, .watcher 1, .background 1] 30
    [.order (.attempt false 1 guestRef 1000)]).perform [.background 0] 3
      [.move (Tcp.Move.deliver 0 guestRef.id.bytes)]

/-- The dial has ended, and so has the other attempt. -/
def answeredNode : Node Tcp :=
  lateNode.perform [.background 0, .attempt 1, .watcher 1] 30 [.wait 0]

set_option maxRecDepth 4000 in
/-- The first attempt has timed out and removed its peer, and the dial it began has not ended. -/
theorem facts_timedOutNode :
    (diallingNode.attempts[0]?.map (·.phase)) = some .dialing ∧
      (diallingNode.step? (.attempt 0)).isSome = true ∧ BeganTask diallingNode dialledNode 0 ∧
      (timedOutNode.attempts[0]?.map fun a => (a.peer, a.isFinished, a.isConnected,
        decide (.remove ∈ a.history))) = some (guestRef, true, false, true) ∧
      (timedOutNode.transport.tasks[0]?.map (·.phase)) = some (.exchanging 5000) := by
  refine ⟨?_, ?_, ?_, ?_, ?_⟩ <;> decide +kernel

set_option maxRecDepth 4000 in
/-- The dial announces the peer after that, and the other attempt takes this for its own: it has
reported a connection while its own dial waits for a stream. -/
theorem facts_answeredNode :
    (lateNode.step? (.background 0)).isSome = true ∧
      (lateNode.runTasks [.background 0] 1).transport.feed =
        lateNode.transport.feed.send ⟨.added, guestRef⟩ ∧
      (answeredNode.attempts[1]?.map fun a => (a.peer, a.isConnected)) = some (guestRef, true) ∧
      (answeredNode.transport.tasks[1]?.map fun e => (e.expected, e.phase)) =
        some (some guestRef, .connecting 6000) := by
  refine ⟨?_, ?_, ?_, ?_⟩ <;> decide +kernel

/-- The dial of the attempt that has timed out has not ended, so this is no node without a later
effect. -/
theorem noLaterEffect_iff_timedOutNode :
    ∃ a b, diallingNode.attempts[0]? = some b ∧ timedOutNode.attempts[0]? = some a ∧
      a.isFinished = true ∧ a.isConnected = false ∧
      ((∀ i, BeganTask diallingNode dialledNode i → timedOutNode.NoLaterEffect i a.peer) ↔
        ∀ i, BeganTask diallingNode dialledNode i →
          ∃ e, timedOutNode.transport.tasks[i]? = some e ∧ e.phase = .done) := by
  obtain ⟨hdialling, hstep, -, hended, -⟩ := facts_timedOutNode
  obtain ⟨b, hb, hphase⟩ := Option.map_eq_some_iff.mp hdialling
  obtain ⟨a, ha, hfacts⟩ := Option.map_eq_some_iff.mp hended
  simp only [Prod.mk.injEq] at hfacts
  exact ⟨a, b, hb, ha, hfacts.2.1, hfacts.2.2.1,
    noLaterEffect_iff hb hphase (step?_eq_some_runTasks hstep)
      (reachable_perform _ _ _ fun _ _ => trivial) ha⟩

/-- A dial may have an effect after its attempt has failed and unwound: the peer of this one answers
when the attempt has timed out, and is announced. -/
theorem not_noLaterEffect_of_failed :
    ¬ ∀ (t : Tcp) (cfg : AttemptConfig) (timeout : Nat) (x y n : Node Tcp) (k i : Nat)
      (a b : Attempt), Reachable (fun _ => True) (create t cfg timeout) x →
        x.attempts[k]? = some b → b.phase = .dialing → x.step? (.attempt k) = some y →
          Reachable (fun _ => True) y n → n.attempts[k]? = some a → a.isFinished = true →
            a.isConnected = false → BeganTask x y i → n.NoLaterEffect i a.peer := by
  intro h
  obtain ⟨hdialling, hstep, hbegan, hended, -⟩ := facts_timedOutNode
  obtain ⟨hlate, hfeed, -⟩ := facts_answeredNode
  obtain ⟨b, hb, hphase⟩ := Option.map_eq_some_iff.mp hdialling
  obtain ⟨a, ha, hfacts⟩ := Option.map_eq_some_iff.mp hended
  simp only [Prod.mk.injEq] at hfacts
  obtain ⟨hpeer, hfinished, hfailed, -⟩ := hfacts
  have hx : Reachable (fun _ => True) tcpNode diallingNode :=
    (reachable_perform _ _ _ fun _ _ => trivial).trans (reachable_runTasks _ _ _ _)
  have hn : Reachable (fun _ => True) dialledNode timedOutNode :=
    reachable_perform _ _ _ fun _ _ => trivial
  have hm : Reachable (fun _ => True) timedOutNode lateNode :=
    (reachable_perform _ _ _ fun _ _ => trivial).trans
      (reachable_perform _ _ _ fun _ _ => trivial)
  refine h _ _ _ diallingNode dialledNode timedOutNode 0 0 a b hx hb hphase
    (step?_eq_some_runTasks hstep) hn ha hfinished hfailed hbegan lateNode _ hm
      (step?_eq_some_runTasks hlate) (.announces .added ?_)
  rw [hpeer, hfeed]

end Node

end PeerProbe
