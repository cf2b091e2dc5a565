import PeerProbe.Proofs.Run
import PeerProbe.Proofs.Transport.Uses
import PeerProbe.Tcp.Basic

/-!
# The table of a transport over TCP

The table says for every identity which connection is the current one. An establishment gets its
generation first and registers in a step of its own, so between the two a generation is pending:
its connection is there and the table does not know it yet. A generation is pending for one
establishment only, and once it is registered, or its slot is gone, it never comes back.

All that is ever done to the transport is one of a few turns as far as the table is concerned, and
everything else is read off them.
-/

namespace PeerProbe

/-- One thing that is done to a transport. -/
inductive Transport.Change {σ : Type} [Transport σ] (t : σ) : σ → Prop where
  | start : Transport.Change t (Transport.start t).2
  | stop : Transport.Change t (Transport.stop t)
  | use {t' : σ} (h : Transport.Use t t') : Transport.Change t t'

/-- What stays of a connection: its peer, its session, and that it is cancelled. -/
structure TcpConn.Keeps (c c' : TcpConn) : Prop where
  peer : c'.peer = c.peer
  session : c'.session = c.session
  cancelled : c.cancelled = true → c'.cancelled = true

theorem TcpConn.Keeps.refl (c : TcpConn) : c.Keeps c := ⟨rfl, rfl, id⟩

theorem TcpConn.Keeps.trans {c c' c'' : TcpConn} (h : c.Keeps c') (h' : c'.Keeps c'') :
    c.Keeps c'' :=
  ⟨h'.peer.trans h.peer, h'.session.trans h.session, h'.cancelled ∘ h.cancelled⟩

namespace Tcp

variable {t t' t'' : Tcp} {id : NodeId} {s : PeerSlot} {g : ConnId}

/-! ## Slots -/

/-- A filtered table has the slots that are left. -/
theorem lookup_filter_ne (slots : List (NodeId × PeerSlot)) (id id' : NodeId) :
    (slots.filter (·.1 ≠ id)).lookup id' = if id' = id then none else slots.lookup id' := by
  induction slots with
  | nil => simp
  | cons entry rest ih =>
    obtain ⟨key, s⟩ := entry
    rw [List.filter_cons]
    by_cases hkey : key = id
    · subst hkey
      simp only [ne_eq, not_true_eq_false, decide_false, Bool.false_eq_true, if_false, ih]
      split
      next => rfl
      next hne => rw [List.lookup_cons, beq_false_of_ne hne]
    · simp only [ne_eq, hkey, not_false_eq_true, decide_true, if_true, List.lookup_cons, ih]
      by_cases hid : id' = key
      · subst hid
        simp [hkey]
      · rw [beq_false_of_ne hid]

@[simp] theorem slot?_withoutSlot (t : Tcp) (id id' : NodeId) :
    (t.withoutSlot id).slot? id' = if id' = id then none else t.slot? id' :=
  lookup_filter_ne t.slots id id'

@[simp] theorem slot?_withSlot (t : Tcp) (id id' : NodeId) (s : PeerSlot) :
    (t.withSlot id s).slot? id' = if id' = id then some s else t.slot? id' := by
  rw [slot?, withSlot, List.lookup_append, lookup_filter_ne]
  by_cases hid : id' = id
  · simp [hid]
  · simp [hid, slot?, List.lookup_cons, beq_false_of_ne hid]

/-- A table without any slot is empty. -/
theorem slots_eq_nil_iff : t.slots = [] ↔ ∀ id, t.slot? id = none := by
  refine ⟨fun h id => by rw [slot?, h]; rfl, fun h => ?_⟩
  cases hslots : t.slots with
  | nil => rfl
  | cons entry rest =>
    have hnone := h entry.1
    rw [slot?, hslots, List.lookup_cons, beq_self_eq_true] at hnone
    cases hnone

/-- The peer and the generation that the table holds for an identity. -/
def occupant? (t : Tcp) (id : NodeId) : Option (PeerRef × ConnId) :=
  (t.slot? id).map fun s => (s.peer, s.generation)

theorem occupant?_of_slot? (h : t.slot? id = some s) :
    t.occupant? id = some (s.peer, s.generation) := by
  rw [occupant?, h, Option.map_some]

theorem occupant?_eq_none_iff : t.occupant? id = none ↔ t.slot? id = none := Option.map_eq_none_iff

/-! ## Connections and establishments -/

/-- The connections stay, with what stays of each. -/
def ConnsKept (t t' : Tcp) : Prop :=
  ∀ (g : ConnId) (c : TcpConn), t.conns[g]? = some c → ∃ c', t'.conns[g]? = some c' ∧ c.Keeps c'

theorem connsKept_of_eq (h : t'.conns = t.conns) : t.ConnsKept t' :=
  fun _ c hc => ⟨c, h ▸ hc, .refl c⟩

theorem ConnsKept.trans (h : t.ConnsKept t') (h' : t'.ConnsKept t'') : t.ConnsKept t'' := by
  intro g c hc
  obtain ⟨c', hc', hkeeps⟩ := h g c hc
  obtain ⟨c'', hc'', hkeeps'⟩ := h' g c' hc'
  exact ⟨c'', hc'', hkeeps.trans hkeeps'⟩

/-- A generation that was given stays given. -/
theorem ConnsKept.lt_length (h : t.ConnsKept t') (hg : g < t.conns.length) :
    g < t'.conns.length := by
  obtain ⟨c', hc', -⟩ := h g _ (List.getElem?_eq_getElem hg)
  exact (List.getElem?_eq_some_iff.mp hc').1

/-- To cancel a connection is all that is done to it. -/
theorem connsKept_cancel (t : Tcp) (g : ConnId) : t.ConnsKept (t.cancel g) := by
  intro g' c hc
  by_cases hg : g = g'
  · subst hg
    refine ⟨{ c with cancelled := true }, ?_, rfl, rfl, fun _ => rfl⟩
    simp [cancel, hc]
  · exact ⟨c, (List.getElem?_modify_ne _ _ hg).trans hc, .refl c⟩

/-- An establishment has its generation and has not registered yet. -/
def Pending (t : Tcp) (i : Nat) (peer : PeerRef) (g : ConnId) (session : Nat) : Prop :=
  ∃ e, t.tasks[i]? = some e ∧ e.phase = .numbered peer g ∧ e.session = session

/-- No generation becomes pending. -/
def NonePending (t t' : Tcp) : Prop :=
  ∀ i peer g session, t'.Pending i peer g session → t.Pending i peer g session

theorem nonePending_of_eq (h : t'.tasks = t.tasks) : t.NonePending t' :=
  fun _ _ _ _ ⟨e, he, hphase⟩ => ⟨e, h ▸ he, hphase⟩

/-- An establishment that goes on is pending only if it goes on to that. -/
theorem pending_setPhase {i j : Nat} {e : Establishment} {p : EstablishPhase} {peer : PeerRef}
    {session : Nat} (he : t.tasks[i]? = some e) (h : (t.setPhase i p).Pending j peer g session) :
    (j ≠ i ∧ t.Pending j peer g session) ∨
      (j = i ∧ p = .numbered peer g ∧ e.session = session) := by
  obtain ⟨e', he', hphase, hsession⟩ := h
  by_cases hji : j = i
  · subst hji
    have heq : { e with phase := p } = e' := by simpa [setPhase, he] using he'
    subst heq
    exact .inr ⟨rfl, hphase, hsession⟩
  · exact .inl ⟨hji, e', (List.getElem?_modify_ne _ _ (Ne.symm hji)).symm.trans he', hphase,
      hsession⟩

/-! ## Turns -/

/-- Nothing happens in the table. -/
structure Quiet (t t' : Tcp) : Prop where
  current : t'.current = t.current
  entry : ∀ id, t'.occupant? id = t.occupant? id
  conns : t.ConnsKept t'
  pending : t.NonePending t'

theorem Quiet.trans (h : t.Quiet t') (h' : t'.Quiet t'') : t.Quiet t'' :=
  ⟨h'.current.trans h.current, fun id => (h'.entry id).trans (h.entry id), h.conns.trans h'.conns,
    fun i p g s hp => h.pending i p g s (h'.pending i p g s hp)⟩

/-- What touches none of this is quiet. -/
theorem quiet_of_eq (hcurrent : t'.current = t.current) (hslots : t'.slots = t.slots)
    (hconns : t'.conns = t.conns) (htasks : t'.tasks = t.tasks) : t.Quiet t' :=
  ⟨hcurrent, fun id => by rw [occupant?, slot?, hslots]; rfl, connsKept_of_eq hconns,
    nonePending_of_eq htasks⟩

/-- A slot is given up, and nothing else happens in the table. -/
structure Released (t : Tcp) (id : NodeId) (s : PeerSlot) (t' : Tcp) : Prop where
  slot : t.slot? id = some s
  entry : ∀ id', t'.occupant? id' = if id' = id then none else t.occupant? id'
  current : t'.current = t.current
  conns : t.ConnsKept t'
  pending : t.NonePending t'

/-- An establishment registers the connection of its generation. -/
inductive Registers (t : Tcp) (peer : PeerRef) (g : ConnId) (session : Nat) : Tcp → Prop where
  | intro {i : Nat} {e : Establishment} (he : t.tasks[i]? = some e)
      (hphase : e.phase = .numbered peer g) (hsession : e.session = session) :
      Registers t peer g session ((t.setPhase i (.registered peer)).register peer g)

/-- What anything that is done to the transport comes to in the table. -/
inductive Turn (t t' : Tcp) : Prop where
  | quiet (h : t.Quiet t')
  | released {id : NodeId} {s : PeerSlot} (h : t.Released id s t')
  | numbered {i : Nat} {c : TcpConn} (hconns : t'.conns = t.conns ++ [c])
      (hentry : ∀ id, t'.occupant? id = t.occupant? id) (hcurrent : t'.current = t.current)
      (hpending : ∀ j peer g session, t'.Pending j peer g session →
        t.Pending j peer g session ∨
          (j = i ∧ peer = c.peer ∧ g = t.conns.length ∧ session = c.session))
  | registered {i : Nat} {peer : PeerRef} {g : ConnId} {session : Nat}
      (hregisters : t.Registers peer g session t') (hown : t.Pending i peer g session)
      (hentry : ∀ id, t'.occupant? id = if id = peer.id then some (peer, g) else t.occupant? id)
      (hcurrent : t'.current = t.current) (hconns : t.ConnsKept t')
      (hpending : ∀ j peer g session, t'.Pending j peer g session →
        j ≠ i ∧ t.Pending j peer g session)
  | started {session : Nat} (hstopped : t.current = none) (hcurrent : t'.current = some session)
      (hentry : ∀ id, t'.occupant? id = t.occupant? id) (hconns : t.ConnsKept t')
      (hpending : t.NonePending t')
  | stopped (hcurrent : t'.current = none) (hentry : ∀ id, t'.occupant? id = none)
      (hconns : t.ConnsKept t') (hpending : t.NonePending t')

/-- What a turn does to the connections is never more than to cancel some and to add one. -/
theorem Turn.connsKept (h : t.Turn t') : t.ConnsKept t' := by
  cases h with
  | quiet h => exact h.conns
  | released h => exact h.conns
  | numbered hconns =>
    intro g c hc
    exact ⟨c, by rw [hconns, List.getElem?_append_left (List.getElem?_eq_some_iff.mp hc).1, hc],
      .refl c⟩
  | registered _ _ _ _ hconns => exact hconns
  | started _ _ _ hconns => exact hconns
  | stopped _ _ hconns => exact hconns

/-! ## What comes to which turn -/

/-- A slot at most is given up. -/
def Gives (t t' : Tcp) : Prop := t.Quiet t' ∨ ∃ id s, t.Released id s t'

theorem Gives.turn (h : t.Gives t') : t.Turn t' := by
  obtain h | ⟨id, s, h⟩ := h
  · exact .quiet h
  · exact .released h

/-- A slot at most is given up behind a change that leaves all slots alone. -/
theorem Gives.behind (h : t'.Gives t'') (hcurrent : t'.current = t.current)
    (hslots : t'.slots = t.slots) (hconns : t.ConnsKept t') (htasks : t'.tasks = t.tasks) :
    t.Gives t'' := by
  have hq : t.Quiet t' := ⟨hcurrent, fun id => by rw [occupant?, slot?, hslots]; rfl, hconns,
    nonePending_of_eq htasks⟩
  obtain h | ⟨id, s, h⟩ := h
  · exact .inl (hq.trans h)
  · refine .inr ⟨id, s, ?_, fun id' => ?_, h.current.trans hcurrent, hconns.trans h.conns,
      fun i p g s hp => hq.pending i p g s (h.pending i p g s hp)⟩
    · rw [← h.slot, slot?, slot?, hslots]
    · rw [h.entry, hq.entry]

theorem gives_releaseSlot (t : Tcp) (id : NodeId) (g : ConnId) : t.Gives (t.releaseSlot id g) := by
  unfold releaseSlot
  split
  next s hslot =>
    split
    · refine .inr ⟨id, s, hslot, fun id' => ?_, rfl, connsKept_cancel t g, nonePending_of_eq rfl⟩
      change ((t.withoutSlot id).slot? id').map _ = _
      rw [slot?_withoutSlot]
      split <;> rfl
    · exact .inl (quiet_of_eq rfl rfl rfl rfl)
  next => exact .inl (quiet_of_eq rfl rfl rfl rfl)

theorem gives_release (g : ConnId) (t : Tcp) : t.Gives (t.release g) := by
  unfold release
  split
  · exact (gives_releaseSlot _ _ _).behind rfl rfl (connsKept_cancel t g) rfl
  · exact .inl (quiet_of_eq rfl rfl rfl rfl)

theorem gives_remove (p : PeerRef) (t : Tcp) : t.Gives (t.remove p) := by
  unfold remove
  split
  · exact gives_releaseSlot _ _ _
  · exact .inl (quiet_of_eq rfl rfl rfl rfl)

theorem quiet_take (p : PeerRef) (t : Tcp) : t.Quiet (t.take p).2 := by
  unfold take
  split
  next s hslot =>
    split
    · exact quiet_of_eq rfl rfl rfl rfl
    · refine ⟨rfl, fun id => ?_, connsKept_of_eq rfl, nonePending_of_eq rfl⟩
      rw [occupant?, slot?_withSlot]
      split
      next hid => rw [hid, occupant?_of_slot? hslot]; rfl
      next => rfl
  next => exact quiet_of_eq rfl rfl rfl rfl

/-- A read that comes to an item or a step ahead gives up the slot of its connection at most. -/
theorem gives_read {now : Nat} {taken : List UInt8}
    (h : (∃ item, t.read now g taken = .ready item t') ∨
      ∃ taken', t.read now g taken = .ahead taken' t') : t.Gives t' := by
  unfold read at h
  split at h
  · simp at h
  next c hc =>
    split at h
    · simp only [ReadPoll.ready.injEq, reduceCtorEq, exists_false, or_false] at h
      obtain ⟨item, -, rfl⟩ := h
      exact gives_release g t
    · split at h
      next =>
        simp only [ReadPoll.ready.injEq, reduceCtorEq, exists_false, or_false] at h
        obtain ⟨item, -, rfl⟩ := h
        exact .inl (quiet_of_eq rfl rfl rfl rfl)
      next =>
        simp only [ReadPoll.ready.injEq, reduceCtorEq, exists_false, or_false] at h
        obtain ⟨item, -, rfl⟩ := h
        exact (gives_release g _).behind rfl rfl (connsKept_of_eq rfl) rfl
      next =>
        simp only [ReadPoll.ahead.injEq, reduceCtorEq, exists_false, false_or] at h
        obtain ⟨taken', -, rfl⟩ := h
        exact .inl (quiet_of_eq rfl rfl rfl rfl)
      next => simp at h

theorem quiet_send {now : Nat} {code : UInt64} {payload : List UInt8}
    {r : Except TransportError Unit} (h : t.send now g code payload = some (r, t')) :
    t.Quiet t' := by
  obtain ⟨c, -, hc⟩ := Option.map_eq_some_iff.mp h
  split at hc <;> cases hc <;> exact quiet_of_eq rfl rfl rfl rfl

/-! ### Establishments -/

/-- An establishment that goes on to anything but its generation is quiet. -/
theorem quiet_setPhase {i : Nat} {e : Establishment} {p : EstablishPhase}
    (he : t.tasks[i]? = some e) (hp : ∀ peer g, p ≠ .numbered peer g) :
    t.Quiet (t.setPhase i p) := by
  refine ⟨rfl, fun _ => rfl, connsKept_of_eq rfl, fun j peer g session h => ?_⟩
  obtain ⟨-, h⟩ | ⟨-, hphase, -⟩ := pending_setPhase he h
  · exact h
  · exact absurd hphase (hp peer g)

/-- A change of the feed, the streams or the log behind something quiet is quiet. -/
theorem Quiet.before (h : t.Quiet t') (hcurrent : t''.current = t'.current)
    (hslots : t''.slots = t'.slots) (hconns : t''.conns = t'.conns)
    (htasks : t''.tasks = t'.tasks) : t.Quiet t'' :=
  h.trans (quiet_of_eq hcurrent hslots hconns htasks)

theorem quiet_beginExchange {i now : Nat} {e : Establishment} (he : t.tasks[i]? = some e) :
    t.Quiet (t.beginExchange i now e) := by
  unfold beginExchange
  dsimp only
  split
  · exact (quiet_of_eq rfl rfl rfl rfl : t.Quiet (t.setStream e.stream _)).trans
      (quiet_setPhase he (by simp))
  · exact quiet_setPhase he (by simp)

theorem quiet_identify? {e : Establishment} {deadline now : Nat}
    {r : Except TransportError PeerRef × Tcp} (h : t.identify? e deadline now = some r) :
    t.Quiet r.2 ∧ r.2.tasks = t.tasks := by
  unfold identify? at h
  dsimp only at h
  split at h
  · split at h
    · split at h <;> cases h <;> exact ⟨quiet_of_eq rfl rfl rfl rfl, rfl⟩
    · cases h
      exact ⟨quiet_of_eq rfl rfl rfl rfl, rfl⟩
  · split at h
    · cases h
      exact ⟨quiet_of_eq rfl rfl rfl rfl, rfl⟩
    · split at h
      · cases h
        exact ⟨quiet_of_eq rfl rfl rfl rfl, rfl⟩
      · cases h

theorem quiet_failStep {i : Nat} {e : Establishment} (he : t.tasks[i]? = some e)
    (err : TransportError) : t.Quiet (t.failStep i e err) := by
  unfold failStep
  dsimp only
  split <;> exact (quiet_setPhase he (by simp)).before rfl rfl rfl rfl

/-- An establishment gets its generation, the number of its connection. -/
theorem turn_numbered {i : Nat} {e : Establishment} (he : t.tasks[i]? = some e) (peer : PeerRef) :
    t.Turn { t.setPhase i (.numbered peer t.conns.length) with
      conns := t.conns ++ [⟨peer, e.session, false, e.stream⟩] } := by
  refine .numbered (i := i) rfl (fun _ => rfl) rfl fun j peer' g session h => ?_
  obtain ⟨-, h⟩ | ⟨hj, hphase, hsession⟩ := pending_setPhase (t := t) he h
  · exact .inl h
  · cases hphase
    exact .inr ⟨hj, rfl, rfl, hsession.symm⟩

/-- What a registration finds and leaves: the generation was pending and is so no more, and the
table has it for the identity of its peer. -/
theorem Registers.spec {peer : PeerRef} {session : Nat} (h : t.Registers peer g session t') :
    ∃ i, t.Pending i peer g session ∧
      (∀ id, t'.occupant? id = if id = peer.id then some (peer, g) else t.occupant? id) ∧
      t'.current = t.current ∧ t.ConnsKept t' ∧
      ∀ j peer' g' session', t'.Pending j peer' g' session' →
        j ≠ i ∧ t.Pending j peer' g' session' := by
  obtain @⟨i, e, he, hphase, hsession⟩ := h
  have hcases : ∃ t₁, (t.setPhase i (.registered peer)).register peer g = t₁ ∧
      t₁.current = t.current ∧ t₁.tasks = (t.setPhase i (.registered peer)).tasks ∧
      t₁.slots = ((t.setPhase i (.registered peer)).withSlot peer.id ⟨peer, g, false⟩).slots ∧
      t.ConnsKept t₁ := by
    refine ⟨_, rfl, ?_⟩
    unfold register
    dsimp only
    split
    next s _ => exact ⟨rfl, rfl, rfl, connsKept_cancel t s.generation⟩
    next => exact ⟨rfl, rfl, rfl, connsKept_of_eq rfl⟩
  obtain ⟨t₁, hregister, hcurrent, htasks, hslots, hconns⟩ := hcases
  rw [hregister]
  refine ⟨i, ⟨e, he, hphase, hsession⟩, fun id => ?_, hcurrent, hconns, ?_⟩
  · rw [occupant?, slot?, hslots]
    change ((t.setPhase i _).withSlot peer.id _ |>.slot? id).map _ = _
    rw [slot?_withSlot]
    split <;> rfl
  · rintro j peer' g' session' ⟨e', he', hphase', hsession'⟩
    obtain h | ⟨-, hne, -⟩ := pending_setPhase he ⟨e', htasks ▸ he', hphase', hsession'⟩
    · exact h
    · cases hne

/-- An establishment registers. -/
theorem turn_register {i : Nat} {e : Establishment} {peer : PeerRef} (he : t.tasks[i]? = some e)
    (hphase : e.phase = .numbered peer g) :
    t.Turn ((t.setPhase i (.registered peer)).register peer g) := by
  have hregisters := Registers.intro he hphase rfl
  obtain ⟨j, hown, hentry, hcurrent, hconns, hpending⟩ := hregisters.spec
  exact .registered hregisters hown hentry hcurrent hconns hpending

theorem turn_establishStep? {now i : Nat} {e : Establishment} (he : t.tasks[i]? = some e)
    (h : t.establishStep? now i e = some t') : t.Turn t' := by
  unfold establishStep? at h
  split at h
  · split at h
    · cases h
      exact .quiet ((quiet_setPhase he (by simp)).before rfl rfl rfl rfl)
    · cases h
      exact .quiet (quiet_beginExchange he)
  · split at h
    · cases h
      exact .quiet (quiet_setPhase he (by simp))
    · split at h
      · cases h
        exact .quiet (quiet_setPhase he (by simp))
      · cases h
  · cases h
    exact .quiet (quiet_setPhase he (by simp))
  · cases h
    exact .quiet (quiet_beginExchange he)
  · obtain ⟨r, hr, rfl⟩ := Option.map_eq_some_iff.mp h
    obtain ⟨hq, htasks⟩ := quiet_identify? hr
    refine .quiet (hq.trans (quiet_setPhase (htasks ▸ he) fun peer g => ?_))
    split <;> simp
  · cases h
    exact turn_numbered he _
  next hphase =>
    cases h
    exact turn_register he hphase
  · cases h
    exact .quiet ((quiet_setPhase he (by simp)).before rfl rfl rfl rfl)
  · cases h
    exact .quiet (quiet_failStep he _)
  · cases h

theorem quiet_beginEstablishing (t : Tcp) (expected : Option PeerRef) (remote : Endpoint)
    (session : Nat) : t.Quiet (t.beginEstablishing expected remote session) := by
  refine ⟨rfl, fun _ => rfl, connsKept_of_eq rfl, ?_⟩
  rintro i peer g session' ⟨e, he, hphase, hsession⟩
  refine ⟨e, ?_, hphase, hsession⟩
  rw [beginEstablishing, List.getElem?_append] at he
  split at he
  · exact he
  · have := List.mem_singleton.mp (List.mem_of_getElem? he)
    subst this
    cases hphase

theorem quiet_dial (now : Nat) (p : PeerRef) (t : Tcp) : t.Quiet (t.dial now p) := by
  unfold dial
  split
  · exact quiet_of_eq rfl rfl rfl rfl
  · split
    · exact quiet_of_eq rfl rfl rfl rfl
    · exact quiet_beginEstablishing _ _ _ _

theorem quiet_onConnecting {i : Nat} {p : EstablishPhase} (hp : ∀ peer g, p ≠ .numbered peer g) :
    t.Quiet (t.onConnecting i p) := by
  unfold onConnecting
  split
  next e he =>
    split
    · exact quiet_setPhase he hp
    · exact quiet_of_eq rfl rfl rfl rfl
  next => exact quiet_of_eq rfl rfl rfl rfl

/-! ### Everything -/

theorem gives_move (now : Nat) (m : Move) (t : Tcp) : t.Gives (t.move now m) := by
  cases m with
  | connect i => exact .inl (quiet_onConnecting (by simp))
  | refuse i reason => exact .inl (quiet_onConnecting (by simp))
  | arrive session remote =>
    simp only [move, arrive]
    split
    · have hlogged : t.Quiet (t.logged .debug "incoming_connection" (some remote.text) none) :=
        quiet_of_eq rfl rfl rfl rfl
      exact .inl (hlogged.trans (quiet_beginEstablishing _ _ _ _))
    · exact .inl (quiet_of_eq rfl rfl rfl rfl)
  | stopAccepting session =>
    simp only [move, stopAccepting]
    split <;> exact .inl (quiet_of_eq rfl rfl rfl rfl)
  | deliver | finish | breakWrites | bind => exact .inl (quiet_of_eq rfl rfl rfl rfl)
  | dial p => exact .inl (quiet_dial now p t)
  | remove p => exact gives_remove p t
  | take p => exact .inl (quiet_take p t)
  | read g =>
    simp only [move]
    split
    next hread => exact gives_read (.inl ⟨_, hread⟩)
    next hread => exact gives_read (.inr ⟨_, hread⟩)
    next => exact .inl (quiet_of_eq rfl rfl rfl rfl)
  | send g code payload =>
    simp only [move]
    cases hsend : t.send now g code payload with
    | none => exact .inl (quiet_of_eq rfl rfl rfl rfl)
    | some r => exact .inl (quiet_send hsend)
  | release g => exact gives_release g t

theorem turn_start (t : Tcp) : t.Turn t.start.2 := by
  unfold start
  split
  · exact .quiet (quiet_of_eq rfl rfl rfl rfl)
  next hrunning =>
    split
    · exact .quiet (quiet_of_eq rfl rfl rfl rfl)
    · exact .started (Option.not_isSome_iff_eq_none.mp hrunning) rfl (fun _ => rfl)
        (connsKept_of_eq rfl) (nonePending_of_eq rfl)

theorem turn_stop (t : Tcp) : t.Turn t.stop := by
  unfold stop
  split
  · exact .quiet (quiet_of_eq rfl rfl rfl rfl)
  · exact .stopped rfl (fun _ => rfl) (connsKept_of_eq rfl) (nonePending_of_eq rfl)

/-- Whatever is done to the transport is one of the turns. -/
theorem turn_of_change (h : Transport.Change t t') : t.Turn t' := by
  cases h with
  | start => exact turn_start t
  | stop => exact turn_stop t
  | use h =>
    cases h with
    | dial now p => exact .quiet (quiet_dial now p t)
    | remove p => exact (gives_remove p t).turn
    | take p => exact .quiet (quiet_take p t)
    | ready h => exact (gives_read (.inl ⟨_, h⟩)).turn
    | ahead h => exact (gives_read (.inr ⟨_, h⟩)).turn
    | send h => exact .quiet (quiet_send h)
    | release g => exact (gives_release g t).turn
    | withFeed f => exact .quiet (quiet_of_eq rfl rfl rfl rfl)
    | background h =>
      obtain ⟨e, he, hstep⟩ := Option.bind_eq_some_iff.mp h
      exact turn_establishStep? he hstep
    | move now m => exact (gives_move now m t).turn

/-! ## What every run keeps -/

/-- The table is sound: a slot stands under the identity of its peer and has that peer's connection,
and so has a pending generation, which no slot and no other establishment has. -/
structure Sound (t : Tcp) : Prop where
  entry : ∀ id peer g, t.occupant? id = some (peer, g) →
    peer.id = id ∧ ∃ c, t.conns[g]? = some c ∧ c.peer = peer
  pending : ∀ i peer g session, t.Pending i peer g session →
    ∃ c, t.conns[g]? = some c ∧ c.peer = peer ∧ c.session = session
  apart : ∀ i peer g session, t.Pending i peer g session → ∀ id p, t.occupant? id ≠ some (p, g)
  alone : ∀ i j peer peer' g session session', t.Pending i peer g session →
    t.Pending j peer' g session' → i = j

/-- A generation has one slot only. -/
theorem Sound.entry_unique (h : t.Sound) {id id' : NodeId} {p p' : PeerRef}
    (hid : t.occupant? id = some (p, g)) (hid' : t.occupant? id' = some (p', g)) :
    id' = id ∧ p' = p := by
  obtain ⟨rfl, c, hc, rfl⟩ := h.entry id p g hid
  obtain ⟨rfl, c', hc', rfl⟩ := h.entry id' p' g hid'
  obtain rfl := Option.some.inj (hc.symm.trans hc')
  exact ⟨rfl, rfl⟩

theorem sound_create (config : TcpConfig) (id : NodeId) (bound : Except String Endpoint) :
    (create config id bound).Sound where
  entry _ _ _ h := by cases h
  pending := by
    rintro i peer g session ⟨e, he, -⟩
    cases he
  apart := by
    rintro i peer g session ⟨e, he, -⟩
    cases he
  alone := by
    rintro i j peer peer' g session session' ⟨e, he, -⟩
    cases he

/-- Slots that were there and generations that were pending are sound behind a turn. -/
theorem Sound.of_old (h : t.Sound) (hconns : t.ConnsKept t')
    (hentry : ∀ id peer g, t'.occupant? id = some (peer, g) → t.occupant? id = some (peer, g))
    (hpending : t.NonePending t') : t'.Sound where
  entry id peer g he := by
    obtain ⟨hid, c, hc, hpeer⟩ := h.entry id peer g (hentry id peer g he)
    obtain ⟨c', hc', hkeeps⟩ := hconns g c hc
    exact ⟨hid, c', hc', hkeeps.peer.trans hpeer⟩
  pending i peer g session hp := by
    obtain ⟨c, hc, hpeer, hsession⟩ := h.pending i peer g session (hpending _ _ _ _ hp)
    obtain ⟨c', hc', hkeeps⟩ := hconns g c hc
    exact ⟨c', hc', hkeeps.peer.trans hpeer, hkeeps.session.trans hsession⟩
  apart i peer g session hp id p he :=
    h.apart i peer g session (hpending _ _ _ _ hp) id p (hentry id p g he)
  alone i j peer peer' g session session' hi hj :=
    h.alone i j peer peer' g session session' (hpending _ _ _ _ hi) (hpending _ _ _ _ hj)

/-- Every turn leaves the table sound. -/
theorem Sound.turn (h : t.Sound) (hturn : t.Turn t') : t'.Sound := by
  have hkept := hturn.connsKept
  cases hturn with
  | quiet hq => exact h.of_old hq.conns (fun id peer g he => hq.entry id ▸ he) hq.pending
  | @released id s hr =>
    refine h.of_old hr.conns (fun id' peer g he => ?_) hr.pending
    rw [hr.entry] at he
    split at he
    · cases he
    · exact he
  | started _ _ hentry hconns hpending =>
    exact h.of_old hconns (fun id peer g he => hentry id ▸ he) hpending
  | stopped _ hentry hconns hpending =>
    exact h.of_old hconns (fun id peer g he => by rw [hentry] at he; cases he) hpending
  | @numbered i c hconns hentry hcurrent hpending =>
    -- The new generation is the next number, so nothing that was there can have it.
    have hnew : t'.conns[t.conns.length]? = some c := by rw [hconns, List.getElem?_concat_length]
    have hentry_lt {id : NodeId} {p : PeerRef} {g : ConnId} (he : t'.occupant? id = some (p, g)) :
        g < t.conns.length := by
      rw [hentry] at he
      obtain ⟨-, d, hd, -⟩ := h.entry id p g he
      exact (List.getElem?_eq_some_iff.mp hd).1
    have hpending_lt {j : Nat} {p : PeerRef} {g : ConnId} {session : Nat}
        (hp : t.Pending j p g session) : g < t.conns.length := by
      obtain ⟨d, hd, -⟩ := h.pending j p g session hp
      exact (List.getElem?_eq_some_iff.mp hd).1
    refine ⟨fun id peer g he => ?_, fun j peer g session hp => ?_,
      fun j peer g session hp id p he => ?_,
      fun j k peer peer' g session session' hj hk => ?_⟩
    · rw [hentry] at he
      obtain ⟨hid, d, hd, hpeer⟩ := h.entry id peer g he
      obtain ⟨d', hd', hkeeps⟩ := hkept g d hd
      exact ⟨hid, d', hd', hkeeps.peer.trans hpeer⟩
    · obtain hold | ⟨rfl, rfl, rfl, rfl⟩ := hpending j peer g session hp
      · obtain ⟨d, hd, hpeer, hsession⟩ := h.pending j peer g session hold
        obtain ⟨d', hd', hkeeps⟩ := hkept g d hd
        exact ⟨d', hd', hkeeps.peer.trans hpeer, hkeeps.session.trans hsession⟩
      · exact ⟨c, hnew, rfl, rfl⟩
    · obtain hold | ⟨-, -, rfl, -⟩ := hpending j peer g session hp
      · exact h.apart j peer g session hold id p (hentry id ▸ he)
      · exact Nat.lt_irrefl _ (hentry_lt he)
    · obtain hj | ⟨rfl, -, rfl, -⟩ := hpending j peer g session hj
      · obtain hk | ⟨-, -, rfl, -⟩ := hpending k peer' g session' hk
        · exact h.alone j k peer peer' g session session' hj hk
        · exact absurd (hpending_lt hj) (Nat.lt_irrefl _)
      · obtain hk | ⟨hk, -⟩ := hpending k peer' _ session' hk
        · exact absurd (hpending_lt hk) (Nat.lt_irrefl _)
        · exact hk.symm
  | @registered i peer g session _ hown hentry hcurrent hconns hpending =>
    obtain ⟨c, hc, hpeer, hsession⟩ := h.pending i peer g session hown
    refine ⟨fun id p g' he => ?_, fun j p g' s hp => ?_, fun j p g' s hp id p' he => ?_,
      fun j k p p' g' s s' hj hk =>
        h.alone j k p p' g' s s' (hpending _ _ _ _ hj).2 (hpending _ _ _ _ hk).2⟩
    · rw [hentry] at he
      split at he
      next hid =>
        cases he
        obtain ⟨c', hc', hkeeps⟩ := hconns g c hc
        exact ⟨hid.symm, c', hc', hkeeps.peer.trans hpeer⟩
      next =>
        obtain ⟨hid, d, hd, hdpeer⟩ := h.entry id p g' he
        obtain ⟨d', hd', hkeeps⟩ := hconns g' d hd
        exact ⟨hid, d', hd', hkeeps.peer.trans hdpeer⟩
    · obtain ⟨d, hd, hdpeer, hdsession⟩ := h.pending j p g' s (hpending j p g' s hp).2
      obtain ⟨d', hd', hkeeps⟩ := hconns g' d hd
      exact ⟨d', hd', hkeeps.peer.trans hdpeer, hkeeps.session.trans hdsession⟩
    · obtain ⟨hji, hp⟩ := hpending j p g' s hp
      rw [hentry] at he
      split at he
      next =>
        cases he
        exact hji (h.alone j i p peer g s session hp hown)
      next => exact h.apart j p g' s hp id p' he

variable {config : TcpConfig} {own : NodeId} {bound : Except String Endpoint}

/-- Every step of a run is a turn. -/
theorem turn_of_run (r : Run Transport.Change (create config own bound)) (k : Nat) :
    (r.state k).Turn (r.state (k + 1)) := by
  obtain h | h := r.next k
  · exact turn_of_change h
  · rw [h]
    exact .quiet (quiet_of_eq rfl rfl rfl rfl)

/-- The table is sound in every run. -/
theorem sound_of_run (r : Run Transport.Change (create config own bound)) (m : Nat) :
    (r.state m).Sound :=
  r.always (sound_create config own bound) (fun _ _ hstep h => h.turn (turn_of_change hstep)) m

end Tcp

end PeerProbe
