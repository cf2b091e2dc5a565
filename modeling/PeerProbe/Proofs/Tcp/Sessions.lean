import PeerProbe.Proofs.Node.Run
import PeerProbe.Proofs.Tcp.Table

/-!
# Sessions and the table

A stop empties the table and ends the session, but an exchange of identities that is under way
looks at neither: it goes on and registers when it is done, whatever has become of its session.
While the transport is stopped such a registration leaves a slot in a table that should have none,
and the next start finds it there; behind another start it puts a connection into the table that
was cancelled before.

This is the only way. As long as no establishment registers behind the end of its session the table
is empty whenever the transport is stopped, everything in it belongs to the current session, and a
dial to a peer that has not connected since the start begins an establishment.
-/

namespace PeerProbe

namespace Tcp

open Transport (Change)

variable {t t' : Tcp} {id : NodeId} {g : ConnId} {config : TcpConfig} {own : NodeId}
  {bound : Except String Endpoint}

/-- A connection is registered while the transport does not run. -/
def RegistersStopped (t t' : Tcp) : Prop :=
  t.isRunning = false ∧ ∃ peer g session, t.Registers peer g session t'

/-- A connection is registered whose session is not the current one. -/
def RegistersLate (t t' : Tcp) : Prop :=
  ∃ peer g session, t.Registers peer g session t' ∧ t.current ≠ some session

/-- A table without entries is empty. -/
theorem slots_eq_nil_of_occupant? (h : ∀ id, t.occupant? id = none) : t.slots = [] :=
  slots_eq_nil_iff.mpr fun id => occupant?_eq_none_iff.mp (h id)

theorem occupant?_of_slots_eq_nil (h : t.slots = []) (id : NodeId) : t.occupant? id = none :=
  occupant?_eq_none_iff.mpr (slots_eq_nil_iff.mp h id)

/-- A registration leaves a slot. -/
theorem Registers.slots_ne_nil {peer : PeerRef} {session : Nat}
    (h : t.Registers peer g session t') : t'.slots ≠ [] := by
  obtain ⟨i, -, hentry, -⟩ := h.spec
  intro hnil
  have hslot := hentry peer.id
  rw [occupant?_of_slots_eq_nil hnil, if_pos rfl] at hslot
  cases hslot

theorem isRunning_eq_false_iff : t.isRunning = false ↔ t.current = none := by
  rw [isRunning, Option.isSome_eq_false_iff, Option.isNone_iff_eq_none]

/-! ## Since the last start -/

/-- The connection of a peer was registered, and the transport has been running ever since. -/
def RegisteredSince (r : Run Change (create config own bound)) (m : Nat) (peer : PeerRef)
    (g : ConnId) : Prop :=
  ∃ j < m, (∃ session, (r.state j).Registers peer g session (r.state (j + 1))) ∧
    ∀ i, j ≤ i → i ≤ m → (r.state i).isRunning = true

/-- The table is empty while the transport is stopped, and has only been filled since the start. -/
structure FreshAt (r : Run Change (create config own bound)) (m : Nat) : Prop where
  stopped : (r.state m).isRunning = false → (r.state m).slots = []
  started : ∀ id s, (r.state m).slot? id = some s → RegisteredSince r m s.peer s.generation

variable {r : Run Change (create config own bound)} {m : Nat}

/-- What was registered since the start still is, if the transport still runs. -/
theorem RegisteredSince.succ {peer : PeerRef} (h : RegisteredSince r m peer g)
    (hrunning : (r.state (m + 1)).isRunning = true) : RegisteredSince r (m + 1) peer g := by
  obtain ⟨j, hj, hregisters, hsince⟩ := h
  refine ⟨j, Nat.lt_succ_of_lt hj, hregisters, fun i hi him => ?_⟩
  obtain h | rfl := Nat.le_succ_iff.mp him
  · exact hsince i hi h
  · exact hrunning

/-- A fresh table in terms of its entries. -/
theorem freshAt_iff : FreshAt r m ↔
    ((r.state m).isRunning = false → ∀ id, (r.state m).occupant? id = none) ∧
      ∀ id peer g, (r.state m).occupant? id = some (peer, g) → RegisteredSince r m peer g := by
  constructor
  · intro h
    refine ⟨fun hstopped => occupant?_of_slots_eq_nil (h.stopped hstopped), fun id peer g he => ?_⟩
    obtain ⟨s, hs, heq⟩ := Option.map_eq_some_iff.mp he
    cases heq
    exact h.started id s hs
  · rintro ⟨hstopped, hstarted⟩
    exact ⟨fun h => slots_eq_nil_of_occupant? (hstopped h),
      fun id s hs => hstarted id _ _ (occupant?_of_slot? hs)⟩

/-- Entries that were there before are as fresh as before, if the transport still runs, and there
are none while it is stopped. -/
theorem FreshAt.of_old (h : FreshAt r m)
    (hold : ∀ id p, (r.state (m + 1)).occupant? id = some p → (r.state m).occupant? id = some p)
    (hcurrent : (r.state (m + 1)).current = (r.state m).current) : FreshAt r (m + 1) := by
  obtain ⟨hstopped, hstarted⟩ := freshAt_iff.mp h
  have hrunning : (r.state (m + 1)).isRunning = (r.state m).isRunning := by
    rw [isRunning, isRunning, hcurrent]
  refine freshAt_iff.mpr ⟨fun hoff id => ?_, fun id peer g he => ?_⟩
  · have hnone := hstopped (hrunning ▸ hoff) id
    cases he : (r.state (m + 1)).occupant? id with
    | none => rfl
    | some p => exact nomatch hnone.symm.trans (hold id p he)
  · refine (hstarted id peer g (hold id _ he)).succ ?_
    cases hon : (r.state (m + 1)).isRunning with
    | true => rfl
    | false => exact nomatch (hstopped (hrunning ▸ hon) id).symm.trans (hold id _ he)

/-- Every turn but a registration in a stopped transport leaves a fresh table. -/
theorem FreshAt.succ (h : FreshAt r m)
    (hon : ¬ (r.state m).RegistersStopped (r.state (m + 1))) : FreshAt r (m + 1) := by
  cases turn_of_run r m with
  | quiet hq => exact h.of_old (fun id p he => hq.entry id ▸ he) hq.current
  | numbered _ hentry hcurrent => exact h.of_old (fun id p he => hentry id ▸ he) hcurrent
  | released hr =>
    refine h.of_old (fun id p he => ?_) hr.current
    rw [hr.entry] at he
    split at he
    · cases he
    · exact he
  | started hstopped _ hentry =>
    have hnone := (freshAt_iff.mp h).1 (isRunning_eq_false_iff.mpr hstopped)
    refine freshAt_iff.mpr ⟨fun _ id => (hentry id).trans (hnone id), fun id peer g he => ?_⟩
    exact nomatch (hentry id ▸ hnone id).symm.trans he
  | stopped _ hentry =>
    exact freshAt_iff.mpr ⟨fun _ => hentry, fun id peer g he => nomatch (hentry id).symm.trans he⟩
  | @registered i peer g session hregisters hown hentry hcurrent =>
    have hrunning : (r.state m).isRunning = true := by
      cases hoff : (r.state m).isRunning with
      | true => rfl
      | false => exact absurd ⟨hoff, ⟨peer, g, session, hregisters⟩⟩ hon
    have hrunning' : (r.state (m + 1)).isRunning = true := by rwa [isRunning, hcurrent]
    refine freshAt_iff.mpr ⟨fun hoff => absurd (hrunning'.symm.trans hoff) (by decide),
      fun id p g' he => ?_⟩
    rw [hentry] at he
    split at he
    · cases he
      refine ⟨m, Nat.lt_succ_self m, ⟨session, hregisters⟩, fun i hi him => ?_⟩
      obtain rfl | rfl : i = m ∨ i = m + 1 := by omega
      · exact hrunning
      · exact hrunning'
    · exact ((freshAt_iff.mp h).2 id p g' he).succ hrunning'

theorem freshAt_zero : FreshAt r 0 := by
  refine freshAt_iff.mpr ⟨fun _ id => ?_, fun id peer g he => ?_⟩
  · rw [r.state_zero]
    rfl
  · rw [r.state_zero] at he
    cases he

/-- The table is fresh up to some time exactly if nothing was registered in a stopped transport
before. -/
theorem freshAt_upto_iff :
    (∀ k ≤ m, FreshAt r k) ↔ ∀ j < m, ¬ (r.state j).RegistersStopped (r.state (j + 1)) := by
  constructor
  · rintro h j hj ⟨hstopped, peer, g, session, hregisters⟩
    obtain ⟨i, -, -, hcurrent, -⟩ := hregisters.spec
    have hstopped' : (r.state (j + 1)).isRunning = false := by rwa [isRunning, hcurrent]
    exact hregisters.slots_ne_nil ((h (j + 1) hj).stopped hstopped')
  · intro h k hk
    induction k with
    | zero => exact freshAt_zero
    | succ k ih => exact (ih (Nat.le_of_succ_le hk)).succ (h k hk)

/-! ## The current session -/

/-- The table is empty while the transport is stopped, and every connection in it is one of the
current session. -/
structure AllCurrent (t : Tcp) : Prop where
  stopped : t.isRunning = false → t.slots = []
  running : ∀ id s, t.slot? id = some s →
    ∃ c, t.conns[s.generation]? = some c ∧ t.current = some c.session

/-- What there is in a table of the current session, in terms of its entries. -/
theorem allCurrent_iff : t.AllCurrent ↔ ∀ id peer g, t.occupant? id = some (peer, g) →
    ∃ c, t.conns[g]? = some c ∧ t.current = some c.session := by
  constructor
  · intro h id peer g he
    obtain ⟨s, hs, heq⟩ := Option.map_eq_some_iff.mp he
    cases heq
    exact h.running id s hs
  · intro h
    refine ⟨fun hstopped => slots_eq_nil_of_occupant? fun id => ?_,
      fun id s hs => h id _ _ (occupant?_of_slot? hs)⟩
    cases he : t.occupant? id with
    | none => rfl
    | some p =>
      obtain ⟨c, -, hcurrent⟩ := h id p.1 p.2 he
      exact nomatch (isRunning_eq_false_iff.mp hstopped).symm.trans hcurrent

/-- Every turn but a registration behind the end of the session keeps the table to the current
session. -/
theorem AllCurrent.turn (hsound : t.Sound) (h : t.AllCurrent) (hturn : t.Turn t')
    (hlate : ¬ t.RegistersLate t') : t'.AllCurrent := by
  have hold {id : NodeId} {peer : PeerRef} {g : ConnId} (hcurrent : t'.current = t.current)
      (he : t.occupant? id = some (peer, g)) :
      ∃ c, t'.conns[g]? = some c ∧ t'.current = some c.session := by
    obtain ⟨c, hc, hsession⟩ := allCurrent_iff.mp h id peer g he
    obtain ⟨c', hc', hkeeps⟩ := hturn.connsKept g c hc
    exact ⟨c', hc', by rw [hcurrent, hkeeps.session, hsession]⟩
  refine allCurrent_iff.mpr fun id peer g he => ?_
  cases hturn with
  | quiet hq => exact hold hq.current (hq.entry id ▸ he)
  | numbered _ hentry hcurrent => exact hold hcurrent (hentry id ▸ he)
  | released hr =>
    rw [hr.entry] at he
    split at he
    · cases he
    · exact hold hr.current he
  | started hstopped _ hentry =>
    have hnone := occupant?_of_slots_eq_nil (h.stopped (isRunning_eq_false_iff.mpr hstopped)) id
    exact nomatch hnone.symm.trans ((hentry id).symm.trans he)
  | stopped _ hentry => exact nomatch (hentry id).symm.trans he
  | @registered i peer' g' session hregisters hown hentry hcurrent hconns =>
    rw [hentry] at he
    split at he
    · cases he
      obtain ⟨c, hc, -, rfl⟩ := hsound.pending i _ _ session hown
      obtain ⟨c', hc', hkeeps⟩ := hconns _ c hc
      refine ⟨c', hc', ?_⟩
      rw [hcurrent, hkeeps.session]
      exact Classical.not_not.mp fun hne => hlate ⟨_, _, _, hregisters, hne⟩
    · exact hold hcurrent he

/-- A registration behind the end of the session leaves a slot of another one. -/
theorem RegistersLate.not_allCurrent (hsound : t.Sound) (h : t.RegistersLate t') :
    ¬ t'.AllCurrent := by
  obtain ⟨peer, g, session, hregisters, hne⟩ := h
  obtain ⟨i, hown, hentry, hcurrent, hconns, -⟩ := hregisters.spec
  obtain ⟨c, hc, -, rfl⟩ := hsound.pending i peer g session hown
  obtain ⟨c', hc', hkeeps⟩ := hconns g c hc
  intro hall
  obtain ⟨d, hd, hsession⟩ := allCurrent_iff.mp hall peer.id peer g (by rw [hentry, if_pos rfl])
  obtain rfl := Option.some.inj (hc'.symm.trans hd)
  exact hne (by rw [← hcurrent, hsession, hkeeps.session])

theorem allCurrent_zero : (r.state 0).AllCurrent := by
  refine allCurrent_iff.mpr fun id peer g he => ?_
  rw [r.state_zero] at he
  cases he

/-- The table keeps to the current session up to some time exactly if no establishment has
registered behind the end of its own before. -/
theorem allCurrent_upto_iff :
    (∀ k ≤ m, (r.state k).AllCurrent) ↔
      ∀ j < m, ¬ (r.state j).RegistersLate (r.state (j + 1)) := by
  constructor
  · exact fun h j hj hlate => hlate.not_allCurrent (sound_of_run r j) (h (j + 1) hj)
  · intro h k hk
    induction k with
    | zero => exact allCurrent_zero
    | succ k ih =>
      exact (ih (Nat.le_of_succ_le hk)).turn (sound_of_run r k) (turn_of_run r k) (h k hk)

/-! ## Runs -/

/-- A dial to a peer without a slot begins an establishment. -/
theorem dial_eq_beginEstablishing {session now : Nat} {p : PeerRef}
    (hcurrent : t.current = some session) (hslot : t.slot? p.id = none) :
    t.dial now p = t.beginEstablishing (some p) p.tcpEndpoint session := by
  simp [dial, hcurrent, hslot]

/-- How a run treats the table over stops and starts. Exactly as long as nothing registers in a
stopped transport the table is empty whenever it is stopped and has only been filled since the
start; exactly as long as nothing registers behind the end of its session all of it belongs to the
current session; and as long a dial to a peer that has not connected since the start begins an
establishment. -/
structure TableKept (r : Run Change (create config own bound)) : Prop where
  fresh (m : Nat) : (∀ k ≤ m, FreshAt r k) ↔
    ∀ j < m, ¬ (r.state j).RegistersStopped (r.state (j + 1))
  current (m : Nat) : (∀ k ≤ m, (r.state k).AllCurrent) ↔
    ∀ j < m, ¬ (r.state j).RegistersLate (r.state (j + 1))
  dials (m now session : Nat) (p : PeerRef) :
    (∀ j < m, ¬ (r.state j).RegistersStopped (r.state (j + 1))) →
      (r.state m).current = some session →
        (∀ peer g, peer.id = p.id → ¬ RegisteredSince r m peer g) →
          (r.state m).dial now p =
            (r.state m).beginEstablishing (some p) p.tcpEndpoint session

/-- Every run treats the table so. -/
theorem tableKept_of_run (r : Run Change (create config own bound)) : TableKept r where
  fresh _ := freshAt_upto_iff
  current _ := allCurrent_upto_iff
  dials m now session p hon hcurrent hsince := by
    refine dial_eq_beginEstablishing hcurrent ?_
    have hfresh := freshAt_upto_iff.mpr hon m (Nat.le_refl m)
    cases hslot : (r.state m).slot? p.id with
    | none => rfl
    | some s =>
      have hid := ((sound_of_run r m).entry p.id _ _ (occupant?_of_slot? hslot)).1
      exact absurd (hfresh.started p.id s hslot) (hsince s.peer s.generation hid)

/-! ## An exchange that outlives its session -/

/-- A transport that was never started. -/
def idleTcp : Tcp :=
  create ⟨"127.0.0.1:0", none, defaultNodeName, 1024, .ofMillis 5000⟩ Node.ownRef.id
    (.ok Node.ownRef.tcpEndpoint)

/-- The first establishment goes on, if it can. -/
def goOn (t : Tcp) : Tcp := (Transport.background 0 0 t).getD t

theorem change_goOn (t : Tcp) : Change t t.goOn ∨ t.goOn = t := by
  rw [goOn]
  cases h : Transport.background 0 0 t with
  | none => exact .inr rfl
  | some t' => exact .inl (.use (.background h))

/-- A dial comes as far as the exchange of identities, the transport is stopped, the peer answers,
and the transport is started again. -/
def slowExchange : List (Tcp → Tcp) :=
  [fun t => (Transport.start t).2, Transport.dial 0 Node.guestRef, goOn,
    Transport.move 0 (Move.connect 0), goOn, Transport.stop,
    Transport.move 0 (Move.deliver 0 Node.guestRef.id.bytes), goOn, goOn, goOn,
    fun t => (Transport.start t).2]

/-- The run in which that happens. -/
def slowRun : Run Change idleTcp :=
  .perform slowExchange (by
    simp only [slowExchange, List.forall_mem_cons, List.not_mem_nil, false_implies, implies_true,
      and_true]
    exact ⟨fun _ => .inl .start, fun _ => .inl (.use (.dial 0 _)), change_goOn,
      fun _ => .inl (.use (.move 0 _)), change_goOn, fun _ => .inl .stop,
      fun _ => .inl (.use (.move 0 _)), change_goOn, change_goOn, change_goOn,
      fun _ => .inl .start⟩) idleTcp

set_option maxRecDepth 4000 in
/-- Before it is started again the transport is stopped with a slot in its table, and afterwards a
dial to the peer begins nothing. -/
theorem facts_slowRun :
    (slowRun.state 10).isRunning = false ∧ (slowRun.state 10).slots.length = 1 ∧
      (slowRun.state 11).current = some 1 ∧
      ((slowRun.state 11).dial 0 Node.guestRef).tasks.length = (slowRun.state 11).tasks.length := by
  refine ⟨?_, ?_, ?_, ?_⟩ <;> decide +kernel

/-- A stopped transport may have a peer in its table, and a dial to a peer that has not connected
since the start may begin nothing. -/
theorem not_empty_of_slowRun :
    (¬ ∀ (config : TcpConfig) (own : NodeId) (bound : Except String Endpoint)
        (r : Run Change (create config own bound)) (m : Nat),
          (r.state m).isRunning = false → (r.state m).slots = []) ∧
      ¬ ∀ (config : TcpConfig) (own : NodeId) (bound : Except String Endpoint)
        (r : Run Change (create config own bound)) (m now session : Nat) (p : PeerRef),
          (r.state m).current = some session →
            (∀ peer g, peer.id = p.id → ¬ RegisteredSince r m peer g) →
              (r.state m).dial now p =
                (r.state m).beginEstablishing (some p) p.tcpEndpoint session := by
  obtain ⟨hstopped, hslots, hcurrent, hdial⟩ := facts_slowRun
  constructor
  · intro h
    have hnil := h _ _ _ slowRun 10 hstopped
    rw [hnil] at hslots
    cases hslots
  · intro h
    have hbegins := h _ _ _ slowRun 11 0 1 Node.guestRef hcurrent ?_
    · rw [hbegins] at hdial
      simp [beginEstablishing] at hdial
    · rintro peer g - ⟨j, hj, -, hsince⟩
      have hrunning := hsince 10 (Nat.lt_succ_iff.mp hj) (by decide)
      rw [hstopped] at hrunning
      cases hrunning

end Tcp

end PeerProbe
