import PeerProbe.Proofs.Node.Calls

/-!
# What a step can reach

A step of a task changes the task itself and the transport. The end of an attempt also frees its
slot, and an attempt may leave a held peer behind.

Most steps of a call are between the call and the service or its transport. Three are not: a claim
takes a slot, a subscription begins an attempt, and a second look that finds the node no longer
running cancels one.
-/

namespace PeerProbe

namespace Node

variable {σ : Type}

/-- Two states of a node with the same slots, attempts, watchers and held peers. -/
structure SameTasks (n n' : Node σ) : Prop where
  slots : n'.slots = n.slots
  attempts : n'.attempts = n.attempts
  watches : n'.watches = n.watches
  held : n'.held = n.held

variable [Transport σ] {n n' : Node σ} {i : Nat}

/-- What a step of a call comes to, seen from the tasks. -/
inductive CallReach (n : Node σ) (i : Nat) : Call → Node σ → Prop where
  | apart {c : Call} {n' : Node σ} (h : n.SameTasks n') : CallReach n i c n'
  | claim (purpose : Purpose) (slot : Nat) (peer : PeerRef) (timeout : Nat)
      (hfree : n.isBusy slot = false) :
      CallReach n i (.claiming purpose slot peer timeout)
        ((n.setCall i (.subscribing purpose slot peer timeout)).setBusy slot true)
  | begin (purpose : Purpose) (slot : Nat) (peer : PeerRef) (timeout : Nat) :
      CallReach n i (.subscribing purpose slot peer timeout)
        (n.subscribeStep i purpose slot peer timeout)
  | cancel (k : Nat) :
      CallReach n i (.cancelling k) ((n.cancelAttempt k).setCall i (.unwinding k))

/-- Every step of a call is of one of these kinds. -/
theorem callReach_of_callStep? {c : Call} (h : n.callStep? i c = some n') :
    CallReach n i c n' := by
  cases callStepped_of_callStep? h with
  | claimed hfree => exact .claim _ _ _ _ hfree
  | subscribed => exact .begin _ _ _ _
  | cancelled k => exact .cancel k
  | @joined purpose => cases purpose <;> exact .apart ⟨rfl, rfl, rfl, rfl⟩
  | _ => exact .apart ⟨rfl, rfl, rfl, rfl⟩

/-- The node after a step of an attempt, but for the slot. -/
def attempted (n : Node σ) (j : Nat) (s : Attempt.Stepped σ) : Node σ :=
  { n with
    transport := s.2.1
    attempts := n.attempts.set j s.1
    held := n.held ++ s.2.2.2.toList }.logged s.2.2.1

/-- What a step of each task comes to. -/
inductive Stepped (n : Node σ) : Task → Node σ → Prop where
  | attempt {j : Nat} {a : Attempt} {cfg : AttemptConfig} {s : Attempt.Stepped σ}
      (ha : n.attempts[j]? = some a) (hcfg : n.config? a.slot = some cfg)
      (hs : a.step? cfg n.now n.transport = some s) :
      Stepped n (.attempt j)
        (if s.1.isFinished then (n.attempted j s).setBusy a.slot false else n.attempted j s)
  | watcher {j : Nat} {a : Attempt} {r : Attempt × σ × List Log.Entry}
      (ha : n.attempts[j]? = some a) (hr : a.watcherStep? n.now n.transport = some r) :
      Stepped n (.watcher j)
        ({ n with transport := r.2.1, attempts := n.attempts.set j r.1 }.logged r.2.2)
  | openWatch {j : Nat} {w : OpenWatch} {r : Watcher × Feed × List Log.Entry}
      (hw : n.watches[j]? = some w)
      (hr : w.watcher.step? n.now w.cancelled (Transport.feed n.transport) = some r) :
      Stepped n (.openWatch j)
        ({ n with
          transport := Transport.withFeed r.2.1 n.transport
          watches := n.watches.set j { w with watcher := r.1 } }.logged r.2.2)
  | held {j : Nat} {h : HeldPeer} {r : HeldPeer.Stepped σ} (hh : n.held[j]? = some h)
      (hr : h.step? n.now n.transport = some r) :
      Stepped n (.held j)
        ({ n with transport := r.2.1, held := n.held.set j r.1 }.logged r.2.2)
  | background {j : Nat} {t : σ} (ht : Transport.background n.now j n.transport = some t) :
      Stepped n (.background j) { n with transport := t }
  | call {j : Nat} {c : Call} {n' : Node σ} (hc : n.calls[j]? = some c)
      (hstep : n.callStep? j c = some n') (hreach : CallReach n j c n') :
      Stepped n (.call j) n'

/-- Every step of a node is the step of its task. -/
theorem stepped_of_step? {task : Task} (h : n.step? task = some n') : n.Stepped task n' := by
  cases task with
  | attempt j =>
    obtain ⟨a, ha, hstep⟩ := Option.bind_eq_some_iff.mp h
    obtain ⟨cfg, hcfg, hstep⟩ := Option.bind_eq_some_iff.mp hstep
    obtain ⟨s, hs, hn⟩ := Option.bind_eq_some_iff.mp hstep
    obtain rfl := Option.some.inj hn
    exact .attempt ha hcfg hs
  | watcher j =>
    obtain ⟨a, ha, hstep⟩ := Option.bind_eq_some_iff.mp h
    obtain ⟨r, hr, rfl⟩ := Option.map_eq_some_iff.mp hstep
    exact .watcher ha hr
  | openWatch j =>
    obtain ⟨w, hw, hstep⟩ := Option.bind_eq_some_iff.mp h
    obtain ⟨r, hr, rfl⟩ := Option.map_eq_some_iff.mp hstep
    exact .openWatch hw hr
  | held j =>
    obtain ⟨h, hh, hstep⟩ := Option.bind_eq_some_iff.mp h
    obtain ⟨r, hr, rfl⟩ := Option.map_eq_some_iff.mp hstep
    exact .held hh hr
  | background j =>
    obtain ⟨t, ht, rfl⟩ := Option.map_eq_some_iff.mp h
    exact .background ht
  | call j =>
    obtain ⟨c, hc, hstep⟩ := Option.bind_eq_some_iff.mp h
    exact .call hc hstep (callReach_of_callStep? hstep)

/-! ## Calls -/

/-- A call only changes by its own steps. -/
theorem call_of_happens {allowed : Act σ → Prop} (h : Happens allowed n n') {c : Call}
    (hc : n.calls[i]? = some c) : n'.calls[i]? = some c ∨ n.callStep? i c = some n' := by
  have hlt := (List.getElem?_eq_some_iff.mp hc).1
  cases h with
  | act a =>
    cases a with
    | order o => exact .inl ((List.getElem?_append_left hlt).trans hc)
    | cancelAttempt | watch | cancelWatch | addSlot | move | wait => exact .inl hc
  | step task h =>
    cases stepped_of_step? h with
    | attempt => exact .inl (by split <;> exact hc)
    | watcher | openWatch | held | background => exact .inl hc
    | @call j d _ hd hstep =>
      obtain ⟨d', hcalls⟩ := exists_calls_of_callStep? hstep
      by_cases hj : j = i
      · subst hj
        obtain rfl := Option.some.inj (hc.symm.trans hd)
        exact .inr hstep
      · exact .inl (by rw [hcalls, List.getElem?_set_ne hj, hc])

/-- Every call was there before, or has just been ordered. -/
theorem call_origin {allowed : Act σ → Prop} (h : Happens allowed n n') {c' : Call}
    (hc' : n'.calls[i]? = some c') :
    (∃ c, n.calls[i]? = some c ∧ (c' = c ∨ n.callStep? i c = some n')) ∨
      ∃ o, allowed (.order o) ∧ c' = o.call := by
  cases hc : n.calls[i]? with
  | some c =>
    left
    rcases call_of_happens h hc with hkept | hstep
    · exact ⟨c, rfl, .inl (Option.some.inj (hc'.symm.trans hkept))⟩
    · exact ⟨c, rfl, .inr hstep⟩
  | none =>
    right
    have hle := List.getElem?_eq_none_iff.mp hc
    cases h with
    | act a hallowed =>
      cases a with
      | order o =>
        have hnew : [o.call][i - n.calls.length]? = some c' := by
          rw [← List.getElem?_append_right hle]
          exact hc'
        exact ⟨o, hallowed, List.mem_singleton.mp (List.mem_of_getElem? hnew)⟩
      | cancelAttempt | watch | cancelWatch | addSlot | move | wait =>
        exact absurd (hc'.symm.trans hc) nofun
    | step task h =>
      cases stepped_of_step? h with
      | attempt => split at hc' <;> exact absurd (hc'.symm.trans hc) nofun
      | watcher | openWatch | held | background => exact absurd (hc'.symm.trans hc) nofun
      | call _ hstep =>
        obtain ⟨d, hcalls⟩ := exists_calls_of_callStep? hstep
        rw [hcalls, List.getElem?_eq_none (by rwa [List.length_set])] at hc'
        contradiction

end Node

end PeerProbe
