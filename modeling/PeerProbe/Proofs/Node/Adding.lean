import PeerProbe.Proofs.Node.Answers
import PeerProbe.Proofs.Node.Lifecycle
import PeerProbe.Proofs.Node.Unwinding

/-!
# Adding a peer while the node stops

A call that adds a peer looks at the life cycle before it claims the slot and once more when its
attempt has begun. A stop takes the life cycle first and then waits for the slot. So if the second
look finds the node running, a stop that comes later finds the slot taken and waits; a stop that
came earlier, with or without a restart behind it, is over or is seen.

A call that sees one cancels its attempt, waits for its end and says that the node does not run.
-/

namespace PeerProbe

/-- The attempt and the peer of a call that is about to look at the life cycle once more. -/
def Call.secondLook? : Call → Option (Nat × PeerRef)
  | .rechecking k peer => some (k, peer)
  | _ => none

/-- Such a call is known by its attempt and its peer. -/
theorem Call.eq_of_secondLook? {c : Call} {k : Nat} {peer : PeerRef}
    (h : c.secondLook? = some (k, peer)) : c = .rechecking k peer := by
  unfold Call.secondLook? at h
  split at h
  · obtain ⟨rfl, rfl⟩ := Prod.mk.inj (Option.some.inj h)
    rfl
  · contradiction

namespace Node

variable {σ : Type} [Transport σ] {n n' m : Node σ} {allowed : Act σ → Prop}

/-! ## No stop goes through -/

/-- The node runs, or the call that stops it still waits for the slot of the service. -/
def Guarded (n : Node σ) : Prop :=
  n.lifecycle = .running ∨ n.lifecycle = .stopping ∧ ∃ j : Nat, n.calls[j]? = some .quiescing

omit [Transport σ] in
/-- A call that waits for the slot is in the transition to stopped. -/
theorem transition?_of_quiescing {j : Nat} (hj : n.calls[j]? = some .quiescing) :
    n.transition? j = some .stopping := by
  simp [transition?, ofCall?, hj, Call.transition?]

/-- As long as the slot is taken, the node runs or the stop waits. -/
theorem Guarded.happens (hn : n.Guarded) (hone : n.OneTransition) (hbusy : n.isBusy 0 = true)
    (h : Happens allowed n n') : n'.Guarded := by
  have hone' := hone.change (lifecycleChange_of_happens h)
  have hchange := lifecycleChange_of_happens h
  rcases hn with hrunning | ⟨hstopping, j, hj⟩
  · cases hchange with
    | kept _ hlifecycle => exact .inl (hlifecycle.trans hrunning)
    | entered i c hc hfrom =>
      rcases hfrom with ⟨hstopped, -⟩ | ⟨-, hto, rfl⟩
      · simp [hstopped] at hrunning
      · exact .inr ⟨hto, i, hc⟩
    | left i s hi =>
      have hnone := hone.transition?_eq_none (.inr hrunning) i
      simp [hnone] at hi
  · -- the call that stops the node cannot go on, since the slot is taken
    have hj' : n'.calls[j]? = some .quiescing := by
      rcases call_of_happens h hj with hkept | hstep
      · exact hkept
      · simp [callStep?, hbusy] at hstep
    exact .inr ⟨hone'.shown j _ (transition?_of_quiescing hj'), j, hj'⟩

omit [Transport σ] in
/-- No call stops the transport then. -/
theorem Guarded.stopsTransport_eq_false (hn : n.Guarded) (hone : n.OneTransition)
    (hdirect : ∀ c ∈ n.calls, c.isDirect = false) {c : Call} (hc : c ∈ n.calls) :
    c.stopsTransport = false := by
  cases hstops : c.stopsTransport with
  | false => rfl
  | true =>
    obtain ⟨i, hi⟩ := List.getElem?_of_mem hc
    obtain ⟨s, hs⟩ := Call.transition?_of_uses (.inr hstops) (hdirect c hc)
    have htransition : n.transition? i = some s := by simp [transition?, ofCall?, hi, hs]
    rcases hn with hrunning | ⟨-, j, hj⟩
    · have hnone := hone.transition?_eq_none (.inr hrunning) i
      simp [hnone] at htransition
    · obtain rfl := hone.unique i j _ _ htransition (transition?_of_quiescing hj)
      obtain rfl := Option.some.inj (hi.symm.trans hj)
      contradiction

/-- From a state in which the node runs, no stop goes through before an attempt of the service has
released the slot. -/
theorem guarded_of_reachable {cfg : AttemptConfig} {k : Nat} {a : Attempt} (hn : n.Guarded)
    (hone : n.OneTransition) (hexclusive : ∀ m, Reachable allowed n m → m.Exclusive 0)
    (hsound : n.AttemptsSound 0 cfg) (ha : n.attempts[k]? = some a) (hslot : a.slot = 0)
    (h : Reachable allowed n m) (hheld : m.Holds 0 (.attempt k)) : m.Guarded := by
  induction h with
  | first => exact hn
  | @next x y hx hstep ih =>
    obtain ⟨b, hb, hlater⟩ := hsound.exists_later hx ha hslot
    have hslot' : b.slot = 0 := hlater.slot.trans hslot
    -- it held the slot before, for the end of an attempt is final
    have hheld' : x.Holds 0 (.attempt k) := by
      obtain ⟨c, hc, -, hrunning⟩ := hheld
      obtain ⟨c', hc', hlater'⟩ := (hsound.reachable hx).attemptsLater hstep k b hb hslot'
      obtain rfl := Option.some.inj (hc.symm.trans hc')
      refine ⟨b, hb, hslot', ?_⟩
      cases hfinished : b.isFinished with
      | false => rfl
      | true => simp [hlater'.finished hfinished] at hrunning
    have hbusy : x.isBusy 0 = true := (hexclusive x hx).busy.mpr ⟨_, hheld'⟩
    exact (ih hheld').happens (hone.reachable hx) hbusy hstep

/-! ## Cut short -/

/-- How far a call has come whose second look did not find the node running. -/
inductive CutShort (n : Node σ) (i k : Nat) (peer : PeerRef) : Prop where
  | cancelling (hc : n.calls[i]? = some (.cancelling k)) (ha : n.HasAttempt k peer fun _ => True)
  | unwinding (hc : n.calls[i]? = some (.unwinding k))
      (ha : n.HasAttempt k peer fun a => a.cancelled = true)
  | refused (hc : n.calls[i]? = some (.done (.refused .notRunning)))
      (ha : n.HasAttempt k peer fun a => a.cancelled = true ∧ a.isFinished = true)

/-- It goes this way whatever happens. -/
theorem CutShort.happens {i k : Nat} {peer : PeerRef} (hn : n.CutShort i k peer)
    (hlater : n.AttemptsLater n') (h : Happens allowed n n') : n'.CutShort i k peer := by
  cases hn with
  | cancelling hc ha =>
    have hlt := (List.getElem?_eq_some_iff.mp hc).1
    rcases call_of_happens h hc with hkept | hstep
    · exact .cancelling hkept (ha.later hlater fun _ _ _ => id)
    · obtain ⟨a, ha, hslot, hpeer, -⟩ := ha
      obtain rfl := Option.some.inj hstep
      refine .unwinding (List.getElem?_set_self hlt) ⟨a.cancel, ?_, hslot, hpeer, rfl⟩
      change (n.attempts.modify k Attempt.cancel)[k]? = _
      rw [List.getElem?_modify_eq, ha]
      rfl
  | unwinding hc ha =>
    have hlt := (List.getElem?_eq_some_iff.mp hc).1
    rcases call_of_happens h hc with hkept | hstep
    · exact .unwinding hkept (ha.later hlater fun _ _ hl => hl.cancelled)
    · obtain ⟨a, ha, hslot, hpeer, hcancelled⟩ := ha
      obtain ⟨hfinished, hn'⟩ := Option.ite_none_right_eq_some.mp hstep
      obtain rfl := Option.some.inj hn'
      have hfinished' : a.isFinished = true := by simpa [attemptFinished, ha] using hfinished
      exact .refused (List.getElem?_set_self hlt) ⟨a, ha, hslot, hpeer, hcancelled, hfinished'⟩
  | refused hc ha =>
    rcases call_of_happens h hc with hkept | hstep
    · exact .refused hkept (ha.later hlater fun _ _ hl => .imp hl.cancelled hl.finished)
    · contradiction

/-- A call that waits for the end of its attempt has a way to come back: the attempt ends by its own
steps and those of its watcher, whatever else happens, and then the call answers. -/
structure ComesBack (allowed : Act σ → Prop) (n : Node σ) (i k : Nat) : Prop where
  ends : ∀ count m, Counted allowed [.attempt k, .watcher k] n count m →
    m.attemptFinished k = true ∨ count < n.measured Attempt.unwinding k ∧
      ∃ task ∈ [Task.attempt k, .watcher k], (m.step? task).isSome = true
  answers : n.attemptFinished k = true →
    ∃ n', n.step? (.call i) = some n' ∧ n'.calls[i]? = some (.done (.refused .notRunning))

/-- A call that is cut short cancels its attempt at once and comes back from waiting for it. -/
theorem CutShort.comesBack {cfg : AttemptConfig} {i k : Nat} {peer : PeerRef}
    (hn : n.CutShort i k peer) (hcfg : n.config? 0 = some cfg)
    (htakes : ∀ (k : Nat) (a : Attempt), n.attempts[k]? = some a → a.slot = 0 →
      a.TakesForExchange cfg) :
    (n.calls[i]? = some (.cancelling k) →
      ∃ n', n.step? (.call i) = some n' ∧ n'.calls[i]? = some (.unwinding k)) ∧
      (n.calls[i]? = some (.unwinding k) → n.ComesBack allowed i k) := by
  constructor
  · intro hc
    have hlt := (List.getElem?_eq_some_iff.mp hc).1
    have hstep : n.step? (.call i) = some ((n.cancelAttempt k).setCall i (.unwinding k)) := by
      simp [step?, hc, callStep?]
    exact ⟨_, hstep, List.getElem?_set_self hlt⟩
  · intro hc
    have hlt := (List.getElem?_eq_some_iff.mp hc).1
    cases hn with
    | unwinding _ ha =>
      obtain ⟨a, ha, hslot, -, hcancelled⟩ := ha
      have hcancelled' : n.AttemptHas 0 cfg (IsCancelled cfg) k :=
        ⟨hcfg, a, ha, hslot, htakes k a ha hslot, hcancelled⟩
      refine ⟨fun count m hm => finished_or_unwinds hcancelled' hm, fun hfinished => ?_⟩
      have hstep : n.step? (.call i) = some (n.setCall i (.done (.refused .notRunning))) := by
        simp [step?, hc, callStep?, hfinished]
      exact ⟨_, hstep, List.getElem?_set_self hlt⟩
    | cancelling hc' | refused hc' =>
      have hcall := Option.some.inj (hc.symm.trans hc')
      contradiction

/-- The second look of a call that adds a peer decides. If it finds the node running, no call stops
the transport before the attempt has released the slot, however calls that start and stop the node
and add peers interleave. If it finds anything else, the call cancels its attempt, waits for the
attempt to unwind and comes back saying that the node does not run. -/
theorem secondLook_decides (t : σ) (cfg : AttemptConfig) (timeout : Nat)
    (hallowed : ServiceOnly allowed) (hn : Reachable allowed (create t cfg timeout) n) {i k : Nat}
    {peer : PeerRef} (hc : n.calls[i]? = some (.rechecking k peer)) :
    (n.lifecycle = .running → ∃ n', n.step? (.call i) = some n' ∧
      ∀ m, Reachable allowed n' m → m.Holds 0 (.attempt k) →
        ∀ c ∈ m.calls, c.stopsTransport = false) ∧
    (n.lifecycle ≠ .running → ∃ n', n.step? (.call i) = some n' ∧
      ∀ m, Reachable allowed n' m → m.CutShort i k peer ∧
        (m.calls[i]? = some (.cancelling k) →
          ∃ m', m.step? (.call i) = some m' ∧ m'.calls[i]? = some (.unwinding k)) ∧
        (m.calls[i]? = some (.unwinding k) → m.ComesBack allowed i k)) := by
  have hsound := (serviceSound_create t cfg timeout).reachable hn
  have hunused := unused_create t cfg timeout
  have hlt := (List.getElem?_eq_some_iff.mp hc).1
  obtain ⟨a, ha, hslot, hpeer, -⟩ := hsound.calls _ (List.mem_of_getElem? hc)
  constructor
  · intro hrunning
    have hstep : n.step? (.call i) = some (n.setCall i (.awaiting .service k peer)) := by
      simp [step?, hc, callStep?, recheckStep, hrunning]
    have hn' := hn.next (.step _ hstep)
    refine ⟨_, hstep, fun m hm hheld c hcall => ?_⟩
    have hone' := (oneTransition_create t cfg timeout).reachable hn'
    have hsound' := (serviceSound_create t cfg timeout).reachable hn'
    have hdirect := isDirect_of_reachable hallowed (by simp [create]) (hn'.trans hm)
    have hfirst : (n.setCall i (.awaiting .service k peer)).Guarded := .inl hrunning
    have hguarded := guarded_of_reachable hfirst hone'
      (fun x hx => hunused.exclusive_of_reachable (hn'.trans hx)) hsound'.attempts ha hslot hm hheld
    exact hguarded.stopsTransport_eq_false (hone'.reachable hm) hdirect hcall
  · intro hidle
    have hstep : n.step? (.call i) = some (n.setCall i (.cancelling k)) := by
      simp [step?, hc, callStep?, recheckStep, hidle]
    have hn' := hn.next (.step _ hstep)
    refine ⟨_, hstep, fun m hm => ?_⟩
    have hcut : m.CutShort i k peer := by
      induction hm with
      | first => exact .cancelling (List.getElem?_set_self hlt) ⟨a, ha, hslot, hpeer, trivial⟩
      | next hx hxy ih =>
        have hsound' := (serviceSound_create t cfg timeout).reachable (hn'.trans hx)
        exact ih.happens (hsound'.attempts.attemptsLater hxy) hxy
    have hcfg := config?_of_reachable hunused.config (hn'.trans hm)
    exact ⟨hcut, hcut.comesBack hcfg
      ((lasting_takesForExchange _).reachable hunused (hn'.trans hm))⟩

/-- Starting and stopping the node and adding peers, and nothing else from outside. -/
def ServiceCalls : Act InProcess → Prop
  | .order .start | .order .stop | .order (.addPeer _ _) => True
  | _ => False

/-- A node that was started and asked for a peer, whose attempt has just begun. -/
def addingNode : Node InProcess :=
  (plainNode.perform [.call 0] 5 [.order .start]).perform [.call 1] 4
    [.order (.addPeer guestRef.text none)]

/-- The same node, when a stop has come in between. -/
def overtakenNode : Node InProcess := addingNode.perform [.call 2] 1 [.order .stop]

/-- The first node comes from a new one. -/
theorem reachable_addingNode : Reachable ServiceCalls plainNode addingNode :=
  (reachable_perform _ _ _ (by simp [ServiceCalls])).trans
    (reachable_perform _ _ _ (by simp [ServiceCalls]))

/-- So does the second one. -/
theorem reachable_overtakenNode : Reachable ServiceCalls plainNode overtakenNode :=
  reachable_addingNode.trans (reachable_perform _ _ _ (by simp [ServiceCalls]))

/-- The call of the running node goes on, and the call that was overtaken gives up. -/
theorem secondLook_decides_addingNode :
    (addingNode.calls[1]? = some (.rechecking 0 guestRef) ∧ addingNode.lifecycle = .running ∧
      ∃ n', addingNode.step? (.call 1) = some n' ∧
        ∀ m, Reachable ServiceCalls n' m → m.Holds 0 (.attempt 0) →
          ∀ c ∈ m.calls, c.stopsTransport = false) ∧
    (overtakenNode.calls[1]? = some (.rechecking 0 guestRef) ∧
      overtakenNode.lifecycle ≠ .running ∧
      ∃ n', overtakenNode.step? (.call 1) = some n' ∧
        ∀ m, Reachable ServiceCalls n' m → m.CutShort 1 0 guestRef) := by
  have hservice : ServiceOnly ServiceCalls := ⟨id, id⟩
  have hadding : addingNode.calls[1]? = some (.rechecking 0 guestRef) := by
    obtain ⟨c, hc, hlook⟩ := Option.bind_eq_some_iff.mp
      (show addingNode.calls[1]?.bind Call.secondLook? = some (0, guestRef) by decide +kernel)
    rw [hc, Call.eq_of_secondLook? hlook]
  have hovertaken : overtakenNode.calls[1]? = some (.rechecking 0 guestRef) := by
    obtain ⟨c, hc, hlook⟩ := Option.bind_eq_some_iff.mp
      (show overtakenNode.calls[1]?.bind Call.secondLook? = some (0, guestRef) by decide +kernel)
    rw [hc, Call.eq_of_secondLook? hlook]
  have hrunning : addingNode.lifecycle = .running := by decide +kernel
  have hidle : overtakenNode.lifecycle ≠ .running := by decide +kernel
  obtain ⟨n', hstep, hn'⟩ :=
    (secondLook_decides _ _ _ hservice reachable_overtakenNode hovertaken).2 hidle
  exact ⟨⟨hadding, hrunning,
      (secondLook_decides _ _ _ hservice reachable_addingNode hadding).1 hrunning⟩,
    hovertaken, hidle, n', hstep, fun m hm => (hn' m hm).1⟩

end Node

end PeerProbe
