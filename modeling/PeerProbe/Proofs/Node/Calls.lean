import PeerProbe.Node.Step

/-!
# The steps of a call

Every step of a call is one of these, each with what it finds and what it leaves. What a call does
to the life cycle, the slots, the attempts or its own place is read off this list.
-/

namespace PeerProbe

namespace Node

variable {σ : Type}

/-- The wait of a call is over: there was none, or it is time to wake. -/
def Rested (n : Node σ) (wake : Option Nat) (delay : Nat) : Prop :=
  match wake with
  | none => delay = 0
  | some w => w ≤ n.now

/-- A call that may sleep does what it waits to do once it is rested, and before that it sets the
time to wake. -/
theorem sleeping_eq_some {n n' : Node σ} {i : Nat} {wake : Option Nat} {delay : Nat}
    {again : Option Nat → Call} {go : Node σ → Node σ}
    (h : n.sleeping i wake delay again go = some n') :
    (n.Rested wake delay ∧ n' = go n) ∨
      (wake = none ∧ delay ≠ 0 ∧ n' = n.setCall i (again (some (n.now + delay)))) := by
  unfold sleeping at h
  cases wake with
  | none =>
    dsimp only at h
    split at h
    · next hdelay => exact .inl ⟨hdelay, (Option.some.inj h).symm⟩
    · next hdelay => exact .inr ⟨rfl, hdelay, (Option.some.inj h).symm⟩
  | some w =>
    dsimp only at h
    split at h
    · next hw => exact .inl ⟨hw, (Option.some.inj h).symm⟩
    · contradiction

/-! ## What is read off a call -/

/-- What is read off a call, if it is there. -/
def ofCall? {α : Type} (f : Call → Option α) (n : Node σ) (i : Nat) : Option α := n.calls[i]?.bind f

/-- A call that was set is read. -/
theorem ofCall?_set {α : Type} (f : Call → Option α) {n n' : Node σ} {i : Nat} {c c' : Call}
    (hc : n.calls[i]? = some c) (hcalls : n'.calls = n.calls.set i c') (j : Nat) :
    n'.ofCall? f j = if j = i then f c' else n.ofCall? f j := by
  rw [ofCall?, hcalls]
  by_cases hj : j = i
  · rw [if_pos hj, hj, List.getElem?_set_self (List.getElem?_eq_some_iff.mp hc).1,
      Option.bind_some]
  · rw [if_neg hj, List.getElem?_set_ne (Ne.symm hj)]
    rfl

/-- The call that was set is there. -/
theorem eq_of_calls_set {n n' : Node σ} {i : Nat} {c d : Call} (hcalls : n'.calls = n.calls.set i c)
    (hd : n'.calls[i]? = some d) : d = c := by
  rw [hcalls] at hd
  obtain ⟨hlt, rfl⟩ := List.getElem?_eq_some_iff.mp hd
  exact List.getElem_set_self hlt

/-- Setting a call to one that reads the same is not seen. -/
theorem ofCall?_set_eq {α : Type} (f : Call → Option α) {n n' : Node σ} {i : Nat} {c c' : Call}
    (hc : n.calls[i]? = some c) (hcalls : n'.calls = n.calls.set i c') (hf : f c' = f c) (j : Nat) :
    n'.ofCall? f j = n.ofCall? f j := by
  rw [ofCall?_set f hc hcalls]
  split
  · next hj => rw [hf, ofCall?, hj, hc, Option.bind_some]
  · rfl

/-- A new call of which nothing is read is not seen. -/
theorem ofCall?_append {α : Type} (f : Call → Option α) {n n' : Node σ} {c : Call}
    (hcalls : n'.calls = n.calls ++ [c]) (hf : f c = none) (i : Nat) :
    n'.ofCall? f i = n.ofCall? f i := by
  rw [ofCall?, ofCall?, hcalls]
  rcases Nat.lt_or_ge i n.calls.length with hi | hi
  · rw [List.getElem?_append_left hi]
  · rw [List.getElem?_append_right hi, List.getElem?_eq_none hi]
    cases i - n.calls.length with
    | zero => simpa using hf
    | succ => rfl

/-! ## What a call does -/

variable [Transport σ]

/-- The steps of a call: what each one needs and the node that it leaves. -/
inductive CallStepped (n : Node σ) (i : Nat) : Call → Node σ → Prop where
  -- starting the node
  | startClaimed (hl : n.lifecycle = .stopped) :
      CallStepped n i .start { n.setCall i (.starting none) with lifecycle := .starting }
  | startRunning (hl : n.lifecycle = .running) : CallStepped n i .start (n.setCall i .startCached)
  | startRefused (hl : n.lifecycle = .starting ∨ n.lifecycle = .stopping) :
      CallStepped n i .start (n.setCall i (.done (.refused .startInProgress)))
  | cached {identity : Identity} (hid : n.identity = some identity) :
      CallStepped n i .startCached (n.setCall i (.done (.started identity)))
  | uncached (hid : n.identity = none) :
      CallStepped n i .startCached (n.setCall i (.done (.refused .startInProgress)))
  | startSleeps (hdelay : Transport.startDelay n.transport ≠ 0) :
      CallStepped n i (.starting none)
        (n.setCall i (.starting (some (n.now + Transport.startDelay n.transport))))
  | transportUp {wake : Option Nat} {t : σ}
      (hrest : n.Rested wake (Transport.startDelay n.transport))
      (ht : Transport.start n.transport = (.ok (), t)) :
      CallStepped n i (.starting wake) { n.setCall i .identifying with transport := t }
  | transportFailed {wake : Option Nat} {e : TransportError} {t : σ}
      (hrest : n.Rested wake (Transport.startDelay n.transport))
      (ht : Transport.start n.transport = (.error e, t)) :
      CallStepped n i (.starting wake) { n.setCall i (.startFailed e) with transport := t }
  | startFailed (e : TransportError) : CallStepped n i (.startFailed e) (n.startFailedStep i e)
  | identified {selfRef : PeerRef} {info : NodeInfo}
      (hself : Transport.selfRef? n.transport = some selfRef)
      (hinfo : Transport.nodeInfo? n.transport = some info) :
      CallStepped n i .identifying (n.setCall i (.caching ⟨selfRef, info⟩))
  | unidentified (hid : Transport.selfRef? n.transport = none ∨
        Transport.nodeInfo? n.transport = none) :
      CallStepped n i .identifying (n.setCall i (.aborting none))
  | abortSleeps (hdelay : Transport.stopDelay n.transport ≠ 0) :
      CallStepped n i (.aborting none)
        (n.setCall i (.aborting (some (n.now + Transport.stopDelay n.transport))))
  | abortDown {wake : Option Nat} (hrest : n.Rested wake (Transport.stopDelay n.transport)) :
      CallStepped n i (.aborting wake)
        { n.setCall i .aborted with transport := Transport.stop n.transport }
  | aborted : CallStepped n i .aborted (n.abortedStep i)
  | caching (identity : Identity) :
      CallStepped n i (.caching identity)
        { n.setCall i (.startDone identity) with identity := some identity }
  | startDone (identity : Identity) :
      CallStepped n i (.startDone identity) (n.startDoneStep i identity)
  -- stopping the node
  | stopClaimed (hl : n.lifecycle = .running) :
      CallStepped n i .stop { n.setCall i .quiescing with lifecycle := .stopping }
  | stopIdle (hl : n.lifecycle ≠ .running) : CallStepped n i .stop (n.setCall i (.done .stopped))
  | quiet (hfree : n.isBusy 0 = false) : CallStepped n i .quiescing (n.setCall i (.stopping none))
  | stopSleeps (hdelay : Transport.stopDelay n.transport ≠ 0) :
      CallStepped n i (.stopping none)
        (n.setCall i (.stopping (some (n.now + Transport.stopDelay n.transport))))
  | transportDown {wake : Option Nat} (hrest : n.Rested wake (Transport.stopDelay n.transport)) :
      CallStepped n i (.stopping wake)
        { n.setCall i .clearing with transport := Transport.stop n.transport }
  | clearing : CallStepped n i .clearing { n.setCall i .stopDone with identity := none }
  | stopDone : CallStepped n i .stopDone (n.stopDoneStep i)
  -- adding and removing a peer
  | addRead {enode : String} {timeout : Option Nat} {peer : PeerRef}
      (hread : PeerRef.parse enode = .ok peer) :
      CallStepped n i (.addPeer enode timeout) (n.setCall i (.addChecked peer timeout))
  | addRefused {enode : String} {timeout : Option Nat} {e : PeerRef.Error}
      (hread : PeerRef.parse enode = .error (.refused e)) :
      CallStepped n i (.addPeer enode timeout)
        (n.setCall i (.done (.refused (.malformedPeerRef e))))
  | addCrashed {enode : String} {timeout : Option Nat}
      (hread : PeerRef.parse enode = .error .crash) :
      CallStepped n i (.addPeer enode timeout) (n.setCall i .crashed)
  | addRunning {peer : PeerRef} {timeout : Option Nat} (hl : n.lifecycle = .running) :
      CallStepped n i (.addChecked peer timeout)
        (n.setCall i (.claiming .service 0 peer (timeout.getD n.addPeerTimeout)))
  | addIdle {peer : PeerRef} {timeout : Option Nat} (hl : n.lifecycle ≠ .running) :
      CallStepped n i (.addChecked peer timeout) (n.setCall i (.done (.refused .notRunning)))
  | removed {enode : String} {peer : PeerRef} (hread : PeerRef.parse enode = .ok peer) :
      CallStepped n i (.removePeer enode)
        ({ n.setCall i (.done .removed) with
          transport := Transport.remove peer n.transport }.logged
            [serviceEntry .info "peer_removed" (some peer.text)])
  | removeRefused {enode : String} {e : PeerRef.Error}
      (hread : PeerRef.parse enode = .error (.refused e)) :
      CallStepped n i (.removePeer enode) (n.setCall i (.done (.refused (.malformedPeerRef e))))
  | removeCrashed {enode : String} (hread : PeerRef.parse enode = .error .crash) :
      CallStepped n i (.removePeer enode) (n.setCall i .crashed)
  -- one attempt, for whatever purpose
  | claimRefused {purpose : Purpose} {slot : Nat} {peer : PeerRef} {timeout : Nat}
      (hbusy : n.isBusy slot = true) :
      CallStepped n i (.claiming purpose slot peer timeout)
        ((n.setCall i (.done (busyReply purpose))).logged (busyEntries purpose peer))
  | claimed {purpose : Purpose} {slot : Nat} {peer : PeerRef} {timeout : Nat}
      (hfree : n.isBusy slot = false) :
      CallStepped n i (.claiming purpose slot peer timeout)
        ((n.setCall i (.subscribing purpose slot peer timeout)).setBusy slot true)
  | subscribed {purpose : Purpose} {slot : Nat} {peer : PeerRef} {timeout : Nat} :
      CallStepped n i (.subscribing purpose slot peer timeout)
        (n.subscribeStep i purpose slot peer timeout)
  | recheckRunning {k : Nat} {peer : PeerRef} (hl : n.lifecycle = .running) :
      CallStepped n i (.rechecking k peer) (n.setCall i (.awaiting .service k peer))
  | recheckIdle {k : Nat} {peer : PeerRef} (hl : n.lifecycle ≠ .running) :
      CallStepped n i (.rechecking k peer) (n.setCall i (.cancelling k))
  | cancelled (k : Nat) :
      CallStepped n i (.cancelling k) ((n.cancelAttempt k).setCall i (.unwinding k))
  | unwound {k : Nat} (hfinished : n.attemptFinished k = true) :
      CallStepped n i (.unwinding k) (n.setCall i (.done (.refused .notRunning)))
  | answeredAtOnce {k : Nat} {peer : PeerRef} {a : Attempt} {answer : Option AttemptReport}
      (ha : n.attempts[k]? = some a) (hanswer : a.answer? = some answer) :
      CallStepped n i (.awaiting (.direct true) k peer) (n.setCall i (.done (directReply answer)))
  | answered {purpose : Purpose} {k : Nat} {peer : PeerRef} {a : Attempt}
      {answer : Option AttemptReport} (hpurpose : purpose ≠ .direct true)
      (ha : n.attempts[k]? = some a) (hanswer : a.answer? = some answer) :
      CallStepped n i (.awaiting purpose k peer) (n.setCall i (.joining purpose k peer answer))
  | joined {purpose : Purpose} {k : Nat} {peer : PeerRef} {answer : Option AttemptReport}
      (hfinished : n.attemptFinished k = true) :
      CallStepped n i (.joining purpose k peer answer) (n.joinedStep i purpose peer answer)
  | concluded {peer : PeerRef} {answer : Option AttemptReport} :
      CallStepped n i (.concluding peer answer)
        (n.setCall i (.done (serviceReply n.lifecycle peer answer)))
  -- direct use of the parts
  | directStartSleeps (hdelay : Transport.startDelay n.transport ≠ 0) :
      CallStepped n i (.transportStart none)
        (n.setCall i (.transportStart (some (n.now + Transport.startDelay n.transport))))
  | directStart {wake : Option Nat} (hrest : n.Rested wake (Transport.startDelay n.transport)) :
      CallStepped n i (.transportStart wake)
        { n.setCall i (.done (.transportStarted (Transport.start n.transport).1)) with
          transport := (Transport.start n.transport).2 }
  | directStopSleeps (hdelay : Transport.stopDelay n.transport ≠ 0) :
      CallStepped n i (.transportStop none)
        (n.setCall i (.transportStop (some (n.now + Transport.stopDelay n.transport))))
  | directStop {wake : Option Nat} (hrest : n.Rested wake (Transport.stopDelay n.transport)) :
      CallStepped n i (.transportStop wake)
        { n.setCall i (.done .transportStopped) with transport := Transport.stop n.transport }
  | directQuiet {slot : Nat} (hfree : n.isBusy slot = false) :
      CallStepped n i (.quiesce slot) (n.setCall i (.done .quiet))

variable {n n' : Node σ} {i : Nat}

/-- Every step of a call is one of the list. -/
theorem callStepped_of_callStep? {c : Call} (h : n.callStep? i c = some n') :
    n.CallStepped i c n' := by
  cases c with
  | start =>
    obtain rfl := Option.some.inj h
    unfold startStep
    split
    · next hl => exact .startClaimed hl
    · next hl => exact .startRunning hl
    · next hstopped hrunning =>
      refine .startRefused ?_
      cases hl : n.lifecycle with
      | stopped => exact absurd hl hstopped
      | running => exact absurd hl hrunning
      | starting => exact .inl rfl
      | stopping => exact .inr rfl
  | startCached =>
    obtain rfl := Option.some.inj h
    unfold startCachedStep
    cases hid : n.identity with
    | some identity => exact .cached hid
    | none => exact .uncached hid
  | starting wake =>
    simp only [callStep?] at h
    rcases sleeping_eq_some h with ⟨hrest, rfl⟩ | ⟨rfl, hdelay, rfl⟩
    · unfold startTransport
      split
      · next t ht => exact .transportUp hrest ht
      · next e t ht => exact .transportFailed hrest ht
    · exact .startSleeps hdelay
  | startFailed e =>
    obtain rfl := Option.some.inj h
    exact .startFailed e
  | identifying =>
    obtain rfl := Option.some.inj h
    unfold identifyStep
    cases hself : Transport.selfRef? n.transport with
    | none => exact .unidentified (.inl hself)
    | some selfRef =>
      cases hinfo : Transport.nodeInfo? n.transport with
      | none => exact .unidentified (.inr hinfo)
      | some info => exact .identified hself hinfo
  | aborting wake =>
    simp only [callStep?] at h
    rcases sleeping_eq_some h with ⟨hrest, rfl⟩ | ⟨rfl, hdelay, rfl⟩
    · exact .abortDown hrest
    · exact .abortSleeps hdelay
  | aborted =>
    obtain rfl := Option.some.inj h
    exact .aborted
  | caching identity =>
    obtain rfl := Option.some.inj h
    exact .caching identity
  | startDone identity =>
    obtain rfl := Option.some.inj h
    exact .startDone identity
  | stop =>
    obtain rfl := Option.some.inj h
    unfold stopStep
    split
    · next hl => exact .stopClaimed hl
    · next hl => exact .stopIdle hl
  | quiescing =>
    obtain ⟨hfree, hn⟩ := Option.ite_none_left_eq_some.mp h
    obtain rfl := Option.some.inj hn
    exact .quiet (Bool.eq_false_iff.mpr hfree)
  | stopping wake =>
    simp only [callStep?] at h
    rcases sleeping_eq_some h with ⟨hrest, rfl⟩ | ⟨rfl, hdelay, rfl⟩
    · exact .transportDown hrest
    · exact .stopSleeps hdelay
  | clearing =>
    obtain rfl := Option.some.inj h
    exact .clearing
  | stopDone =>
    obtain rfl := Option.some.inj h
    exact .stopDone
  | addPeer enode timeout =>
    obtain rfl := Option.some.inj h
    unfold addPeerStep
    split
    · next peer hread => exact .addRead hread
    · next e hread => exact .addRefused hread
    · next hread => exact .addCrashed hread
  | addChecked peer timeout =>
    obtain rfl := Option.some.inj h
    unfold addCheckedStep
    split
    · next hl => exact .addRunning hl
    · next hl => exact .addIdle hl
  | removePeer enode =>
    obtain rfl := Option.some.inj h
    unfold removePeerStep
    split
    · next peer hread => exact .removed hread
    · next e hread => exact .removeRefused hread
    · next hread => exact .removeCrashed hread
  | claiming purpose slot peer timeout =>
    obtain rfl := Option.some.inj h
    unfold claimStep
    split
    · next hbusy => exact .claimRefused hbusy
    · next hfree => exact .claimed (Bool.eq_false_iff.mpr hfree)
  | subscribing purpose slot peer timeout =>
    obtain rfl := Option.some.inj h
    exact .subscribed
  | rechecking k peer =>
    obtain rfl := Option.some.inj h
    unfold recheckStep
    split
    · next hl => exact .recheckRunning hl
    · next hl => exact .recheckIdle hl
  | cancelling k =>
    obtain rfl := Option.some.inj h
    exact .cancelled k
  | unwinding k =>
    obtain ⟨hfinished, hn⟩ := Option.ite_none_right_eq_some.mp h
    obtain rfl := Option.some.inj hn
    exact .unwound hfinished
  | awaiting purpose k peer =>
    obtain ⟨answer, hanswer, rfl⟩ := Option.map_eq_some_iff.mp h
    obtain ⟨a, ha, hanswer⟩ := Option.bind_eq_some_iff.mp hanswer
    unfold answeredStep
    split
    · next hpurpose =>
      subst hpurpose
      exact .answeredAtOnce ha hanswer
    · next hpurpose => exact .answered hpurpose ha hanswer
  | joining purpose k peer answer =>
    obtain ⟨hfinished, hn⟩ := Option.ite_none_right_eq_some.mp h
    obtain rfl := Option.some.inj hn
    exact .joined hfinished
  | concluding peer answer =>
    obtain rfl := Option.some.inj h
    exact .concluded
  | transportStart wake =>
    simp only [callStep?] at h
    rcases sleeping_eq_some h with ⟨hrest, rfl⟩ | ⟨rfl, hdelay, rfl⟩
    · exact .directStart hrest
    · exact .directStartSleeps hdelay
  | transportStop wake =>
    simp only [callStep?] at h
    rcases sleeping_eq_some h with ⟨hrest, rfl⟩ | ⟨rfl, hdelay, rfl⟩
    · exact .directStop hrest
    · exact .directStopSleeps hdelay
  | quiesce slot =>
    obtain ⟨hfree, hn⟩ := Option.ite_none_left_eq_some.mp h
    obtain rfl := Option.some.inj hn
    exact .directQuiet (Bool.eq_false_iff.mpr hfree)
  | crashed | done reply => contradiction

/-- A step of a call sets that call and no other one. -/
theorem exists_calls_of_callStep? {c : Call} (h : n.callStep? i c = some n') :
    ∃ c', n'.calls = n.calls.set i c' := by
  cases callStepped_of_callStep? h with
  | @joined purpose => cases purpose <;> exact ⟨_, rfl⟩
  | _ => exact ⟨_, rfl⟩

end Node

end PeerProbe
