import PeerProbe.InProcess
import PeerProbe.Proofs.Attempt.Held
import PeerProbe.Proofs.Node.Answers
import PeerProbe.Proofs.Node.Run

/-!
# How long an added peer stays connected

The service disconnects a peer only in an attempt on that peer which ended without a connection,
and it always does so then. A held connection is let go on a signal from the feed or when it fails.

A peer that was added therefore stays connected as long as no other attempt on it fails: adding it
again is not harmless. An exchange cannot have the connection a second time, since it was handed
out already, and what fails is removed.
-/

namespace PeerProbe

/-- The peer that a call reports as added. -/
def Call.added? : Call → Option AddedPeer
  | .done (.added p) => some p
  | _ => none

/-- A call that reports a peer as added has come back with it. -/
theorem Call.eq_of_added? {c : Call} {p : AddedPeer} (h : c.added? = some p) :
    c = .done (.added p) := by
  unfold added? at h
  split at h
  · rw [Option.some.inj h]
  · contradiction

namespace Node

variable {σ : Type}

/-- The service removed a peer of this identity in one of its attempts. -/
def RemovedIn (n : Node σ) (p : PeerRef) (j : Nat) : Prop :=
  ∃ a, n.attempts[j]? = some a ∧ a.slot = 0 ∧ a.peer.samePeer p = true ∧ .remove ∈ a.history

/-- An attempt of the service on a peer of this identity has unwound without a connection. -/
def FailedIn (n : Node σ) (p : PeerRef) (j : Nat) : Prop :=
  ∃ a, n.attempts[j]? = some a ∧ a.slot = 0 ∧ a.peer.samePeer p = true ∧
    a.stage = .unwound ∧ a.isConnected = false

/-- Where nothing is disconnected after a success, attempts that fail are exactly those that
remove. -/
theorem remove_mem_history_iff {a : Attempt} {cfg : AttemptConfig} (hs : a.Sound cfg)
    (hcfg : cfg.disconnect = false) :
    .remove ∈ a.history ↔ a.stage = .unwound ∧ a.isConnected = false := by
  have hkeeps : a.keepsPeer cfg = a.isConnected := by simp [Attempt.keepsPeer, hcfg]
  rw [← List.count_pos_iff, hs.removals, hkeeps]
  split <;> simp_all

/-- The service removes a peer exactly in the attempts on it that fail. -/
theorem ServiceSound.removedIn_iff {n : Node σ} {cfg : AttemptConfig} (hn : n.ServiceSound cfg)
    (hcfg : cfg.disconnect = false) (p : PeerRef) (j : Nat) : n.RemovedIn p j ↔ n.FailedIn p j := by
  constructor
  · rintro ⟨a, ha, hslot, hpeer, hremove⟩
    exact ⟨a, ha, hslot, hpeer,
      (remove_mem_history_iff (hn.attempts.sound j a ha hslot) hcfg).mp hremove⟩
  · rintro ⟨a, ha, hslot, hpeer, hfailed⟩
    exact ⟨a, ha, hslot, hpeer,
      (remove_mem_history_iff (hn.attempts.sound j a ha hslot) hcfg).mpr hfailed⟩

variable [Transport σ] {n n' : Node σ}

/-! ## Held connections -/

/-- A held peer only changes by a step of its own task. -/
theorem held_of_happens {allowed : Act σ → Prop} (h : Happens allowed n n') {j : Nat}
    {peer : HeldPeer} (hj : n.held[j]? = some peer) :
    n'.held[j]? = some peer ∨
      n.step? (.held j) = some n' ∧
        ∃ r, peer.step? n.now n.transport = some r ∧ n'.held[j]? = some r.1 := by
  have hlt := (List.getElem?_eq_some_iff.mp hj).1
  cases h with
  | act a => cases a <;> exact .inl hj
  | step task h =>
    cases stepped_of_step? h with
    | @attempt i a cfg s =>
      left
      have happended : (n.held ++ s.2.2.2.toList)[j]? = some peer := by
        rw [List.getElem?_append_left hlt, hj]
      split <;> exact happended
    | watcher | openWatch | background => exact .inl hj
    | @held i peer' r hi hr =>
      by_cases hij : i = j
      · subst hij
        obtain rfl := Option.some.inj (hj.symm.trans hi)
        exact .inr ⟨h, r, hr, List.getElem?_set_self hlt⟩
      · exact .inl ((List.getElem?_set_ne hij).trans hj)
    | call hc hstep hreach =>
      left
      cases hreach with
      | apart hsame => rw [hsame.held, hj]
      | claim | begin | cancel => exact hj

/-- What happens lets a held connection to a peer go that has not failed. -/
def LetsGo (n : Node σ) (p : PeerRef) (n' : Node σ) : Prop :=
  ∃ (j : Nat) (h h' : HeldPeer), n.held[j]? = some h ∧ h.peer.samePeer p = true ∧
    h.phase = .holding ∧ n'.held[j]? = some h' ∧ h'.phase ≠ .holding ∧
    ¬ h.ReadFails n.now n.transport

/-- The task of a held peer finds a signal of its end, while the connection has not failed. -/
def FindsSignal (n : Node σ) (p : PeerRef) (n' : Node σ) : Prop :=
  ∃ (j : Nat) (h : HeldPeer), n.step? (.held j) = some n' ∧ n.held[j]? = some h ∧
    h.peer.samePeer p = true ∧ h.phase = .holding ∧ h.Signalled n.transport ∧
    ¬ h.ReadFails n.now n.transport

/-- A sound held connection is let go exactly when its task finds a signal. -/
theorem letsGo_iff {allowed : Act σ → Prop} (h : Happens allowed n n') (p : PeerRef) :
    n.LetsGo p n' ↔ n.FindsSignal p n' := by
  constructor
  · rintro ⟨j, peer, peer', hj, hpeer, hholding, hj', hended, hreads⟩
    rcases held_of_happens h hj with hsame | ⟨hstep, r, hr, hr'⟩
    · obtain rfl := Option.some.inj (hsame.symm.trans hj')
      contradiction
    · obtain rfl := Option.some.inj (hr'.symm.trans hj')
      rcases (HeldPeer.ends_iff_of_step? hholding hr).mp hended with hsignal | ⟨hfails, -⟩
      · exact ⟨j, peer, hstep, hj, hpeer, hholding, hsignal, hreads⟩
      · contradiction
  · rintro ⟨j, peer, hstep, hj, hpeer, hholding, hsignal, hreads⟩
    have hlt := (List.getElem?_eq_some_iff.mp hj).1
    cases stepped_of_step? hstep with
    | @held _ peer' r hi hr =>
      obtain rfl := Option.some.inj (hj.symm.trans hi)
      exact ⟨j, peer, r.1, hj, hpeer, hholding, List.getElem?_set_self hlt,
        (HeldPeer.ends_iff_of_step? hholding hr).mpr (.inl hsignal), hreads⟩

/-! ## Runs -/

/-- The service has not removed a peer and no held connection to it was let go that had not
failed, from one state to another. -/
structure StaysConnected (allowed : Act σ → Prop) (p : PeerRef) (n m : Node σ) : Prop where
  removals : ∀ j, m.RemovedIn p j → n.RemovedIn p j
  holding : ∀ x y, Reachable allowed n x → Happens allowed x y → Reachable allowed y m →
    ¬ x.LetsGo p y

/-- No attempt on a peer has failed and no held connection to it found a signal, from one state to
another. -/
structure Undisturbed (allowed : Act σ → Prop) (p : PeerRef) (n m : Node σ) : Prop where
  failures : ∀ j, m.FailedIn p j → n.FailedIn p j
  signals : ∀ x y, Reachable allowed n x → Happens allowed x y → Reachable allowed y m →
    ¬ x.FindsSignal p y

/-- The attempt behind the answer that a peer was added has ended with a connection and never
removes the peer. From then on the peer stays connected exactly as long as it is undisturbed: it
is disconnected by every other attempt on it that fails, and by no attempt on another peer. -/
theorem addedPeer_staysConnected_iff (t : σ) (cfg : AttemptConfig) (timeout : Nat)
    {before allowed : Act σ → Prop} {n m : Node σ} {added : AddedPeer}
    (hn : Reachable before (create t cfg timeout) n) (hadded : .done (.added added) ∈ n.calls)
    (hok : added.ok = true) (hm : Reachable allowed n m) :
    ∃ k peer, added.enode = peer.text ∧
      m.HasAttempt k peer (fun a =>
        a.isFinished = true ∧ a.isConnected = true ∧ .remove ∉ a.history) ∧
      (StaysConnected allowed peer n m ↔ Undisturbed allowed peer n m) := by
  have hsound := (serviceSound_create t cfg timeout).reachable hn
  have hsound' := hsound.reachable hm
  obtain ⟨k, peer, henode, hattempt⟩ := hsound.calls _ hadded hok
  refine ⟨k, peer, henode, ?_, ?_, ?_⟩
  · obtain ⟨a, ha, hslot, hpeer, hfinished, hconnected⟩ := hattempt
    obtain ⟨a', ha', hlater⟩ := hsound.attempts.exists_later hm ha hslot
    have hslot' := hlater.slot.trans hslot
    have hconnected' := isConnected_of_later hlater hconnected
    have hremove := remove_mem_history_iff (hsound'.attempts.sound k a' ha' hslot') rfl
    refine ⟨a', ha', hslot', hlater.peer.trans hpeer, hlater.finished hfinished, hconnected', ?_⟩
    rw [hremove, hconnected']
    simp
  · rintro ⟨hremovals, hholding⟩
    refine ⟨fun j hfailed => ?_, fun x y hx hxy hy hsignal => ?_⟩
    · rw [← hsound'.removedIn_iff rfl] at hfailed
      rw [← hsound.removedIn_iff rfl]
      exact hremovals j hfailed
    · exact hholding x y hx hxy hy ((letsGo_iff hxy peer).mpr hsignal)
  · rintro ⟨hfailures, hsignals⟩
    refine ⟨fun j hremoved => ?_, fun x y hx hxy hy hletsGo => ?_⟩
    · rw [hsound'.removedIn_iff rfl] at hremoved
      rw [hsound.removedIn_iff rfl]
      exact hfailures j hremoved
    · exact hsignals x y hx hxy hy ((letsGo_iff hxy peer).mp hletsGo)

/-! ## Adding a peer again -/

/-- Adding peers through the service, and nothing else from outside. -/
def AddsPeers : Act σ → Prop
  | .order (.addPeer _ _) => True
  | _ => False

/-- Starting the node, adding peers, and peers that get attached and send. -/
def ServesPeers : Act InProcess → Prop
  | .order .start | .order (.addPeer _ _) | .move (.attach _) | .move (.remoteSend _ _) => True
  | _ => False

/-- A peer on the local host. -/
def localPeer (b : UInt8) : PeerRef := ⟨.replicate 64 b, .v4 .loopback, 30303, 30303⟩

/-- Settings with a status exchange. -/
def exchanging : AttemptConfig := ⟨some {}, .mainnet, 0, true⟩

/-- A new node on a transport that reports every dialled peer as added. -/
def newNode : Node InProcess :=
  create (.create (some (localPeer 0)) [⟨none, none, .event .added none⟩]) exchanging 1000

/-- The tasks of a run with three calls and two attempts. -/
def someTasks : List Task :=
  [.call 0, .call 1, .call 2, .attempt 0, .watcher 0, .attempt 1, .watcher 1, .held 0]

/-- A node that was started and has added a peer, whose status had come in. -/
def nodeWithPeer : Node InProcess :=
  newNode.perform someTasks 60
    [.order .start, .move (.attach (.pipe ⟨localPeer 1, [], [], true, true⟩)),
      .move (.remoteSend 0 (.ofPayload Eth.Code.status (Eth.rlpBytes Eth.Status.mainnet))),
      .order (.addPeer (localPeer 1).text none)]

/-- The same node after the peer was added once more. -/
def nodeWithPeerAgain : Node InProcess :=
  nodeWithPeer.perform someTasks 60 [.order (.addPeer (localPeer 1).text none)]

/-- The first node comes from a new one. -/
theorem reachable_nodeWithPeer : Reachable ServesPeers newNode nodeWithPeer :=
  reachable_perform _ _ _ (by simp [ServesPeers])

/-- The second node comes from the first one. -/
theorem reachable_nodeWithPeerAgain : Reachable AddsPeers nodeWithPeer nodeWithPeerAgain :=
  reachable_perform _ _ _ (by simp [AddsPeers])

/-- The first node has answered that the peer is connected. -/
theorem added_mem_nodeWithPeer :
    .done (.added ⟨(localPeer 1).text, none⟩) ∈ nodeWithPeer.calls := by
  have hcall : nodeWithPeer.calls[1]?.bind Call.added? = some ⟨(localPeer 1).text, none⟩ := by
    decide +kernel
  obtain ⟨c, hc, hadded⟩ := Option.bind_eq_some_iff.mp hcall
  rw [← Call.eq_of_added? hadded]
  exact List.mem_of_getElem? hc

/-- The running node is asked for its peer once more. -/
theorem addedPeer_staysConnected_iff_nodeWithPeer :
    Reachable ServesPeers newNode nodeWithPeer ∧
      Reachable AddsPeers nodeWithPeer nodeWithPeerAgain ∧
      ∃ k peer, (AddedPeer.mk (localPeer 1).text none).enode = peer.text ∧
        nodeWithPeerAgain.HasAttempt k peer (fun a =>
          a.isFinished = true ∧ a.isConnected = true ∧ .remove ∉ a.history) ∧
        (StaysConnected AddsPeers peer nodeWithPeer nodeWithPeerAgain ↔
          Undisturbed AddsPeers peer nodeWithPeer nodeWithPeerAgain) :=
  ⟨reachable_nodeWithPeer, reachable_nodeWithPeerAgain,
    addedPeer_staysConnected_iff _ exchanging 1000 reachable_nodeWithPeer added_mem_nodeWithPeer
      rfl reachable_nodeWithPeerAgain⟩

set_option maxRecDepth 4000 in
/-- The second attempt removed the peer, and there was no such attempt before. -/
theorem removedIn_nodeWithPeerAgain :
    nodeWithPeerAgain.RemovedIn (localPeer 1) 1 ∧ ¬ nodeWithPeer.RemovedIn (localPeer 1) 1 := by
  constructor
  · have hagain : nodeWithPeerAgain.attempts[1]?.any (fun a =>
        decide (a.slot = 0 ∧ a.peer.samePeer (localPeer 1) = true ∧ .remove ∈ a.history)) = true := by
      decide +kernel
    obtain ⟨a, ha, hremoved⟩ := (Option.any_eq_true _ _).mp hagain
    exact ⟨a, ha, of_decide_eq_true hremoved⟩
  · have hlength : nodeWithPeer.attempts.length = 1 := by decide +kernel
    rintro ⟨a, ha, -⟩
    have hlt := (List.getElem?_eq_some_iff.mp ha).1
    omega

/-- A peer that was added does not stay connected when nothing is done but adding peers: the second
attempt on it cannot have its connection, and removes it. -/
theorem not_staysConnected_of_addsPeers :
    ¬ ∀ (t : InProcess) (cfg : AttemptConfig) (timeout : Nat) (n m : Node InProcess)
      (added : AddedPeer) (peer : PeerRef),
      Reachable ServesPeers (create t cfg timeout) n → .done (.added added) ∈ n.calls →
        added.ok = true → added.enode = peer.text → Reachable AddsPeers n m →
          StaysConnected AddsPeers peer n m := by
  intro h
  have hstays := h _ exchanging 1000 nodeWithPeer nodeWithPeerAgain ⟨(localPeer 1).text, none⟩
    (localPeer 1) reachable_nodeWithPeer added_mem_nodeWithPeer rfl rfl reachable_nodeWithPeerAgain
  obtain ⟨hremoved, hnot⟩ := removedIn_nodeWithPeerAgain
  exact hnot (hstays.removals 1 hremoved)

end Node

end PeerProbe
