import PeerProbe.Node.Basic

/-!
# The steps of a node

A step lets one task do one thing. Calls that run at the same time interleave in any way, so each
access to shared state is a step of its own: the life cycle is read and swapped in one step, the
transport starts or stops in another, the cached identity is set in a third.
-/

namespace PeerProbe

namespace Node

variable {σ : Type} [Transport σ]

/-! ## Starting and stopping -/

/-- Wait for a time that is set when the call first comes here. -/
def sleeping (n : Node σ) (i : Nat) (wake : Option Nat) (delay : Nat) (again : Option Nat → Call)
    (go : Node σ → Node σ) : Option (Node σ) :=
  match wake with
  | none => if delay = 0 then some (go n) else some (n.setCall i (again (some (n.now + delay))))
  | some w => if w ≤ n.now then some (go n) else none

/-- Claim the start: only a stopped node begins one, a running one answers from its cache. -/
def startStep (n : Node σ) (i : Nat) : Node σ :=
  match n.lifecycle with
  | .stopped => { n.setCall i (.starting none) with lifecycle := .starting }
  | .running => n.setCall i .startCached
  | _ => n.setCall i (.done (.refused .startInProgress))

/-- Answer with the identity of the start that brought the node up. -/
def startCachedStep (n : Node σ) (i : Nat) : Node σ :=
  match n.identity with
  | some identity => n.setCall i (.done (.started identity))
  | none => n.setCall i (.done (.refused .startInProgress))

/-- Start the transport. -/
def startTransport (n : Node σ) (i : Nat) : Node σ :=
  match Transport.start n.transport with
  | (.ok (), t) => { n.setCall i .identifying with transport := t }
  | (.error e, t) => { n.setCall i (.startFailed e) with transport := t }

/-- Give up a start that failed. -/
def startFailedStep (n : Node σ) (i : Nat) (e : TransportError) : Node σ :=
  { n.setCall i (.done (.refused (.transport e))) with lifecycle := .stopped }.logged
    [serviceEntry .error "start_failed" (some e.message)]

/-- Ask the started transport who we are. -/
def identifyStep (n : Node σ) (i : Nat) : Node σ :=
  match Transport.selfRef? n.transport, Transport.nodeInfo? n.transport with
  | some selfRef, some info => n.setCall i (.caching ⟨selfRef, info⟩)
  | _, _ => n.setCall i (.aborting none)

/-- Give up a start that yielded no identity. -/
def abortedStep (n : Node σ) (i : Nat) : Node σ :=
  { n.setCall i (.done (.refused .notStarted)) with lifecycle := .stopped }.logged
    [serviceEntry .error "start_failed" (some "no self identity")]

/-- The node runs. -/
def startDoneStep (n : Node σ) (i : Nat) (identity : Identity) : Node σ :=
  { n.setCall i (.done (.started identity)) with lifecycle := .running }.logged
    [serviceEntry .info "node_started" (some identity.selfRef.text)]

/-- Claim the stop: a node that is not running is left alone. -/
def stopStep (n : Node σ) (i : Nat) : Node σ :=
  match n.lifecycle with
  | .running => { n.setCall i .quiescing with lifecycle := .stopping }
  | _ => n.setCall i (.done .stopped)

/-- The node is stopped. -/
def stopDoneStep (n : Node σ) (i : Nat) : Node σ :=
  { n.setCall i (.done .stopped) with lifecycle := .stopped }.logged
    [serviceEntry .info "node_stopped" none]

/-! ## Peers -/

/-- Read the peer that is to be added. -/
def addPeerStep (n : Node σ) (i : Nat) (enode : String) (timeout : Option Nat) : Node σ :=
  match PeerRef.parse enode with
  | .ok peer => n.setCall i (.addChecked peer timeout)
  | .error (.refused e) => n.setCall i (.done (.refused (.malformedPeerRef e)))
  | .error .crash => n.setCall i .crashed

/-- Only a running node adds peers. -/
def addCheckedStep (n : Node σ) (i : Nat) (peer : PeerRef) (timeout : Option Nat) : Node σ :=
  if n.lifecycle = .running then
    n.setCall i (.claiming .service 0 peer (timeout.getD n.addPeerTimeout))
  else n.setCall i (.done (.refused .notRunning))

/-- Disconnect a peer. -/
def removePeerStep (n : Node σ) (i : Nat) (enode : String) : Node σ :=
  match PeerRef.parse enode with
  | .ok peer =>
    { n.setCall i (.done .removed) with transport := Transport.remove peer n.transport }.logged
      [serviceEntry .info "peer_removed" (some peer.text)]
  | .error (.refused e) => n.setCall i (.done (.refused (.malformedPeerRef e)))
  | .error .crash => n.setCall i .crashed

/-! ## Attempts -/

/-- The reply to a claim that found the slot taken. -/
def busyReply : Purpose → Reply
  | .service => .refused .busy
  | .direct _ => .reported (.error .busy)
  | .command => .verdict false

/-- The log entries about a claim that found the slot taken. -/
def busyEntries (purpose : Purpose) (peer : PeerRef) : List Log.Entry :=
  .network "orchestrator" .warn "attempt_rejected_busy" (some peer.shortId) none ::
    if purpose = .command then
      [commandEntry .error "addpeer" (peer.text ++ ": " ++ AttemptRefusal.busy.message)]
    else []

/-- Claim a slot. -/
def claimStep (n : Node σ) (i : Nat) (purpose : Purpose) (slot : Nat) (peer : PeerRef)
    (timeout : Nat) : Node σ :=
  if n.isBusy slot then (n.setCall i (.done (busyReply purpose))).logged (busyEntries purpose peer)
  else (n.setCall i (.subscribing purpose slot peer timeout)).setBusy slot true

/-- Subscribe for an attempt and begin it. A call of the service looks at the life cycle once
more, since a stop that began before the slot was claimed does not wait for the attempt. -/
def subscribeStep (n : Node σ) (i : Nat) (purpose : Purpose) (slot : Nat) (peer : PeerRef)
    (timeout : Nat) : Node σ :=
  let (subscription, transport) := Transport.subscribe n.transport
  let k := n.attempts.length
  let next : Call :=
    if purpose = .service then .rechecking k peer else .awaiting purpose k peer
  { n.setCall i next with
    transport
    attempts := n.attempts ++ [.create slot peer timeout subscription] }

/-- The second look at the life cycle. -/
def recheckStep (n : Node σ) (i k : Nat) (peer : PeerRef) : Node σ :=
  if n.lifecycle = .running then n.setCall i (.awaiting .service k peer)
  else n.setCall i (.cancelling k)

/-- Cancel an attempt. -/
def cancelAttempt (n : Node σ) (k : Nat) : Node σ :=
  { n with attempts := n.attempts.modify k Attempt.cancel }

/-- Whether an attempt's task has ended. -/
def attemptFinished (n : Node σ) (k : Nat) : Bool := (n.attempts[k]?.map (·.isFinished)).getD false

/-- The service's reply to the report of an attempt, or to a report that never came. -/
def serviceReply (lifecycle : Lifecycle) (peer : PeerRef) : Option AttemptReport → Reply
  | none => .refused (if lifecycle = .running then .cancelled else .notRunning)
  | some report =>
    match report.outcome with
    | .connected _ => .added ⟨peer.text, none⟩
    | .failed (.subscription e) =>
      .refused (if e = .closed ∧ lifecycle ≠ .running then .notRunning else .subscription e)
    | .failed reason => .added ⟨peer.text, some reason.message⟩

/-- The reply of an attempt to a direct user. -/
def directReply : Option AttemptReport → Reply
  | some report => .reported (.ok report)
  | none => .reported (.error .cancelled)

/-- The log entries of the command line about an attempt. -/
def commandEntries (peer : PeerRef) : Option AttemptReport → List Log.Entry
  | none =>
    [commandEntry .error "addpeer" (peer.text ++ ": " ++ AttemptRefusal.cancelled.message)]
  | some report =>
    commandEntry (if report.outcome.isConnected then .info else .warn) "addpeer"
        (peer.text ++ ": " ++ report.outcome.text) ::
      report.mismatches.map fun m => commandEntry .warn "status_mismatch" m.message

/-- The verdict on an attempt. -/
def connected : Option AttemptReport → Bool
  | some report => report.outcome.isConnected
  | none => false

/-- Go on once the report is there or can never come. -/
def answeredStep (n : Node σ) (i k : Nat) (purpose : Purpose) (peer : PeerRef)
    (answer : Option AttemptReport) : Node σ :=
  if purpose = .direct true then n.setCall i (.done (directReply answer))
  else n.setCall i (.joining purpose k peer answer)

/-- Go on once the attempt's task has ended. -/
def joinedStep (n : Node σ) (i : Nat) (purpose : Purpose) (peer : PeerRef)
    (answer : Option AttemptReport) : Node σ :=
  match purpose with
  | .service => n.setCall i (.concluding peer answer)
  | .direct _ => n.setCall i (.done (directReply answer))
  | .command =>
    (n.setCall i (.done (.verdict (connected answer)))).logged (commandEntries peer answer)

/-! ## Tasks -/

/-- One step of a call, unless it has to wait or has ended. -/
def callStep? (n : Node σ) (i : Nat) : Call → Option (Node σ)
  | .start => some (n.startStep i)
  | .startCached => some (n.startCachedStep i)
  | .starting wake =>
    n.sleeping i wake (Transport.startDelay n.transport) .starting (·.startTransport i)
  | .startFailed e => some (n.startFailedStep i e)
  | .identifying => some (n.identifyStep i)
  | .aborting wake =>
    n.sleeping i wake (Transport.stopDelay n.transport) .aborting fun n =>
      { n.setCall i .aborted with transport := Transport.stop n.transport }
  | .aborted => some (n.abortedStep i)
  | .caching identity =>
    some { n.setCall i (.startDone identity) with identity := some identity }
  | .startDone identity => some (n.startDoneStep i identity)
  | .stop => some (n.stopStep i)
  | .quiescing => if n.isBusy 0 then none else some (n.setCall i (.stopping none))
  | .stopping wake =>
    n.sleeping i wake (Transport.stopDelay n.transport) .stopping fun n =>
      { n.setCall i .clearing with transport := Transport.stop n.transport }
  | .clearing => some { n.setCall i .stopDone with identity := none }
  | .stopDone => some (n.stopDoneStep i)
  | .addPeer enode timeout => some (n.addPeerStep i enode timeout)
  | .addChecked peer timeout => some (n.addCheckedStep i peer timeout)
  | .removePeer enode => some (n.removePeerStep i enode)
  | .claiming purpose slot peer timeout => some (n.claimStep i purpose slot peer timeout)
  | .subscribing purpose slot peer timeout => some (n.subscribeStep i purpose slot peer timeout)
  | .rechecking k peer => some (n.recheckStep i k peer)
  | .cancelling k => some ((n.cancelAttempt k).setCall i (.unwinding k))
  | .unwinding k =>
    if n.attemptFinished k then some (n.setCall i (.done (.refused .notRunning))) else none
  | .awaiting purpose k peer =>
    (n.attempts[k]?.bind (·.answer?)).map (n.answeredStep i k purpose peer)
  | .joining purpose k peer answer =>
    if n.attemptFinished k then some (n.joinedStep i purpose peer answer) else none
  | .concluding peer answer =>
    some (n.setCall i (.done (serviceReply n.lifecycle peer answer)))
  | .transportStart wake =>
    n.sleeping i wake (Transport.startDelay n.transport) .transportStart fun n =>
      let (r, t) := Transport.start n.transport
      { n.setCall i (.done (.transportStarted r)) with transport := t }
  | .transportStop wake =>
    n.sleeping i wake (Transport.stopDelay n.transport) .transportStop fun n =>
      { n.setCall i (.done .transportStopped) with transport := Transport.stop n.transport }
  | .quiesce slot => if n.isBusy slot then none else some (n.setCall i (.done .quiet))
  | .crashed => none
  | .done _ => none

/-- One step of an attempt's task. Its end releases the slot. -/
def attemptStep? (n : Node σ) (i : Nat) (a : Attempt) : Option (Node σ) := do
  let cfg ← n.config? a.slot
  let (a', transport, entries, held) ← a.step? cfg n.now n.transport
  let n' := { n with
    transport, attempts := n.attempts.set i a', held := n.held ++ held.toList }.logged entries
  some (if a'.isFinished then n'.setBusy a.slot false else n')

/-- One step of an attempt's watcher. -/
def watcherStep? (n : Node σ) (i : Nat) (a : Attempt) : Option (Node σ) :=
  (a.watcherStep? n.now n.transport).map fun (a', transport, entries) =>
    { n with transport, attempts := n.attempts.set i a' }.logged entries

/-- One step of a watcher that belongs to no attempt. -/
def openWatchStep? (n : Node σ) (i : Nat) (w : OpenWatch) : Option (Node σ) :=
  (w.watcher.step? n.now w.cancelled (Transport.feed n.transport)).map
    fun (watcher, feed, entries) =>
      { n with
        transport := Transport.withFeed feed n.transport
        watches := n.watches.set i { w with watcher } }.logged entries

/-- One step of a held peer's task. -/
def heldStep? (n : Node σ) (i : Nat) (h : HeldPeer) : Option (Node σ) :=
  (h.step? n.now n.transport).map fun (h', transport, entries) =>
    { n with transport, held := n.held.set i h' }.logged entries

/-- One step of a task, unless it has to wait or has ended. -/
def step? (n : Node σ) : Task → Option (Node σ)
  | .attempt i => n.attempts[i]?.bind (n.attemptStep? i)
  | .watcher i => n.attempts[i]?.bind (n.watcherStep? i)
  | .openWatch i => n.watches[i]?.bind (n.openWatchStep? i)
  | .held i => n.held[i]?.bind (n.heldStep? i)
  | .call i => n.calls[i]?.bind (n.callStep? i)
  | .background i =>
    (Transport.background n.now i n.transport).map fun transport => { n with transport }

/-- The times a task waits for. -/
def dues (n : Node σ) : Task → List Nat
  | .attempt i => (n.attempts[i]?.map (·.dues n.transport)).getD []
  | .watcher i => (n.attempts[i]?.map (·.watcher.dues)).getD []
  | .openWatch i => (n.watches[i]?.map (·.watcher.dues)).getD []
  | .held i => (n.held[i]?.map (·.dues n.transport)).getD []
  | .call i =>
    match n.calls[i]? with
    | some (.starting (some w)) => [w]
    | some (.aborting (some w)) => [w]
    | some (.stopping (some w)) => [w]
    | some (.transportStart (some w)) => [w]
    | some (.transportStop (some w)) => [w]
    | _ => []
  | .background i => Transport.backgroundDues i n.transport

/-- How often a task has given up what it waited for and begun anew, its timers with it. -/
def renewals (n : Node σ) : Task → Nat
  | .attempt i => (n.attempts[i]?.map (·.waits)).getD 0
  | .held i => (n.held[i]?.map (·.reads)).getD 0
  | _ => 0

/-- The subscription a task listens to. -/
def subscription? (n : Node σ) : Task → Option Nat
  | .watcher i => n.attempts[i]?.map (·.watcher.subscription)
  | .openWatch i => n.watches[i]?.map (·.watcher.subscription)
  | .held i => n.held[i]?.map (·.subscription)
  | _ => none

/-- Whether a task began behind what the same step announced on the feed. -/
def beganBehind (n : Node σ) : Task → Bool
  | .background i => Transport.backgroundBehind i n.transport
  | _ => false

/-! ## What happens from outside -/

/-- Something that is done to a node. -/
inductive Act (σ : Type) [Transport σ] where
  | order (o : Order)
  | cancelAttempt (i : Nat)
  | watch (target : PeerRef) (subscription timeout : Nat) (cancelled : Bool)
  | cancelWatch (i : Nat)
  | addSlot (config : AttemptConfig)
  | move (m : Transport.Move σ)
  | wait (ms : Nat)

/-- The node after something was done to it. -/
def act (n : Node σ) : Act σ → Node σ
  | .order o => { n with calls := n.calls ++ [o.call] }
  | .cancelAttempt i => n.cancelAttempt i
  | .watch target subscription timeout cancelled =>
    { n with watches := n.watches ++ [⟨.create target subscription timeout, cancelled⟩] }
  | .cancelWatch i =>
    { n with watches := n.watches.modify i fun w => { w with cancelled := true } }
  | .addSlot config => { n with slots := n.slots ++ [⟨config, false⟩] }
  | .move m => { n with transport := Transport.move n.now m n.transport }
  | .wait ms => { n with now := n.now + ms }

/-- One thing that happens: a step of a task, or something that may be done from outside. -/
inductive Happens (allowed : Act σ → Prop) : Node σ → Node σ → Prop where
  | step {n n' : Node σ} (task : Task) (h : n.step? task = some n') : Happens allowed n n'
  | act (n : Node σ) (a : Act σ) (h : allowed a) : Happens allowed n (n.act a)

/-- The states a node can get into from a first one when only some things are done to it. -/
inductive Reachable (allowed : Act σ → Prop) (first : Node σ) : Node σ → Prop where
  | first : Reachable allowed first first
  | next {n n' : Node σ} :
      Reachable allowed first n → Happens allowed n n' → Reachable allowed first n'

end Node

end PeerProbe
