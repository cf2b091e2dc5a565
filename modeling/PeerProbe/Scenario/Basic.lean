import PeerProbe.Control.Dispatch
import PeerProbe.InProcess
import PeerProbe.Node.Schedule

/-!
# Scenarios

A scenario drives one node on a virtual clock, step by step. After every step all tasks run until
each of them waits for time or for a later step, and the state is recorded: what the step came to,
which background calls ended, and what the transport and the log saw.

Subscriptions, remote ends, scripts and connections that the scenario owns have numbers of their
own, in the order in which they came about.
-/

namespace PeerProbe.Scenario

/-- One step of a scenario. -/
inductive Step where
  | wait (ms : Nat)
  | start
  | stop
  | info
  | dial (peer : PeerRef)
  | remove (peer : PeerRef)
  | take (peer : PeerRef)
  | emit (event : PeerEvent) (times : Nat)
  | feed (act : Feed.Act)
  | subscribe
  | unsubscribe (i : Nat)
  | receive (i max : Nat)
  | takeError (i : Nat)
  | attach (peer : PeerRef)
  | attachScript (script : Script)
  | remoteSend (i : Nat) (frame : Frame)
  | remoteRead (i : Nat)
  | remoteClose (i : Nat)
  | connRead (i : Nat)
  | connSend (i : Nat) (code : UInt64) (payload : List UInt8)
  | connDrop (i : Nat)
  | watch (peer : PeerRef) (timeout : Nat) (subscription : Option Nat) (cancelled : Bool)
  | watchCancel (i : Nat)
  | attempt (peer : PeerRef) (timeout : Nat) (reportOnly : Bool)
  | attemptCancel (i : Nat)
  | quiesce
  | request (line : String)
  | command (peer : PeerRef) (timeout : Nat)

/-- What a receiver finds: an event, nothing for now, or the end. -/
inductive Received where
  | event (e : PeerEvent)
  | empty
  | ended

/-- What a step came to. -/
inductive Result where
  | nothing
  | index (i : Nat)
  | info (running : Bool) (self : Option PeerRef) (info : Option NodeInfo)
  | taken (conn : Option (Nat × PeerRef))
  | emitted (delivered : Nat) (last : Option Nat)
  | received (items : List Received)
  | error (e : Option SubscriptionError)
  | sent (r : Option (Except TransportError Unit))
  | read (r : Option (Option (Except TransportError Frame)))
  | began (attempt : Nat) (state : AttemptState)
  | busy

/-- The kinds of background calls; each kind is counted by itself. -/
inductive Kind where
  | attempt
  | command
  | quiesce
  | request
  | transport
  | watch
  deriving DecidableEq, Repr

/-- The name of a kind. -/
def Kind.name : Kind → String
  | .attempt => "attempt"
  | .command => "cli"
  | .quiesce => "quiesce"
  | .request => "rpc"
  | .transport => "transport"
  | .watch => "watch"

/-- What a background call waits for: nothing any more, a call of the node, the same for a control
request, or a watcher. -/
inductive Awaited where
  | response (r : Control.Response)
  | call (i : Nat)
  | request (id : UInt64) (i : Nat)
  | watch (i : Nat)

/-- How a background call ended. -/
inductive Ended where
  | reply (r : Reply)
  | response (r : Control.Response)
  | outcome (o : Option Outcome)

/-- A background call that has not ended. -/
structure Pending where
  kind : Kind
  index : Nat
  awaited : Awaited

/-- A background call that has ended. -/
structure Done where
  kind : Kind
  index : Nat
  time : Nat
  ended : Ended

/-- A scenario between two steps. -/
structure State where
  schedule : Schedule InProcess
  config : AttemptConfig
  subscriptions : List (Option Nat)
  remotes : List ConnId
  scripts : List ConnId
  conns : List (Option ConnId)
  attempts : List Nat
  counts : List (Kind × Nat)
  pending : List Pending

/-- What is recorded after a step. -/
structure Record where
  result : Result
  lifecycle : Lifecycle
  running : Bool
  busy : Bool
  serviceBusy : Bool
  subscribers : Nat
  dials : List PeerRef
  removals : List PeerRef
  attempts : List AttemptState
  done : List Done
  sent : List (Nat × Frame)
  /-- Sorted by subject; entries about one subject stay in order. -/
  events : List Log.Entry

namespace State

/-- A scenario on a fresh node. -/
def create (transport : InProcess) (config : AttemptConfig) (addPeerTimeout : Nat) : State :=
  ⟨.ofNode (.create transport config addPeerTimeout), config, [], [], [], [], [], [], []⟩

/-- The node. -/
def node (s : State) : Node InProcess := s.schedule.node

/-- The transport. -/
def transport (s : State) : InProcess := s.node.transport

/-- The scenario with another node. -/
def withNode (s : State) (n : Node InProcess) : State :=
  { s with schedule := s.schedule.withNode n }

/-- The scenario with another transport. -/
def withTransport (s : State) (t : InProcess) : State :=
  s.withNode { s.node with transport := t }

/-- Do something to the node. -/
def act (s : State) (a : Node.Act InProcess) : State := s.withNode (s.node.act a)

/-- How many background calls of a kind there have been. -/
def count (s : State) (k : Kind) : Nat := (s.counts.lookup k).getD 0

/-- Begin a background call; its number comes first. -/
def pend (s : State) (kind : Kind) (awaited : Awaited) : Nat × State :=
  let index := s.count kind
  (index, { s with
    counts := (kind, index + 1) :: s.counts
    pending := s.pending ++ [⟨kind, index, awaited⟩] })

/-- Give an order and wait for its end in the background. -/
def order (s : State) (kind : Kind) (o : Order) (awaited : Nat → Awaited) :
    Result × State :=
  let i := s.node.calls.length
  let (index, s) := (s.act (.order o)).pend kind (awaited i)
  (.index index, s)

/-- How a background call ended, if it has. -/
def ended? (n : Node InProcess) : Awaited → Option Ended
  | .response r => some (.response r)
  | .call i => (n.calls[i]?.bind Call.reply?).map .reply
  | .request id i => (n.calls[i]?.bind Call.reply?).map fun r => .response (r.response id)
  | .watch i => (n.watches[i]?.bind (·.watcher.result?)).map .outcome

/-- The background calls among some that have ended by now. -/
def collect (n : Node InProcess) (pending : List Pending) (done : List Done) : List Done :=
  done ++ pending.filterMap fun p =>
    if done.any fun d => d.kind = p.kind && d.index = p.index then none
    else (ended? n p.awaited).map fun e => ⟨p.kind, p.index, n.now, e⟩

/-! ## Steps -/

/-- Take events out of a subscription until it has no more or enough were taken. -/
def receiveMany (i : Nat) : Nat → Feed → List Received × Feed
  | 0, f => ([], f)
  | max + 1, f =>
    match f.receive? i with
    | some (e, f) => let (rs, f) := receiveMany i max f; (.event e :: rs, f)
    | none => ([if f.isOver i then .ended else .empty], f)

/-- Send an event several times: how many deliveries there were, and how many the last time, if
there was one. -/
def emitMany (e : PeerEvent) : Nat → Feed → Nat → Option Nat → (Nat × Option Nat) × Feed
  | 0, f, sum, last => ((sum, last), f)
  | n + 1, f, sum, _ => emitMany e n (f.send e) (sum + f.audience) (some f.audience)

/-- The feed replaced. -/
def withFeed (s : State) (f : Feed) : State := s.withTransport { s.transport with feed := f }

/-- The number of a subscription that the scenario owns. -/
def subscription? (s : State) (i : Nat) : Option Nat := s.subscriptions[i]?.bind id

/-- Attach a link; the number of the new connection comes first. -/
def attachLink (s : State) (l : Link) : ConnId × State :=
  let (c, t) := s.transport.attach l
  (c, s.withTransport t)

/-- Begin an attempt. The claim and the subscription happen before anything else runs. -/
def beginAttempt (s : State) (peer : PeerRef) (timeout : Nat) (reportOnly : Bool) :
    Result × State :=
  let k := s.node.attempts.length
  let i := s.node.calls.length
  let s := s.act (.order (.attempt reportOnly 1 peer timeout))
  let s := { s with schedule := (s.schedule.wake none).runTask (.call i) 3 }
  match s.node.attempts[k]? with
  | none => (.busy, s)
  | some a =>
    let (index, s) := s.pend .attempt (.call i)
    (.began index a.state, { s with attempts := s.attempts ++ [k] })

/-- Begin a watch on a subscription of its own or on one that the scenario gives away. -/
def beginWatch (s : State) (peer : PeerRef) (timeout : Nat) (given : Option Nat)
    (cancelled : Bool) : Result × State :=
  let (subscription, s) := match given with
    | some i => ((s.subscription? i).getD s.transport.feed.next,
        { s with subscriptions := s.subscriptions.set i none })
    | none => (s.transport.feed.next, s.withFeed s.transport.feed.subscribe)
  let w := s.node.watches.length
  let (index, s) := (s.act (.watch peer subscription timeout cancelled)).pend .watch (.watch w)
  (.index index, s)

/-- Run a control request in the background. -/
def beginRequest (s : State) (line : String) : Result × State :=
  match Control.dispatch line.toList with
  | .answered r => let (index, s) := s.pend .request (.response r); (.index index, s)
  | .call id o => s.order .request o (.request id)

/-- What the scenario itself does in a step; time has not gone on and no task has run since. -/
def perform (s : State) : Step → Result × State
  | .wait _ => (.nothing, s)
  | .start => s.order .transport .transportStart .call
  | .stop => s.order .transport .transportStop .call
  | .info => (.info s.transport.running s.transport.selfRef? s.transport.nodeInfo?, s)
  | .dial p => (.nothing, s.withTransport (s.transport.dial s.node.now p))
  | .remove p => (.nothing, s.withTransport (s.transport.remove p))
  | .take p =>
    match s.transport.take p with
    | (none, t) => (.taken none, s.withTransport t)
    | (some c, t) =>
      (.taken (some (s.conns.length, t.remote c)),
        { s.withTransport t with conns := s.conns ++ [some c] })
  | .emit e times =>
    let ((delivered, last), f) := emitMany e times s.transport.feed 0 none
    (.emitted delivered last, s.withFeed f)
  | .feed a => (.nothing, s.withFeed (s.transport.feed.act a))
  | .subscribe =>
    (.index s.subscriptions.length,
      { s.withFeed s.transport.feed.subscribe with
        subscriptions := s.subscriptions ++ [some s.transport.feed.next] })
  | .unsubscribe i =>
    match s.subscription? i with
    | some k =>
      (.nothing, { s.withFeed (s.transport.feed.unsubscribe k) with
        subscriptions := s.subscriptions.set i none })
    | none => (.nothing, s)
  | .receive i max =>
    match s.subscription? i with
    | some k => let (rs, f) := receiveMany k max s.transport.feed; (.received rs, s.withFeed f)
    | none => (.received [], s)
  | .takeError i =>
    match s.subscription? i with
    | some k => let (e, f) := s.transport.feed.takeError k; (.error e, s.withFeed f)
    | none => (.error none, s)
  | .attach p =>
    let (c, s) := s.attachLink (.pipe ⟨p, [], [], true, true⟩)
    (.index s.remotes.length, { s with remotes := s.remotes ++ [c] })
  | .attachScript script =>
    let (c, s) := s.attachLink (.script { script with started := s.node.now })
    (.index s.scripts.length, { s with scripts := s.scripts ++ [c] })
  | .remoteSend i f =>
    match s.remotes[i]? with
    | some c => let (r, t) := s.transport.remoteSend c f; (.sent r, s.withTransport t)
    | none => (.sent none, s)
  | .remoteRead i =>
    match s.remotes[i]? with
    | some c => let (r, t) := s.transport.remoteRead c; (.read r, s.withTransport t)
    | none => (.read none, s)
  | .remoteClose i =>
    match s.remotes[i]? with
    | some c => (.nothing, s.withTransport (s.transport.remoteClose c))
    | none => (.nothing, s)
  | .connRead i =>
    match s.conns[i]?.bind id with
    | some c =>
      match s.transport.read s.node.now c [] with
      | .ready item t => (.read (some (some item)), s.withTransport t)
      | _ => (.read (some none), s)
    | none => (.read none, s)
  | .connSend i code payload =>
    match s.conns[i]?.bind id with
    | some c =>
      match s.transport.send s.node.now c code payload with
      | some (r, t) => (.sent (some r), s.withTransport t)
      | none => (.sent none, s)
    | none => (.sent none, s)
  | .connDrop i =>
    match s.conns[i]?.bind id with
    | some c =>
      (.nothing, { s.withTransport (s.transport.release c) with conns := s.conns.set i none })
    | none => (.nothing, s)
  | .watch peer timeout given cancelled => s.beginWatch peer timeout given cancelled
  | .watchCancel i => (.nothing, s.act (.cancelWatch i))
  | .attempt peer timeout reportOnly => s.beginAttempt peer timeout reportOnly
  | .attemptCancel i =>
    match s.attempts[i]? with
    | some k => (.nothing, s.act (.cancelAttempt k))
    | none => (.nothing, s)
  | .quiesce => s.order .quiesce (.quiesce 1) .call
  | .request line => s.beginRequest line
  | .command peer timeout =>
    let slot := s.node.slots.length
    (s.act (.addSlot s.config)).order .command (.command slot peer timeout) .call

/-- The time at which a step is performed. A send on a connection of the scenario's own is performed
once sends go through; everything else is performed at once. -/
def performAt (s : State) : Step → Nat
  | .connSend i _ _ =>
    match s.conns[i]?.bind id with
    | some c => (s.transport.sendDues c).foldl max s.node.now
    | none => s.node.now
  | _ => s.node.now

/-- How far the clock goes on behind a step. -/
def stepTime : Step → Nat
  | .wait ms => ms
  | _ => 0

/-- The order of ended calls: by time, kind and number. -/
def doneLe (a b : Done) : Bool :=
  decide (a.time < b.time) || (a.time == b.time &&
    (decide (a.kind.name < b.kind.name) || (a.kind == b.kind && decide (a.index ≤ b.index))))

/-- The frames that went out on a script since there were so many. -/
def sentSince (before : State) (after : State) : List (Nat × Frame) :=
  (after.scripts.zipIdx.map fun (c, i) =>
    let frames (s : State) : List Frame := match s.transport.links[c]? with
      | some (.script sc) => sc.sent
      | _ => []
    ((frames after).drop (frames before).length).map fun f => (i, f)).flatten

/-- Let the clock go on to a time; what has ended by then is added. -/
def advance (s : State) (limit : Nat) (done : List Done) : State × List Done :=
  let (schedule, done) := s.schedule.advance limit
    (fun sch done => collect sch.node s.pending done) Schedule.fuel done
  ({ s with schedule }, done)

/-- One step with everything that comes before it and follows from it. -/
def step (s : State) (st : Step) : Record × State :=
  let (s₀, done) := s.advance (s.performAt st) []
  let (result, s₁) := s₀.perform st
  let schedule := s₁.schedule.settled
  let done := collect schedule.node s₁.pending done
  let (s₁, done) := { s₁ with schedule }.advance (s₁.node.now + stepTime st) done
  let s₂ : State := { s₁ with
    pending := s₁.pending.filter fun p =>
      !done.any fun d => d.kind = p.kind && d.index = p.index }
  let n := s₂.node
  ({ result
     lifecycle := n.lifecycle
     running := n.transport.running
     busy := n.isBusy 1
     serviceBusy := n.isBusy 0
     subscribers := n.transport.feed.count
     dials := n.transport.dials.drop s.transport.dials.length
     removals := n.transport.removals.drop s.transport.removals.length
     attempts := s₂.attempts.map fun k => ((n.attempts[k]?.map (·.state)).getD .idle)
     done := done.mergeSort doneLe
     sent := sentSince s s₂
     events := (n.log.drop s.node.log.length).mergeSort fun a b => a.subject ≤ b.subject }, s₂)

/-- All steps of a scenario. -/
def run (s : State) : List Step → List Record
  | [] => []
  | st :: rest => let (r, s) := s.step st; r :: s.run rest

end State

end PeerProbe.Scenario
