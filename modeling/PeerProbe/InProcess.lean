import PeerProbe.Transport
import PeerProbe.Wire.Script

/-!
# A transport inside one process

Dials are recorded and answered by rules that say what the network does; connections are pipes
whose other end is at hand, or follow a script. Connections are attached for a peer and handed
out once. Removing a peer drops what is attached for it and announces the drop if there was
anything, or if its connection had been handed out.
-/

namespace PeerProbe

/-- A pipe to a peer: what is on its way in each direction, and which ends are open. -/
structure Pipe where
  peer : PeerRef
  inbound : List Frame
  outbound : List Frame
  isOpen : Bool
  remoteOpen : Bool
  deriving DecidableEq

/-- A connection inside the process. -/
inductive Link where
  | pipe (p : Pipe)
  | script (s : Script)

/-- What comes of a dial: an event about the dialled peer or another one, or an end of all
subscriptions. -/
inductive DialEffect where
  | event (change : PeerChange) (about : Option PeerRef)
  | fail (e : SubscriptionError)
  | close
  deriving DecidableEq

/-- The effect of dialling a peer on the feed. -/
def DialEffect.act (p : PeerRef) : DialEffect → Feed.Act
  | .event change about => .send ⟨change, about.getD p⟩
  | .fail e => .fail e
  | .close => .close

/-- What the network does about a dial, for every peer or for one identity, at once or after a
delay. -/
structure DialRule where
  only : Option NodeId
  after : Option Nat
  effect : DialEffect
  deriving DecidableEq

/-- A delayed effect of a dial: its task has not run yet, sleeps, or has ended. A task that has
not run yet knows whether an earlier rule acted on the feed in the same dial. -/
inductive Delayed where
  | spawned (after : Nat) (effect : Feed.Act) (behind : Bool)
  | sleeping (due : Nat) (effect : Feed.Act)
  | done

/-- The transport. -/
structure InProcess where
  self : Option PeerRef
  startError : Option String
  startDelay : Nat
  stopDelay : Nat
  rules : List DialRule
  feed : Feed
  running : Bool
  dials : List PeerRef
  removals : List PeerRef
  attached : List (NodeId × ConnId)
  taken : List NodeId
  links : List Link
  delayed : List Delayed

namespace InProcess

/-- A transport that is not running and has no connections. -/
def create (self : Option PeerRef) (rules : List DialRule) : InProcess :=
  { self, startError := none, startDelay := 0, stopDelay := 0, rules, feed := .empty
    running := false, dials := [], removals := [], attached := [], taken := [], links := []
    delayed := [] }

/-! ## Links -/

/-- The peer at the other end of a link. -/
def linkPeer : Link → PeerRef
  | .pipe p => p.peer
  | .script s => s.peer

/-- The placeholder for a connection number nobody has. -/
def nobody : PeerRef := ⟨Block.zero 64, .v4 .unspecified, 0, 0⟩

/-- The peer at the other end of a connection. -/
def remote (c : ConnId) (t : InProcess) : PeerRef := (t.links[c]?.map linkPeer).getD nobody

/-- The transport with one link replaced. -/
def setLink (t : InProcess) (c : ConnId) (l : Link) : InProcess :=
  { t with links := t.links.set c l }

/-- Poll a read. Frames arrive whole, so nothing is ever taken halfway. -/
def read (now : Nat) (c : ConnId) (_ : List UInt8) (t : InProcess) : ReadPoll InProcess :=
  match t.links[c]? with
  | some (.pipe p) =>
    match p.inbound with
    | f :: rest => .ready (.ok f) (t.setLink c (.pipe { p with inbound := rest }))
    | [] => if p.remoteOpen then .waiting else .ready (.error .eof) t
  | some (.script s) =>
    match s.read? now with
    | some (item, s) => .ready item (t.setLink c (.script s))
    | none => .waiting
  | none => .waiting

/-- Poll a send. -/
def send (now : Nat) (c : ConnId) (code : UInt64) (payload : List UInt8) (t : InProcess) :
    Option (Except TransportError Unit × InProcess) :=
  let f := Frame.ofPayload code payload
  match t.links[c]? with
  | some (.pipe p) =>
    if p.remoteOpen then
      some (.ok (), t.setLink c (.pipe { p with outbound := p.outbound ++ [f] }))
    else some (.error .disconnected, t)
  | some (.script s) => (s.send? now f).map fun (r, s) => (r, t.setLink c (.script s))
  | none => none

/-- The times at which a read of a scripted connection may go on. -/
def readDues (c : ConnId) (t : InProcess) : List Nat :=
  match t.links[c]? with
  | some (.script s) => s.readDue
  | _ => []

/-- The time at which sends on a scripted connection go through. -/
def sendDues (c : ConnId) (t : InProcess) : List Nat :=
  match t.links[c]? with
  | some (.script s) => [s.sendDue]
  | _ => []

/-- Let go of our end. -/
def release (c : ConnId) (t : InProcess) : InProcess :=
  match t.links[c]? with
  | some (.pipe p) => t.setLink c (.pipe { p with isOpen := false, inbound := [] })
  | _ => t

/-! ## Peers -/

/-- The connection attached for an identity. -/
def attachedFor? (t : InProcess) (id : NodeId) : Option ConnId := t.attached.lookup id

/-- Detach what is attached for an identity. -/
def detach (t : InProcess) (id : NodeId) : InProcess :=
  { t with attached := t.attached.filter (·.1 ≠ id) }

/-- Attach a link for its peer; one attached before is dropped. The number of the new connection
comes first. -/
def attach (l : Link) (t : InProcess) : ConnId × InProcess :=
  let id := (linkPeer l).id
  let c := t.links.length
  let t := match t.attachedFor? id with
    | some old => t.release old
    | none => t
  let t := t.detach id
  (c, { t with attached := t.attached ++ [(id, c)], links := t.links ++ [l] })

/-- Hand over the connection to a peer. -/
def take (p : PeerRef) (t : InProcess) : Option ConnId × InProcess :=
  match t.attachedFor? p.id with
  | some c => (some c, { t.detach p.id with taken := p.id :: t.taken })
  | none => (none, t)

/-- Disconnect a peer. -/
def remove (p : PeerRef) (t : InProcess) : InProcess :=
  let t := { t with removals := t.removals ++ [p] }
  let had := t.taken.contains p.id || (t.attachedFor? p.id).isSome
  let t := match t.attachedFor? p.id with
    | some c => (t.release c).detach p.id
    | none => t
  let t := { t with taken := t.taken.filter (· ≠ p.id) }
  if had then { t with feed := t.feed.send ⟨.dropped, p⟩ } else t

/-- The answers of rules to a dial, in order; the flag tells whether one has acted on the feed. -/
def applyRules (p : PeerRef) : Bool → List DialRule → InProcess → InProcess
  | _, [], t => t
  | acted, r :: rest, t =>
    if r.only.all (· = p.id) then
      match r.after with
      | none => applyRules p true rest { t with feed := t.feed.act (r.effect.act p) }
      | some ms =>
        let later : Delayed := .spawned ms (r.effect.act p) acted
        applyRules p acted rest { t with delayed := t.delayed ++ [later] }
    else applyRules p acted rest t

/-- Dial a peer. -/
def dial (_ : Nat) (p : PeerRef) (t : InProcess) : InProcess :=
  applyRules p false t.rules { t with dials := t.dials ++ [p] }

/-- One step of a delayed effect. -/
def background (now i : Nat) (t : InProcess) : Option InProcess :=
  match t.delayed[i]? with
  | some (.spawned after effect _) =>
    some { t with delayed := t.delayed.set i (.sleeping (now + after) effect) }
  | some (.sleeping due effect) =>
    if due ≤ now then
      some { t with delayed := t.delayed.set i .done, feed := t.feed.act effect }
    else none
  | _ => none

/-- The time a delayed effect waits for. -/
def backgroundDues (i : Nat) (t : InProcess) : List Nat :=
  match t.delayed[i]? with
  | some (.sleeping due _) => [due]
  | _ => []

/-- Whether a delayed effect that has not run yet began behind the feed's listeners. -/
def backgroundBehind (i : Nat) (t : InProcess) : Bool :=
  match t.delayed[i]? with
  | some (.spawned _ _ behind) => behind
  | _ => false

/-! ## Starting and stopping -/

/-- Start, unless it is running or made to fail. -/
def start (t : InProcess) : Except TransportError Unit × InProcess :=
  match t.startError with
  | some reason => (.error (.listen "memory" reason), t)
  | none =>
    if t.running then (.ok (), t) else (.ok (), { t with running := true, feed := t.feed.reopen })

/-- Stop, if it is running. Attached connections are dropped; those handed out are not. -/
def stop (t : InProcess) : InProcess :=
  if t.running then
    let t := { t with running := false, feed := t.feed.close }
    let t := t.attached.foldl (fun t a => t.release a.2) t
    { t with attached := [], taken := [] }
  else t

/-- Our own record while running. -/
def selfRef? (t : InProcess) : Option PeerRef := if t.running then t.self else none

/-- Our own description while running. -/
def nodeInfo? (t : InProcess) : Option NodeInfo :=
  t.selfRef?.map fun p => ⟨p.id, defaultNodeName, p.text, p.tcpEndpoint.text, [ethProtocol]⟩

/-! ## The other ends -/

/-- The remote end of a pipe sends a frame; nothing comes back from an end that was closed. -/
def remoteSend (c : ConnId) (f : Frame) (t : InProcess) :
    Option (Except TransportError Unit) × InProcess :=
  match t.links[c]? with
  | some (.pipe p) =>
    if !p.remoteOpen then (none, t)
    else if p.isOpen then
      (some (.ok ()), t.setLink c (.pipe { p with inbound := p.inbound ++ [f] }))
    else (some (.error .disconnected), t)
  | _ => (none, t)

/-- The remote end of a pipe reads; the inner option is empty while nothing has come. -/
def remoteRead (c : ConnId) (t : InProcess) :
    Option (Option (Except TransportError Frame)) × InProcess :=
  match t.links[c]? with
  | some (.pipe p) =>
    if !p.remoteOpen then (none, t)
    else match p.outbound with
      | f :: rest => (some (some (.ok f)), t.setLink c (.pipe { p with outbound := rest }))
      | [] => (some (if p.isOpen then none else some (.error .eof)), t)
  | _ => (none, t)

/-- The remote end of a pipe is closed. -/
def remoteClose (c : ConnId) (t : InProcess) : InProcess :=
  match t.links[c]? with
  | some (.pipe p) => t.setLink c (.pipe { p with remoteOpen := false, outbound := [] })
  | _ => t

/-- What happens to the transport from outside: on the feed, at the remote ends, or through
another user who dials, removes, takes, reads, sends and lets go. -/
inductive Move where
  | feed (a : Feed.Act)
  | subscribe
  | receive (i : Nat)
  | takeError (i : Nat)
  | unsubscribe (i : Nat)
  | attach (l : Link)
  | remoteSend (c : ConnId) (f : Frame)
  | remoteRead (c : ConnId)
  | remoteClose (c : ConnId)
  | dial (p : PeerRef)
  | remove (p : PeerRef)
  | take (p : PeerRef)
  | read (c : ConnId)
  | send (c : ConnId) (code : UInt64) (payload : List UInt8)
  | release (c : ConnId)

/-- The transport after a move. -/
def move (now : Nat) (m : Move) (t : InProcess) : InProcess :=
  match m with
  | .feed a => { t with feed := t.feed.act a }
  | .subscribe => { t with feed := t.feed.subscribe }
  | .receive i => { t with feed := ((t.feed.receive? i).map (·.2)).getD t.feed }
  | .takeError i => { t with feed := (t.feed.takeError i).2 }
  | .unsubscribe i => { t with feed := t.feed.unsubscribe i }
  | .attach l => (t.attach l).2
  | .remoteSend c f => (t.remoteSend c f).2
  | .remoteRead c => (t.remoteRead c).2
  | .remoteClose c => t.remoteClose c
  | .dial p => t.dial now p
  | .remove p => t.remove p
  | .take p => (t.take p).2
  | .read c =>
    match t.read now c [] with
    | .ready _ t => t
    | .ahead _ t => t
    | .waiting => t
  | .send c code payload => ((t.send now c code payload).map (·.2)).getD t
  | .release c => t.release c

instance : Transport InProcess where
  Move := Move
  move := move
  background := background
  backgroundDues := backgroundDues
  backgroundBehind := backgroundBehind
  backgroundCount t := t.delayed.length
  feed := feed
  withFeed f t := { t with feed := f }
  startDelay := startDelay
  stopDelay := stopDelay
  start := start
  stop := stop
  isRunning := running
  selfRef? := selfRef?
  nodeInfo? := nodeInfo?
  dial := dial
  remove := remove
  take := take
  remote := remote
  read := read
  send := send
  readDues := readDues
  sendDues := sendDues
  release := release

end InProcess

end PeerProbe
