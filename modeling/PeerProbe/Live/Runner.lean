import PeerProbe.Live.Journal
import PeerProbe.Live.Socket
import PeerProbe.Node.Schedule
import PeerProbe.Tcp.Basic

/-!
# A node on the network

A runner looks after one node over TCP: it lets the node's tasks run as time goes on, carries bytes
between the node's streams and sockets, dials and accepts for it, and writes its log.
-/

namespace PeerProbe.Live

open Std.Internal.UV

/-- A dial under way for an establishment of the node. -/
structure Dialling where
  task : Nat
  stream : Nat
  socket : TCP.Socket
  connecting : IO.Promise (Except IO.Error Unit)

/-- A node with its sockets. The last two numbers say how much of its two logs is written. -/
structure Runner where
  schedule : Schedule Tcp
  epoch : Nat
  journal : Journal
  listener : Option Listener
  dials : List Dialling
  pipes : List (Nat × Pipe)
  nodeNoted : Nat
  tcpNoted : Nat

namespace Runner

/-- A runner of a stopped node. -/
def create (config : TcpConfig) (attempts : AttemptConfig) (addPeerTimeout : Duration)
    (journal : Journal) : IO Runner := do
  let bytes := (← IO.getRandomBytes 64).toList
  let id := (Block.ofBytes? 64 bytes).getD (.zero 64)
  let node := Node.create (Tcp.create config id (.error "not bound")) attempts addPeerTimeout.millis
  return ⟨.ofNode node, ← IO.monoMsNow, journal, none, [], [], 0, 0⟩

/-- The node. -/
def node (r : Runner) : Node Tcp := r.schedule.node

/-- The node's transport. -/
def tcp (r : Runner) : Tcp := r.node.transport

/-- Do something to the node. -/
def act (r : Runner) (a : Node.Act Tcp) : Runner :=
  { r with schedule := r.schedule.withNode (r.node.act a) }

/-- Let something happen on the network. -/
def move (r : Runner) (m : Tcp.Move) : Runner := r.act (.move m)

/-- Let everything run that can. -/
def settle (r : Runner) : IO Runner := do
  let now := (← IO.monoMsNow) - r.epoch
  return { r with schedule := ((r.schedule.ring now).settle Schedule.fuel).settled }

/-! ## Streams -/

/-- Carry what has come on a stream to the node. -/
def receive (r : Runner) (i : Nat) (p : Pipe) : IO Runner := do
  let (got, p) ← p.received?
  let r := { r with pipes := (i, p) :: r.pipes }
  match got with
  | none => return r
  | some (.ok (some bytes)) => return r.move (.deliver i bytes.toList)
  | some (.ok none) => return r.move (.finish i .closed)
  | some (.error e) => return r.move (.finish i (.broken (kindOf e) (toString e)))

/-- Send what the node has written to a stream. -/
def transmit (r : Runner) (i : Nat) (p : Pipe) : IO Runner := do
  match ← p.sendFault? with
  | some e =>
    return { r with pipes := (i, p) :: r.pipes }.move (.breakWrites i (kindOf e) (toString e))
  | none =>
    let (bytes, tcp) := r.tcp.drain i
    let r := { r with schedule := r.schedule.withNode { r.node with transport := tcp } }
    if bytes.isEmpty then return { r with pipes := (i, p) :: r.pipes }
    else match ← p.send bytes with
      | .ok p => return { r with pipes := (i, p) :: r.pipes }
      | .error e =>
        return { r with pipes := (i, p) :: r.pipes }.move (.breakWrites i (kindOf e) (toString e))

/-- Close a stream that is of no more use. -/
def reclaim (r : Runner) (i : Nat) (p : Pipe) : IO Runner := do
  if r.tcp.isAbandoned i && (← p.isSent) then
    p.close
    return r
  else return { r with pipes := (i, p) :: r.pipes }

/-- Do something with every stream. -/
def eachPipe (f : Runner → Nat → Pipe → IO Runner) (r : Runner) : IO Runner :=
  r.pipes.reverse.foldlM (fun r (i, p) => f r i p) { r with pipes := [] }

/-! ## Dials and inbound connections -/

/-- Begin the dials that the node waits for. -/
def beginDials (r : Runner) : IO Runner := do
  r.tcp.tasks.zipIdx.foldlM (fun r (e, i) => do
    match e.phase with
    | .connecting _ =>
      if r.dials.any (·.task = i) then return r
      else
        let begun ← attempt do
          let socket ← TCP.Socket.new
          return (⟨i, e.stream, socket, ← socket.connect (socketAddress e.remote)⟩ : Dialling)
        match begun with
        | .ok d => return { r with dials := r.dials ++ [d] }
        | .error err => return r.move (.refuse i (toString err))
    | _ => return r) r

/-- See to a dial under way. -/
def pollDial (r : Runner) (d : Dialling) : IO Runner := do
  match ← peek d.connecting with
  | none => return { r with dials := r.dials ++ [d] }
  | some (.error e) => return r.move (.refuse d.task (toString e))
  | some (.ok ()) =>
    let _ ← attempt d.socket.noDelay
    return { r with pipes := (d.stream, ← Pipe.create d.socket) :: r.pipes }.move (.connect d.task)

/-- See to the dials under way. -/
def pollDials (r : Runner) : IO Runner := r.dials.foldlM pollDial { r with dials := [] }

/-- Take in a stream that was accepted. -/
def pollListener (r : Runner) : IO Runner := do
  match r.listener, r.tcp.current with
  | some l, some session =>
    let (accepted, l) ← l.accepted?
    let r := { r with listener := some l }
    match accepted with
    | none => return r
    | some (pipe, remote) =>
      let stream := r.tcp.streams.length
      return { r.move (.arrive session remote) with pipes := (stream, pipe) :: r.pipes }
  | _, _ => return r

/-- Bind the listener that a start needs. -/
def bind (r : Runner) : IO Runner := do
  if r.listener.isSome then return r
  else match ← Listener.bind (listenAddress r.tcp.listenAddress) with
    | .ok l => return { r with listener := some l }.move (.bind (.ok l.endpoint))
    | .error reason => return r.move (.bind (.error reason))

/-- Give up the listener of a node that has stopped. -/
def unbind (r : Runner) : IO Runner := do
  match r.listener with
  | none => return r
  | some l =>
    let starting := r.node.calls.any fun c => match c with
      | .start | .starting _ | .transportStart _ => true
      | _ => false
    if r.tcp.isRunning || starting then return r
    else
      l.close
      return (List.range r.tcp.sessions.length).foldl (fun r i => r.move (.stopAccepting i))
        { r with listener := none }

/-! ## Running -/

/-- Write what the node and its transport have logged since. -/
def writeLog (r : Runner) : IO Runner := do
  let entries := r.tcp.log.drop r.tcpNoted ++ r.node.log.drop r.nodeNoted
  if entries.isEmpty then return r
  else return { r with
    journal := ← r.journal.writeAll entries
    nodeNoted := r.node.log.length
    tcpNoted := r.tcp.log.length }

/-- Look after everything once. -/
def turn (r : Runner) : IO Runner := do
  let r ← r.pollDials
  let r ← r.pollListener
  let r ← r.eachPipe receive
  let r ← r.settle
  let r ← r.beginDials
  let r ← r.eachPipe transmit
  let r ← r.eachPipe reclaim
  let r ← r.unbind
  r.writeLog

/-- Give an order. A start needs its listener first. -/
def order (r : Runner) (o : Order) : IO (Nat × Runner) := do
  let r ← match o with
    | .start | .transportStart => r.bind
    | _ => pure r
  return (r.node.calls.length, r.act (.order o))

/-- What came of a call: nothing yet, or its reply unless its task crashed. -/
def outcome? (r : Runner) (i : Nat) : Option (Option Reply) :=
  match r.node.calls[i]? with
  | some (.done reply) => some (some reply)
  | some .crashed => some none
  | _ => none

/-- Run until a call has come back. -/
partial def await (r : Runner) (i : Nat) : IO (Option Reply × Runner) := do
  let r ← r.turn
  match r.outcome? i with
  | some reply => return (reply, r)
  | none =>
    IO.sleep 1
    await r i

/-- Give an order and wait for what comes of it. -/
def call (r : Runner) (o : Order) : IO (Option Reply × Runner) := do
  let (i, r) ← r.order o
  r.await i

end Runner

end PeerProbe.Live
