import PeerProbe.Settings.Resolve
import PeerProbe.Tcp.Stream
import PeerProbe.Transport

/-!
# A transport over TCP

Both ends of a fresh stream send their 64-byte identity; after that every message is a frame. The
transport keeps one slot for every identity. An establishment has a generation of its own, and a
later one for the same identity replaces the slot; what is released on behalf of a generation never
touches the slot of another.

Dials and inbound connections are tasks. Each belongs to the session in which it began, from a start
to the stop behind it, but only the wait for a dialled stream looks at the end of the session: an
exchange of identities that is under way goes on.
-/

namespace PeerProbe

/-- From a start to the stop behind it: whether it has ended, and whether inbound connections are
still accepted. -/
structure Session where
  ended : Bool
  accepting : Bool
  deriving DecidableEq, Repr

/-- An established connection. Its number is its generation. -/
structure TcpConn where
  peer : PeerRef
  session : Nat
  cancelled : Bool
  stream : Nat
  deriving DecidableEq

/-- The slot of an identity: its peer, the generation of its connection, and whether the connection
was handed out. -/
structure PeerSlot where
  peer : PeerRef
  generation : ConnId
  handedOut : Bool
  deriving DecidableEq

/-- How far an establishment has come. -/
inductive EstablishPhase where
  | spawned
  | connecting (deadline : Nat)
  | refused (reason : String)
  | connected
  | exchanging (deadline : Nat)
  | identified (peer : PeerRef)
  | numbered (peer : PeerRef) (generation : ConnId)
  | registered (peer : PeerRef)
  | failed (e : TransportError)
  | done
  deriving DecidableEq

/-- A dial or an inbound connection on its way. -/
structure Establishment where
  expected : Option PeerRef
  remote : Endpoint
  session : Nat
  stream : Nat
  phase : EstablishPhase
  deriving DecidableEq

/-- The transport. The next start binds the address `bound`, or fails for a reason. -/
structure Tcp where
  id : NodeId
  name : String
  listenAddress : String
  maxFrame : UInt32
  dialTimeout : Nat
  bound : Except String Endpoint
  feed : Feed
  local? : Option Endpoint
  current : Option Nat
  sessions : List Session
  slots : List (NodeId × PeerSlot)
  conns : List TcpConn
  streams : List ByteStream
  tasks : List Establishment
  log : List Log.Entry

namespace Tcp

/-- A transport that was never started. -/
def create (config : TcpConfig) (id : NodeId) (bound : Except String Endpoint) : Tcp :=
  { id := config.nodeId.getD id, name := config.name, listenAddress := config.listenAddress
    maxFrame := config.maxFrameSize, dialTimeout := config.dialTimeout.millis, bound
    feed := .empty, local? := none, current := none, sessions := [], slots := [], conns := []
    streams := [], tasks := [], log := [] }

/-- Whether the transport runs. -/
def isRunning (t : Tcp) : Bool := t.current.isSome

/-- Whether a session is over. -/
def isOver (t : Tcp) (session : Nat) : Bool := (t.sessions[session]?.map (·.ended)).getD true

/-- Add to the log. -/
def logged (t : Tcp) (level : Log.Level) (action : String) (addr detail : Option String) : Tcp :=
  { t with log := t.log ++ [.network "tcp" level action addr detail] }

/-- Announce something on the feed. -/
def announce (t : Tcp) (change : PeerChange) (p : PeerRef) : Tcp :=
  { t with feed := t.feed.send ⟨change, p⟩ }

/-- The slot of an identity. -/
def slot? (t : Tcp) (id : NodeId) : Option PeerSlot := t.slots.lookup id

/-- The slots without that of an identity. -/
def withoutSlot (t : Tcp) (id : NodeId) : Tcp := { t with slots := t.slots.filter (·.1 ≠ id) }

/-- The slots with that of an identity set. -/
def withSlot (t : Tcp) (id : NodeId) (s : PeerSlot) : Tcp :=
  { t with slots := t.slots.filter (·.1 ≠ id) ++ [(id, s)] }

/-- Cancel a connection. -/
def cancel (t : Tcp) (g : ConnId) : Tcp :=
  { t with conns := t.conns.modify g fun c => { c with cancelled := true } }

/-- Whether a connection is cancelled, by itself or by the end of its session. -/
def isCancelled (t : Tcp) (c : TcpConn) : Bool := c.cancelled || t.isOver c.session

/-- Replace a stream. -/
def setStream (t : Tcp) (i : Nat) (s : ByteStream) : Tcp :=
  { t with streams := t.streams.set i s }

/-- One of the streams. -/
def stream (t : Tcp) (i : Nat) : ByteStream := t.streams.getD i .fresh

/-! ## Releasing -/

/-- Forget the slot of an identity if it has a given generation, and announce the drop. -/
def releaseSlot (t : Tcp) (id : NodeId) (g : ConnId) : Tcp :=
  match t.slot? id with
  | some s =>
    if s.generation = g then
      (((t.withoutSlot id).cancel g).logged .info "peer_disconnected"
        (some s.peer.tcpEndpoint.text) (some ("id=" ++ s.peer.shortId))).announce .dropped s.peer
    else t
  | none => t

/-- End a connection: cancel it and give up its slot. -/
def release (g : ConnId) (t : Tcp) : Tcp :=
  match t.conns[g]? with
  | some c => (t.cancel g).releaseSlot c.peer.id g
  | none => t

/-- Disconnect a peer. The generation in the slot is looked up under the lock and released under
another hold of it; the two are one step here. A slot that is replaced between them is not touched by
the release, which then is that of an old generation, as `Move.release` may bring at any time. -/
def remove (p : PeerRef) (t : Tcp) : Tcp :=
  match t.slot? p.id with
  | some s => t.releaseSlot p.id s.generation
  | none => t

/-- Hand over the connection to a peer, once. -/
def take (p : PeerRef) (t : Tcp) : Option ConnId × Tcp :=
  match t.slot? p.id with
  | some s =>
    if s.handedOut then (none, t)
    else (some s.generation, t.withSlot p.id { s with handedOut := true })
  | none => (none, t)

/-! ## Reading and writing -/

/-- The peer at the other end of a connection. -/
def remote (g : ConnId) (t : Tcp) : PeerRef :=
  (t.conns[g]?.map (·.peer)).getD ⟨Block.zero 64, .v4 .unspecified, 0, 0⟩

/-- Poll a read. Any failure ends the connection. -/
def read (_ : Nat) (g : ConnId) (taken : List UInt8) (t : Tcp) : ReadPoll Tcp :=
  match t.conns[g]? with
  | none => .waiting
  | some c =>
    if t.isCancelled c then .ready (.error .disconnected) (t.release g)
    else match (t.stream c.stream).pollFrame t.maxFrame taken with
      | .frame f s => .ready (.ok f) (t.setStream c.stream s)
      | .failed e s => .ready (.error e) ((t.setStream c.stream s).release g)
      | .ahead taken s => .ahead taken (t.setStream c.stream s)
      | .waiting => .waiting

/-- Send a message. -/
def send (_ : Nat) (g : ConnId) (code : UInt64) (payload : List UInt8) (t : Tcp) :
    Option (Except TransportError Unit × Tcp) :=
  (t.conns[g]?).map fun c =>
    if t.isCancelled c then (.error .disconnected, t)
    else
      let (r, s) := (t.stream c.stream).writeFrame code payload
      (r, t.setStream c.stream s)

/-! ## Establishing -/

/-- The task with another phase. -/
def setPhase (t : Tcp) (i : Nat) (p : EstablishPhase) : Tcp :=
  { t with tasks := t.tasks.modify i fun e => { e with phase := p } }

/-- What comes of an exchange of identities, once something does. -/
def identify? (t : Tcp) (e : Establishment) (deadline now : Nat) :
    Option (Except TransportError PeerRef × Tcp) :=
  let s := t.stream e.stream
  match Block.ofBytes? 64 (s.arrived.take 64) with
  | some id =>
    let t := t.setStream e.stream { s with arrived := s.arrived.drop 64 }
    match e.expected with
    | some want =>
      if want.id = id then some (.ok want, t)
      else some (.error (.dial want.text
        ("remote identified as " ++ Hex.encode (id.bytes.take 4))), t)
    | none => some (.ok ⟨id, e.remote.address, e.remote.port, e.remote.port⟩, t)
  | none =>
    match s.ending with
    | some ending => some (.error ending.error, t)
    | none =>
      if deadline ≤ now then
        some (.error (.dial e.remote.text "identity exchange timed out"), t)
      else none

/-- Begin the exchange of identities: ours goes out first. -/
def beginExchange (t : Tcp) (i now : Nat) (e : Establishment) : Tcp :=
  let (r, s) := (t.stream e.stream).write t.id.bytes
  match r with
  | .ok () => (t.setStream e.stream s).setPhase i (.exchanging (now + t.dialTimeout))
  | .error err => t.setPhase i (.failed err)

/-- Register a connection. One registered before for the same identity is cancelled. -/
def register (t : Tcp) (peer : PeerRef) (g : ConnId) : Tcp :=
  let old := t.slot? peer.id
  let t := t.withSlot peer.id ⟨peer, g, false⟩
  match old with
  | some s => t.cancel s.generation
  | none => t

/-- The direction of an establishment. -/
def direction (e : Establishment) : String := if e.expected.isSome then "outbound" else "inbound"

/-- The end of an establishment that failed. Only a dial is announced. -/
def failStep (t : Tcp) (i : Nat) (e : Establishment) (err : TransportError) : Tcp :=
  let t := t.setPhase i .done
  match e.expected with
  | some p => (t.logged .warn "dial_failed" (some e.remote.text) (some err.message)).announce
      .dropped p
  | none => t.logged .warn "inbound_failed" (some e.remote.text) (some err.message)

/-- One step of an establishment. -/
def establishStep? (t : Tcp) (now i : Nat) (e : Establishment) : Option Tcp :=
  match e.phase with
  | .spawned =>
    match e.expected with
    | some p => some ((t.setPhase i (.connecting (now + t.dialTimeout))).logged .info "dial_start"
        (some e.remote.text) (some ("id=" ++ p.shortId)))
    | none => some (t.beginExchange i now e)
  | .connecting deadline =>
    if t.isOver e.session then some (t.setPhase i .done)
    else if deadline ≤ now then
      some (t.setPhase i (.failed (.dial e.remote.text "connect timed out")))
    else none
  | .refused reason => some (t.setPhase i (.failed (.dial e.remote.text reason)))
  | .connected => some (t.beginExchange i now e)
  | .exchanging deadline =>
    (t.identify? e deadline now).map fun (r, t) =>
      t.setPhase i (match r with
        | .ok peer => .identified peer
        | .error err => .failed err)
  | .identified peer =>
    some { t.setPhase i (.numbered peer t.conns.length) with
      conns := t.conns ++ [⟨peer, e.session, false, e.stream⟩] }
  | .numbered peer g => some ((t.setPhase i (.registered peer)).register peer g)
  | .registered peer =>
    some (((t.setPhase i .done).logged .info "peer_connected" (some e.remote.text)
      (some ("id=" ++ peer.shortId ++ " direction=" ++ direction e))).announce .added peer)
  | .failed err => some (t.failStep i e err)
  | .done => none

/-- The time an establishment waits for. -/
def establishDues (e : Establishment) : List Nat :=
  match e.phase with
  | .connecting deadline => [deadline]
  | .exchanging deadline => [deadline]
  | _ => []

/-- Begin an establishment on a fresh stream. -/
def beginEstablishing (t : Tcp) (expected : Option PeerRef) (remote : Endpoint)
    (session : Nat) : Tcp :=
  { t with
    tasks := t.tasks ++ [⟨expected, remote, session, t.streams.length, .spawned⟩]
    streams := t.streams ++ [.fresh] }

/-- Ask for a connection to a peer. One that is connected already is announced again. -/
def dial (_ : Nat) (p : PeerRef) (t : Tcp) : Tcp :=
  match t.current with
  | none => t.logged .warn "dial_skipped" (some p.tcpEndpoint.text)
      (some TransportError.notRunning.message)
  | some session =>
    if (t.slot? p.id).isSome then t.announce .added p
    else t.beginEstablishing (some p) p.tcpEndpoint session

/-! ## Starting and stopping -/

/-- Start, unless it is running. -/
def start (t : Tcp) : Except TransportError Unit × Tcp :=
  if t.isRunning then (.ok (), t)
  else match t.bound with
    | .error reason => (.error (.listen (PeerProbe.listenAddress t.listenAddress) reason), t)
    | .ok e =>
      (.ok (), { t with
        local? := some e
        current := some t.sessions.length
        sessions := t.sessions ++ [({ ended := false, accepting := true } : Session)]
        feed := t.feed.reopen }.logged .info "listener_bind" (some e.text)
          (some ("id=" ++ Hex.encode (t.id.bytes.take 4))))

/-- Stop, if it is running: all slots are emptied and all connections of the session cancelled. -/
def stop (t : Tcp) : Tcp :=
  match t.current with
  | none => t
  | some session =>
    { t with
      current := none
      local? := none
      slots := []
      sessions := t.sessions.modify session fun s => { s with ended := true }
      feed := t.feed.close }.logged .info "transport_stopped" none none

/-- Our own address: one that stands for all interfaces is shown as the local host. -/
def shownAddress : Address → Address
  | .v4 a => .v4 (if a = .unspecified then .loopback else a)
  | .v6 a => .v6 (if a = .unspecified then .loopback else a)

/-- Our own record while running. -/
def selfRef? (t : Tcp) : Option PeerRef :=
  t.local?.map fun e => ⟨t.id, shownAddress e.address, e.port, e.port⟩

/-- Our own description while running. -/
def nodeInfo? (t : Tcp) : Option NodeInfo := do
  let me ← t.selfRef?
  let e ← t.local?
  some ⟨t.id, t.name, me.text, e.text, [ethProtocol]⟩

/-! ## The network -/

/-- Take what was written to a stream, to send it. -/
def drain (t : Tcp) (i : Nat) : List UInt8 × Tcp :=
  ((t.stream i).written, t.setStream i { t.stream i with written := [] })

/-- Whether a stream is of no more use: no establishment on it is under way, and every connection on
it is cancelled. -/
def isAbandoned (t : Tcp) (i : Nat) : Bool :=
  t.tasks.all (fun e => e.stream ≠ i || e.phase = .done) &&
    t.conns.all fun c => c.stream ≠ i || t.isCancelled c

/-- What the network or another user does: a dialled stream connects or is refused, an inbound one
arrives, bytes arrive, a stream ends or breaks for writing, a session stops accepting, and the
address that the next start finds. -/
inductive Move where
  | connect (task : Nat)
  | refuse (task : Nat) (reason : String)
  | arrive (session : Nat) (remote : Endpoint)
  | deliver (stream : Nat) (bytes : List UInt8)
  | finish (stream : Nat) (e : StreamEnd)
  | breakWrites (stream : Nat) (kind : IoKind) (reason : String)
  | stopAccepting (session : Nat)
  | bind (result : Except String Endpoint)
  | dial (p : PeerRef)
  | remove (p : PeerRef)
  | take (p : PeerRef)
  | read (g : ConnId)
  | send (g : ConnId) (code : UInt64) (payload : List UInt8)
  | release (g : ConnId)

/-- A dialled stream goes on from waiting. -/
def onConnecting (t : Tcp) (i : Nat) (p : EstablishPhase) : Tcp :=
  match t.tasks[i]? with
  | some e =>
    match e.phase with
    | .connecting _ => t.setPhase i p
    | _ => t
  | none => t

/-- An inbound stream arrives in a session that still accepts. -/
def arrive (t : Tcp) (session : Nat) (remote : Endpoint) : Tcp :=
  if (t.sessions[session]?.map (·.accepting)).getD false then
    (t.logged .debug "incoming_connection" (some remote.text) none).beginEstablishing none remote
      session
  else t

/-- A session that is over stops accepting. -/
def stopAccepting (t : Tcp) (session : Nat) : Tcp :=
  if (t.sessions[session]?.map fun s => s.ended && s.accepting).getD false then
    { t with sessions := t.sessions.modify session fun s => { s with accepting := false } }.logged
      .debug "listener_closed" none none
  else t

/-- The transport after a move. -/
def move (now : Nat) (m : Move) (t : Tcp) : Tcp :=
  match m with
  | .connect i => t.onConnecting i .connected
  | .refuse i reason => t.onConnecting i (.refused reason)
  | .arrive session remote => t.arrive session remote
  | .deliver i bytes => t.setStream i ((t.stream i).deliver bytes)
  | .finish i e => t.setStream i ((t.stream i).finish e)
  | .breakWrites i kind reason =>
    t.setStream i { t.stream i with writeFault := some (kind, reason) }
  | .stopAccepting session => t.stopAccepting session
  | .bind result => { t with bound := result }
  | .dial p => t.dial now p
  | .remove p => t.remove p
  | .take p => (t.take p).2
  | .read g =>
    match t.read now g [] with
    | .ready _ t => t
    | .ahead _ t => t
    | .waiting => t
  | .send g code payload => ((t.send now g code payload).map (·.2)).getD t
  | .release g => t.release g

instance : Transport Tcp where
  Move := Move
  move := move
  background now i t := t.tasks[i]?.bind (t.establishStep? now i)
  backgroundDues i t := (t.tasks[i]?.map establishDues).getD []
  backgroundBehind _ _ := false
  backgroundCount t := t.tasks.length
  feed := feed
  withFeed f t := { t with feed := f }
  startDelay _ := 0
  stopDelay _ := 0
  start := start
  stop := stop
  isRunning := isRunning
  selfRef? := selfRef?
  nodeInfo? := nodeInfo?
  dial := dial
  remove := remove
  take := take
  remote := remote
  read := read
  send := send
  readDues _ _ := []
  sendDues _ _ := []
  release := release

end Tcp

end PeerProbe
