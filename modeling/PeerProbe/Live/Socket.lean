import PeerProbe.Net.Address
import PeerProbe.Wire.Error
import Std.Internal.UV.DNS
import Std.Internal.UV.TCP
import Std.Internal.UV.UDP

/-!
# Sockets

Endpoints as the system's socket addresses, and streams, listeners and datagram sockets that are
polled. Every wait is a look at a promise, so one loop can look after all of them.
-/

namespace PeerProbe.Live

open Std.Net Std.Internal.UV

/-! ## Addresses -/

/-- An endpoint as the system's address. -/
def socketAddress (e : Endpoint) : SocketAddress :=
  match e.address with
  | .v4 a => .v4 ⟨.ofParts a.a a.b a.c a.d, e.port⟩
  | .v6 a =>
    let g (i : Nat) : UInt16 := a.groups.getD i 0
    .v6 ⟨.ofParts (g 0) (g 1) (g 2) (g 3) (g 4) (g 5) (g 6) (g 7), e.port⟩

/-- The system's IP address as an address. -/
def addressOf : IPAddr → Address
  | .v4 a => .v4 ⟨a.octets[0], a.octets[1], a.octets[2], a.octets[3]⟩
  | .v6 a =>
    .v6 ⟨[a.segments[0], a.segments[1], a.segments[2], a.segments[3], a.segments[4],
      a.segments[5], a.segments[6], a.segments[7]], rfl⟩

/-- The system's address as an endpoint. -/
def endpointOf : SocketAddress → Endpoint
  | .v4 a => ⟨addressOf (.v4 a.addr), a.port⟩
  | .v6 a => ⟨addressOf (.v6 a.addr), a.port⟩

/-- The host and the port of an address text, parted at the last colon. -/
def hostAndPort? (text : String) : Option (String × UInt16) := do
  let (port, host) ← Text.cut? ':' text.toList.reverse
  let n ← Text.unsigned? 65536 port.reverse
  some (String.ofList host.reverse, UInt16.ofNat n)

/-! ## Waiting -/

/-- What a promise holds, if it holds something yet. -/
def peek {α : Type} (p : IO.Promise α) : IO (Option α) := do
  if ← p.isResolved then return p.result?.get else return none

/-- Wait for a promise for some milliseconds. -/
partial def await {α : Type} (p : IO.Promise α) (ms : Nat) : IO (Option α) := do
  match ← peek p with
  | some a => return some a
  | none =>
    if ms = 0 then return none
    IO.sleep 1
    await p (ms - 1)

/-- The milliseconds that looking up a host may take. -/
def lookupLimit : Nat := 10000

/-- The endpoint that an address text names. -/
def resolve (text : String) : IO (Except String Endpoint) := do
  match Endpoint.parse? text.toList with
  | some e => return .ok e
  | none =>
    match hostAndPort? text with
    | none => return .error "invalid socket address"
    | some (host, port) =>
      match ← await (← DNS.getAddrInfo host "" 0) lookupLimit with
      | some (.ok found) =>
        match found[0]? with
        | some a => return .ok ⟨addressOf a, port⟩
        | none => return .error "no address for the host"
      | some (.error e) => return .error (toString e)
      | none => return .error "looking up the host timed out"

/-- The kind of a fault. -/
def kindOf : IO.Error → IoKind
  | .unexpectedEof => .unexpectedEof
  | .resourceVanished _ _ => .connectionReset
  | _ => .other

/-- Run something that may fail. -/
def attempt {α : Type} (act : IO α) : IO (Except IO.Error α) := do
  try return .ok (← act) catch e => return .error e

/-! ## Streams -/

/-- The most bytes that one read of a stream takes. -/
def readSize : UInt64 := 65536

/-- A connected stream with its read under way and its last send. -/
structure Pipe where
  socket : TCP.Socket
  receiving : Option (IO.Promise (Except IO.Error (Option ByteArray)))
  sending : Option (IO.Promise (Except IO.Error Unit))

namespace Pipe

/-- A connected stream. -/
def create (socket : TCP.Socket) : IO Pipe := do
  let receiving ← attempt (socket.recv? readSize)
  return ⟨socket, receiving.toOption, none⟩

/-- What has come: bytes, the end, or a fault. The next read begins after bytes only. -/
def received? (p : Pipe) : IO (Option (Except IO.Error (Option ByteArray)) × Pipe) := do
  match p.receiving with
  | none => return (none, p)
  | some promise =>
    match ← peek promise with
    | none => return (none, p)
    | some (.ok (some bytes)) =>
      match ← attempt (p.socket.recv? readSize) with
      | .ok next => return (some (.ok (some bytes)), { p with receiving := some next })
      | .error _ => return (some (.ok (some bytes)), { p with receiving := none })
    | some r => return (some r, { p with receiving := none })

/-- Send bytes. -/
def send (p : Pipe) (bytes : List UInt8) : IO (Except IO.Error Pipe) := do
  match ← attempt (p.socket.send #[⟨bytes.toArray⟩]) with
  | .ok sending => return .ok { p with sending := some sending }
  | .error e => return .error e

/-- The fault of the last send, if it had one. -/
def sendFault? (p : Pipe) : IO (Option IO.Error) := do
  match p.sending with
  | none => return none
  | some promise =>
    match ← peek promise with
    | some (.error e) => return some e
    | _ => return none

/-- Whether everything was sent. -/
def isSent (p : Pipe) : IO Bool := do
  match p.sending with
  | none => return true
  | some promise => promise.isResolved

/-- Close the stream. -/
def close (p : Pipe) : IO Unit := do
  let _ ← attempt p.socket.cancelRecv
  let _ ← attempt p.socket.shutdown

end Pipe

/-- A listener with its accept under way. -/
structure Listener where
  socket : TCP.Socket
  endpoint : Endpoint
  accepting : IO.Promise (Except IO.Error TCP.Socket)

namespace Listener

/-- Listen at an address. -/
def bind (address : String) : IO (Except String Listener) := do
  match ← resolve address with
  | .error reason => return .error reason
  | .ok e =>
    let opened ← attempt do
      let socket ← TCP.Socket.new
      socket.bind (socketAddress e)
      socket.listen 1024
      let name ← socket.getSockName
      return (⟨socket, endpointOf name, ← socket.accept⟩ : Listener)
    match opened with
    | .ok l => return .ok l
    | .error e => return .error (toString e)

/-- The stream that was accepted, if one was, with its other end. -/
def accepted? (l : Listener) : IO (Option (Pipe × Endpoint) × Listener) := do
  match ← peek l.accepting with
  | none => return (none, l)
  | some r =>
    let l := { l with accepting := ← l.socket.accept }
    match r with
    | .error _ => return (none, l)
    | .ok socket =>
      match ← attempt socket.getPeerName with
      | .ok name => return (some (← Pipe.create socket, endpointOf name), l)
      | .error _ => return (none, l)

/-- Stop listening. -/
def close (l : Listener) : IO Unit := do
  let _ ← attempt l.socket.cancelAccept

end Listener

end PeerProbe.Live
