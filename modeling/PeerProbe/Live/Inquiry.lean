import PeerProbe.Command.Task
import PeerProbe.Live.Journal
import PeerProbe.Live.Socket

/-!
# Probing over the network

A discovery probe on a datagram socket: its packets are sent, what comes is given to it, and its
waits expire.
-/

namespace PeerProbe.Live

open Discovery Std.Internal.UV

/-- A running probe: its socket with the receive under way, when its current wait began, and when it
was pinged. Times are in nanoseconds. -/
structure Inquiry where
  socket : UDP.Socket
  receiving : IO.Promise (Except IO.Error (ByteArray × Option Std.Net.SocketAddress))
  probe : Probe
  since : Nat
  journal : Journal

namespace Inquiry

/-- Bind a datagram socket. -/
def bindSocket (address : String) : IO (Except Error (UDP.Socket × Endpoint)) := do
  match ← resolve address with
  | .error reason => return .error (.bind address reason)
  | .ok e =>
    let bound ← attempt do
      let socket ← UDP.Socket.new
      socket.bind (socketAddress e)
      return (socket, endpointOf (← socket.getSockName))
    match bound with
    | .ok b => return .ok b
    | .error err => return .error (.bind address (toString err))

/-- Send the packets of a step to the target and write its log. -/
def carry (q : Inquiry) (s : ProbeStep) : IO (Except Error Inquiry) := do
  let q := { q with probe := s.probe, journal := ← q.journal.writeAll s.entries }
  for p in s.sends do
    let target := socketAddress s.probe.target.udpEndpoint
    let sent ← attempt do
      let bytes : ByteArray := ⟨(Utf8.encode p.chars).toArray⟩
      let _ ← await (← q.socket.send #[bytes] (some target)) 1000
    if let .error e := sent then return .error (.io (toString e))
  return .ok q

/-- Begin to wait anew. -/
def waitFrom (q : Inquiry) (now : Nat) : Inquiry := { q with since := now }

/-- Look at the socket and the clock once. `none` stands for the end of the probe's task. -/
def turn (q : Inquiry) : IO (Option (Except Error Inquiry)) := do
  let now ← IO.monoNanosNow
  match ← peek q.receiving with
  | some (.error e) => return some (.error (.io (toString e)))
  | some (.ok (bytes, source)) =>
    let q := { q with receiving := ← q.socket.recv maxPacketSize.toUInt64 }
    match source with
    | none => return some (.ok q)
    | some source =>
      match q.probe.receive? ⟨now - q.since⟩ (endpointOf source) bytes.toList with
      | none => return none
      | some s =>
        match ← q.carry s with
        | .error e => return some (.error e)
        | .ok q => return some (.ok (if s.sends.isEmpty then q else q.waitFrom now))
  | none =>
    if q.since + q.probe.limit.nanos ≤ now then return some (← q.carry q.probe.expire)
    else return some (.ok q)

/-- Run a probe to its end. A ping is answered by the time it took. -/
partial def run (q : Inquiry) (started : Nat) :
    IO (Option (Except Error Command.Finding × Journal)) := do
  match q.probe.phase with
  | .done (.error e) => return some (.error e, q.journal)
  | .done (.ok nodes) =>
    let elapsed : Duration := ⟨(← IO.monoNanosNow) - started⟩
    match q.probe.goal with
    | .ping => return some (.ok (.alive elapsed), q.journal)
    | .findNode _ => return some (.ok (.nodes nodes), q.journal)
  | _ =>
    match ← q.turn with
    | none => return none
    | some (.error e) => return some (.error e, q.journal)
    | some (.ok q) =>
      IO.sleep 1
      run q started

/-- Probe a target on a bound socket. -/
def start (socket : UDP.Socket) (self target : PeerRef) (goal : Goal) (limit : Duration)
    (journal : Journal) : IO (Option (Except Error Command.Finding × Journal)) := do
  let nonce := (← IO.getRandomBytes 8).toList.foldl (fun n b => n * 256 + UInt64.ofNat b.toNat) 0
  let step := Probe.start self target goal limit nonce
  let now ← IO.monoNanosNow
  let q : Inquiry := ⟨socket, ← socket.recv maxPacketSize.toUInt64, step.probe, now, journal⟩
  match ← q.carry step with
  | .error e => return some (.error e, journal)
  | .ok q => q.run now

end Inquiry

end PeerProbe.Live
