import PeerProbe.Control.Server
import PeerProbe.Live.Runner

/-!
# The control port of a running node

Every client has a connection of its own; their calls run on one node side by side.
-/

namespace PeerProbe.Live

open Control (Connection)

/-- A client of the control port, with the number of its call on the node while one is under way. -/
structure Caller where
  connection : Connection
  pipe : Pipe
  call : Option Nat

/-- The control port with its clients. -/
structure ControlPort where
  listener : Listener
  callers : List Caller

namespace Caller

/-- Carry what has come from the client to its connection. -/
def receive (c : Caller) : IO Caller := do
  let (got, pipe) ← c.pipe.received?
  let c := { c with pipe }
  match got with
  | none => return c
  | some (.ok (some bytes)) => return { c with connection := c.connection.feed bytes.toList }
  | some (.ok none) => return { c with connection := c.connection.finish }
  | some (.error e) => return { c with connection := c.connection.breakOff (toString e) }

/-- Take the result of the call under way to the connection. -/
def collect (r : Runner) (c : Caller) : Caller :=
  match c.call.bind r.outcome? with
  | some reply => { c with connection := c.connection.resume reply, call := none }
  | none => c

/-- Handle the lines that have come, up to the next call. -/
partial def serve (r : Runner) (c : Caller) : IO (Caller × Runner) := do
  match c.connection.step? with
  | none => return (c, r)
  | some (.quiet connection) => serve r { c with connection }
  | some (.call o connection) =>
    let (i, r) ← r.order o
    return ({ c with connection, call := some i }, r)

/-- Send what was written, and log it. -/
def transmit (r : Runner) (c : Caller) : IO (Caller × Runner) := do
  let r := { r with journal := ← r.journal.writeAll c.connection.log }
  let bytes := c.connection.written
  let c := { c with connection := { c.connection with written := [], log := [] } }
  if bytes.isEmpty then return (c, r)
  else match ← c.pipe.send bytes with
    | .ok pipe => return ({ c with pipe }, r)
    | .error _ => return ({ c with connection := { c.connection with closed := true } }, r)

end Caller

namespace ControlPort

/-- Open the control port. -/
def bind (address : String) (r : Runner) : IO (Except String (ControlPort × Runner)) := do
  match ← Listener.bind address with
  | .error reason => return .error reason
  | .ok l =>
    let journal ← r.journal.write (Control.listenEntry l.endpoint)
    return .ok (⟨l, []⟩, { r with journal })

/-- Take in a client. -/
def accept (p : ControlPort) : IO ControlPort := do
  let (accepted, listener) ← p.listener.accepted?
  match accepted with
  | none => return { p with listener }
  | some (pipe, remote) =>
    return { p with listener, callers := p.callers ++ [⟨.accept remote, pipe, none⟩] }

/-- Look after a client, and keep it unless it is done. -/
def attend (pr : ControlPort × Runner) (c : Caller) : IO (ControlPort × Runner) := do
  let (p, r) := pr
  let c := (← c.receive).collect r
  let (c, r) ← c.serve r
  let (c, r) ← c.transmit r
  if c.connection.closed && (← c.pipe.isSent) then
    c.pipe.close
    return (p, r)
  else return ({ p with callers := p.callers ++ [c] }, r)

/-- Look after all clients and the node once. -/
def turn (p : ControlPort) (r : Runner) : IO (ControlPort × Runner) := do
  let p ← p.accept
  let (p, r) ← p.callers.foldlM attend ({ p with callers := [] }, r)
  return (p, ← r.turn)

/-- Serve until a promise holds something. -/
partial def serveUntil {α : Type} (stop : IO.Promise α) (p : ControlPort) (r : Runner) :
    IO Runner := do
  if ← stop.isResolved then
    p.listener.close
    return r
  let (p, r) ← p.turn r
  IO.sleep 1
  serveUntil stop p r

end ControlPort

end PeerProbe.Live
