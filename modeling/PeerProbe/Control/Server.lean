import PeerProbe.Control.Dispatch
import PeerProbe.Control.Lines
import PeerProbe.Log.Entry
import PeerProbe.Net.Address
import PeerProbe.Text.Utf8

/-!
# A connection of the control port

Each line of a connection that is not blank is answered by one line, in order. While a call is under
way the lines behind it wait. A line that is not UTF-8 ends the connection, and so does a call that
never comes back.
-/

namespace PeerProbe.Control

/-- A call that is under way for a line. -/
structure Pending where
  id : UInt64
  method : String
  deriving DecidableEq, Repr

/-- A connection: where it comes from, what has arrived on it, the call under way, whether it is
closed, and what was written and logged. -/
structure Connection where
  remote : Endpoint
  lines : LineReader
  calling : Option Pending
  closed : Bool
  written : List UInt8
  log : List Log.Entry

/-- What a step of a connection comes to. A call is one that the service is to carry out. -/
inductive ServerStep where
  | quiet (c : Connection)
  | call (order : Order) (c : Connection)

/-- The line of a response. -/
def Response.line (r : Response) : List UInt8 := Utf8.encode r.json.chars ++ [lineFeed]

/-- The entry about an answered line. -/
def answeredEntry (remote : Endpoint) (method : String) (r : Response) : Log.Entry :=
  match r.error with
  | some e => .rpc .warn method (some remote.text) false (some (e.code ++ ": " ++ e.message))
  | none => .rpc .info method (some remote.text) true none

/-- The entry about a control port that was opened. -/
def listenEntry (e : Endpoint) : Log.Entry := .rpc .info "listen" (some e.text) true none

namespace Connection

/-- A fresh connection. -/
def accept (remote : Endpoint) : Connection := ⟨remote, .empty, none, false, [], []⟩

/-- Bytes arrive. -/
def feed (c : Connection) (bytes : List UInt8) : Connection :=
  { c with lines := c.lines.feed bytes }

/-- The client closes its sending side. -/
def finish (c : Connection) : Connection := { c with lines := c.lines.finish }

/-- Answer a line. -/
def respond (c : Connection) (method : String) (r : Response) : Connection :=
  { c with
    calling := none
    written := c.written ++ r.line
    log := c.log ++ [answeredEntry c.remote method r] }

/-- Reading a line failed. -/
def breakOff (c : Connection) (reason : String) : Connection :=
  { c with
    closed := true
    log := c.log ++ [.rpc .warn "read" (some c.remote.text) false (some reason)] }

/-- Handle a line. -/
def handle (c : Connection) (line : List UInt8) : ServerStep :=
  match Utf8.decode line with
  | none => .quiet (c.breakOff Utf8.invalid)
  | some cs =>
    if (Text.trim cs).isEmpty then .quiet c
    else match dispatch cs with
      | .answered r => .quiet (c.respond (methodName cs) r)
      | .call id order => .call order { c with calling := some ⟨id, methodName cs⟩ }

/-- A step between calls, if there is one to make. -/
def step? (c : Connection) : Option ServerStep :=
  if c.closed || c.calling.isSome then none
  else match c.lines.take? with
    | some (line, rest) => some (({ c with lines := rest } : Connection).handle line)
    | none => if c.lines.ended then some (.quiet { c with closed := true }) else none

/-- The call under way comes back, or never does. -/
def resume (c : Connection) : Option Reply → Connection
  | some reply =>
    match c.calling with
    | some p => c.respond p.method (reply.response p.id)
    | none => c
  | none => { c with calling := none, closed := true }

end Connection

/-- A service: what becomes of an order, and the service behind it. -/
abbrev Service (σ : Type) : Type := σ → Order → Option Reply × σ

namespace Connection

variable {σ : Type}

/-- Make one step, with its call carried out at once. -/
def advance (service : Service σ) (s : σ) : ServerStep → σ × Connection
  | .quiet c => (s, c)
  | .call order c => ((service s order).2, c.resume (service s order).1)

/-- Make at most some number of steps. -/
def advanceMany (service : Service σ) : Nat → σ → Connection → σ × Connection
  | 0, s, c => (s, c)
  | n + 1, s, c =>
    match c.step? with
    | none => (s, c)
    | some step => advanceMany service n (advance service s step).1 (advance service s step).2

/-- Serve everything that has arrived. Every step takes a line, and the last one ends the
connection. -/
def serve (service : Service σ) (s : σ) (c : Connection) : σ × Connection :=
  advanceMany service (c.lines.ready.length + 1) s c

/-- Serve pieces of a stream as they arrive. -/
def servePieces (service : Service σ) : σ → Connection → List (List UInt8) → σ × Connection
  | s, c, [] => (s, c)
  | s, c, piece :: rest =>
    let r := (c.feed piece).serve service s
    servePieces service r.1 r.2 rest

/-- Serve a whole connection: pieces of a stream, and then its end. -/
def session (service : Service σ) (s : σ) (remote : Endpoint) (pieces : List (List UInt8)) :
    σ × Connection :=
  let r := servePieces service s (accept remote) pieces
  r.2.finish.serve service r.1

end Connection

end PeerProbe.Control
