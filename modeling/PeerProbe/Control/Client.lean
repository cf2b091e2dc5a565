import PeerProbe.Control.Server

/-!
# A client of the control port

A client sends one request line at a time, numbered from one, and takes the next line from the
server as the answer. An answer with another number is refused.
-/

namespace PeerProbe.Control

open Json (Value)

/-- Why a call has no result. -/
inductive CallError where
  | io (reason : String)
  | json
  | closed
  | idMismatch (got want : UInt64)
  | remote (e : ErrorBody)
  deriving DecidableEq

namespace CallError

/-- The wording of a call without a result. -/
def message : CallError → String
  | .io reason => "io: " ++ reason
  | .json => "json: malformed response"
  | .closed => "server closed the connection"
  | .idMismatch got want =>
    "response id " ++ toString got.toNat ++ " does not match request id " ++ toString want.toNat
  | .remote e => e.code ++ ": " ++ e.message

/-- The code with which the server refused the call, if it did. -/
def code? : CallError → Option String
  | .remote e => some e.code
  | _ => none

end CallError

/-- A client: the number of its next call, and what has arrived from the server. -/
structure Client where
  nextId : UInt64
  lines : LineReader
  deriving DecidableEq, Repr

/-- The line of a request. -/
def Request.line (r : Request) : List UInt8 := Utf8.encode r.json.chars ++ [lineFeed]

/-- What an answer means to the call with a number. -/
def Response.outcome (want : UInt64) (r : Response) : Except CallError Value :=
  if r.id ≠ want then .error (.idMismatch r.id want)
  else match r.error with
    | some e => .error (.remote e)
    | none => .ok (r.result.getD .null)

namespace Client

/-- A client that has made no call. -/
def fresh : Client := ⟨1, .empty⟩

/-- The request of the next call. -/
def request (c : Client) (method : String) (params : Value) : Request := ⟨c.nextId, method, params⟩

/-- The client once that request is sent. -/
def sent (c : Client) : Client := { c with nextId := c.nextId + 1 }

/-- What a line from the server means to the call with a number. -/
def readAnswer (want : UInt64) (line : List UInt8) : Except CallError Value :=
  match Utf8.decode line with
  | none => .error (.io Utf8.invalid)
  | some cs =>
    match Response.ofChars? cs with
    | none => .error .json
    | some r => r.outcome want

/-- The end of the call with a number, once a line from the server or the end of the stream is
there. -/
def receive? (c : Client) (want : UInt64) : Option (Except CallError Value × Client) :=
  match c.lines.take? with
  | some (line, rest) => some (readAnswer want line, { c with lines := rest })
  | none => if c.lines.ended then some (.error .closed, c) else none

end Client

/-! ## A client and a server -/

/-- A client on a connection of a server. -/
structure Link (σ : Type) where
  service : σ
  client : Client
  connection : Connection

namespace Link

variable {σ : Type}

/-- A new connection to a service. -/
def connect (s : σ) (remote : Endpoint) : Link σ := ⟨s, .fresh, .accept remote⟩

/-- Make a call: the request line goes to the server, which answers it, and what the server has
written goes to the client. -/
def call (service : Service σ) (l : Link σ) (method : String) (params : Value) :
    Option (Except CallError Value) × Link σ :=
  let request := l.client.request method params
  let served := (l.connection.feed request.line).serve service l.service
  let arrived := l.client.sent.lines.feed served.2.written
  let lines := if served.2.closed then arrived.finish else arrived
  let client : Client := { l.client.sent with lines }
  let connection : Connection := { served.2 with written := [] }
  match client.receive? request.id with
  | some (r, client) => (some r, ⟨served.1, client, connection⟩)
  | none => (none, ⟨served.1, client, connection⟩)

end Link

end PeerProbe.Control
