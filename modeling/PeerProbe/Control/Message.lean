import PeerProbe.Json.Shape

/-!
# Control messages

The requests and responses of the control port, one JSON object per line, and the parameters of
the two calls that have any. A response carries a result, or an error with a code that programs
can rely on.
-/

namespace PeerProbe.Control

open Json (Tree Value)

/-- One request: a number to recognise the answer by, a method and its parameters. -/
structure Request where
  id : UInt64
  method : String
  params : Value

/-- What went wrong, for programs and for people. -/
structure ErrorBody where
  code : String
  message : String
  deriving DecidableEq, Repr

/-- One answer. -/
structure Response where
  id : UInt64
  result : Option Value
  error : Option ErrorBody

/-- The parameters of a call that adds a peer. -/
structure AddPeer where
  enode : String
  timeoutSecs : Option UInt64
  deriving DecidableEq, Repr

/-- The parameters of a call that removes a peer. -/
structure RemovePeer where
  enode : String
  deriving DecidableEq, Repr

/-! ## Methods and codes -/

namespace Method

/-- Start the node. -/
def start : String := "start"

/-- Stop the node. -/
def stop : String := "stop"

/-- Dial a peer. -/
def addPeer : String := "add_peer"

/-- Disconnect a peer. -/
def removePeer : String := "remove_peer"

end Method

/-- The code of a request that is not one. -/
def badRequest : String := "bad_request"

/-- The code of a method nobody knows. -/
def unknownMethod : String := "unknown_method"

/-! ## Writing -/

/-- The JSON form of a request. -/
def Request.json (r : Request) : Value :=
  .object [("id", .nat r.id.toNat), ("method", .string r.method), ("params", r.params)]

/-- The JSON form of an error. -/
def ErrorBody.json (e : ErrorBody) : Value :=
  .object [("code", .string e.code), ("message", .string e.message)]

/-- The JSON form of a response; what is missing is left out. -/
def Response.json (r : Response) : Value :=
  .object (("id", .nat r.id.toNat) :: ((r.result.map fun v => ("result", v)).toList ++
    (r.error.map fun e => ("error", e.json)).toList))

/-- The JSON form of the parameters that add a peer. -/
def AddPeer.json (p : AddPeer) : Value :=
  .object (("enode", .string p.enode) ::
    (p.timeoutSecs.map fun t => ("timeout_secs", Value.nat t.toNat)).toList)

/-- The JSON form of the parameters that remove a peer. -/
def RemovePeer.json (p : RemovePeer) : Value := .object [("enode", .string p.enode)]

/-! ## Reading -/

/-- A request from its tree. -/
def Request.ofTree? (t : Tree) : Option Request := do
  match ← t.fields? ["id", "method", "params"] with
  | [id, method, params] =>
    let id ← Json.defaultField? Tree.word? 0 id
    let method ← Json.requiredField? Tree.text? method
    let params ← Json.defaultField? Tree.any? .null params
    some { id, method, params }
  | _ => none

/-- An error from its tree. -/
def ErrorBody.ofTree? (t : Tree) : Option ErrorBody := do
  match ← t.fields? ["code", "message"] with
  | [code, message] =>
    let code ← Json.requiredField? Tree.text? code
    let message ← Json.requiredField? Tree.text? message
    some { code, message }
  | _ => none

/-- A response from its tree. -/
def Response.ofTree? (t : Tree) : Option Response := do
  match ← t.fields? ["id", "result", "error"] with
  | [id, result, error] =>
    let id ← Json.requiredField? Tree.word? id
    let result ← Json.optionalField? Tree.any? result
    let error ← Json.optionalField? ErrorBody.ofTree? error
    some { id, result, error }
  | _ => none

/-- Parameters that add a peer, from their tree. -/
def AddPeer.ofTree? (t : Tree) : Option AddPeer := do
  match ← t.fields? ["enode", "timeout_secs"] with
  | [enode, timeout] =>
    let enode ← Json.requiredField? Tree.text? enode
    let timeoutSecs ← Json.optionalField? Tree.word? timeout
    some { enode, timeoutSecs }
  | _ => none

/-- Parameters that remove a peer, from their tree. -/
def RemovePeer.ofTree? (t : Tree) : Option RemovePeer := do
  match ← t.fields? ["enode"] with
  | [enode] =>
    let enode ← Json.requiredField? Tree.text? enode
    some { enode }
  | _ => none

/-- A request from a line. -/
def Request.ofChars? (cs : List Char) : Option Request := (Tree.ofChars? cs).bind ofTree?

/-- A response from a line. -/
def Response.ofChars? (cs : List Char) : Option Response := (Tree.ofChars? cs).bind ofTree?

/-! ## Answers -/

/-- A response with a result. -/
def Response.ok (id : UInt64) (result : Value) : Response := ⟨id, some result, none⟩

/-- A response with an error. -/
def Response.err (id : UInt64) (code message : String) : Response :=
  ⟨id, none, some ⟨code, message⟩⟩

end PeerProbe.Control
