import PeerProbe.Service.Basic

/-!
# From a request line to a call

A line is read as a request, its method chosen and its parameters read. What is wrong with a line
is answered at once and touches nothing; everything else becomes one call of the service.
-/

namespace PeerProbe.Control

/-- What a line asks for: an answer that is known at once, or a call. -/
inductive Dispatched where
  | answered (r : Response)
  | call (id : UInt64) (order : Order)

/-- The answer to a line that is no request. -/
def malformed : Response := .err 0 badRequest "malformed request"

/-- How the answer to unusable parameters begins. -/
def invalidParams : String := "invalid params"

/-- The answer to unusable parameters. -/
def unusable (id : UInt64) : Response := .err id badRequest (invalidParams ++ ": unexpected shape")

/-- The answer to an unknown method. -/
def unknown (id : UInt64) (method : String) : Response :=
  .err id unknownMethod ("unknown method '" ++ method ++ "'")

/-- What a request asks for. Seconds become milliseconds. -/
def dispatchRequest (r : Request) : Dispatched :=
  if r.method = Method.start then .call r.id .start
  else if r.method = Method.stop then .call r.id .stop
  else if r.method = Method.addPeer then
    match AddPeer.ofTree? r.params.tree with
    | some p => .call r.id (.addPeer p.enode (p.timeoutSecs.map fun s => s.toNat * 1000))
    | none => .answered (unusable r.id)
  else if r.method = Method.removePeer then
    match RemovePeer.ofTree? r.params.tree with
    | some p => .call r.id (.removePeer p.enode)
    | none => .answered (unusable r.id)
  else .answered (unknown r.id r.method)

/-- What a line asks for. -/
def dispatch (line : List Char) : Dispatched :=
  match Request.ofChars? line with
  | none => .answered malformed
  | some r => dispatchRequest r

/-- The method of a line, for the log. -/
def methodName (line : List Char) : String :=
  match Request.ofChars? line with
  | none => "<malformed>"
  | some r => r.method

end PeerProbe.Control
