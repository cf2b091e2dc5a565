import PeerProbe.Text.Decimal

/-!
# Transport errors

What can go wrong between two ends of a connection. A stream that ends where more was expected
counts as closed by the remote, whichever layer noticed it.
-/

namespace PeerProbe

/-- The kinds of input and output faults that matter here. -/
inductive IoKind where
  | unexpectedEof
  | connectionReset
  | brokenPipe
  | invalidInput
  | other
  deriving DecidableEq, Repr

/-- A failure of the transport. -/
inductive TransportError where
  | listen (address reason : String)
  | dial (peer reason : String)
  | notRunning
  | eof
  | disconnected
  | frameTooLarge (size max : UInt32)
  | io (kind : IoKind) (reason : String)
  deriving DecidableEq, Repr

namespace TransportError

/-- The wording of a failure. -/
def message : TransportError → String
  | .listen address reason => "failed to listen on " ++ address ++ ": " ++ reason
  | .dial peer reason => "failed to dial " ++ peer ++ ": " ++ reason
  | .notRunning => "transport not running"
  | .eof => "connection closed by peer"
  | .disconnected => "disconnected"
  | .frameTooLarge size max =>
    "frame of " ++ toString size.toNat ++ " bytes exceeds limit " ++ toString max.toNat
  | .io _ reason => "io: " ++ reason

/-- Whether the remote closed the stream, as opposed to a local end or another fault. -/
def isEof : TransportError → Bool
  | .eof => true
  | .io .unexpectedEof _ => true
  | _ => false

end TransportError

end PeerProbe
