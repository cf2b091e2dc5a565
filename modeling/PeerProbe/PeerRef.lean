import PeerProbe.Bytes.Block
import PeerProbe.Net.Address
import PeerProbe.Text.Quoted

/-!
# Peer references

A peer reference names a remote node: its 64-byte identity, its IP address and its TCP and UDP
ports. Its text is an enode record, `enode://<id>@<ip>:<tcp>[?discport=<udp>]`; the UDP port is
written only when it differs from the TCP port.

Reading checks the parts in a fixed order and names the first that is wrong. One kind of text
has no verdict at all: an identity of the right length whose first two characters are the
hexadecimal marker leaves 63 bytes, and the task that reads it ends there (`Fault.crash`).
-/

namespace PeerProbe

/-- The identity of a node: an uncompressed public key without its leading byte. -/
abbrev NodeId := Block 64

/-- The identity and the endpoints of a remote peer. -/
structure PeerRef where
  id : NodeId
  ip : Address
  tcp : UInt16
  udp : UInt16
  deriving DecidableEq

namespace PeerRef

/-- Where the peer accepts connections. -/
def tcpEndpoint (p : PeerRef) : Endpoint := ⟨p.ip, p.tcp⟩

/-- Where the peer answers datagrams. -/
def udpEndpoint (p : PeerRef) : Endpoint := ⟨p.ip, p.udp⟩

/-- Two references name the same peer when their identities agree; an inbound connection reports
a port of its own. -/
def samePeer (p q : PeerRef) : Bool := p.id = q.id

/-- The first eight digits of the identity, for log lines. -/
def shortId (p : PeerRef) : String := Hex.encode (p.id.bytes.take 4)

/-- The marker in front of every record. -/
def scheme : List Char := ['e', 'n', 'o', 'd', 'e', ':', '/', '/']

/-- The key of the one query piece that is read. -/
def discPortKey : List Char := ['d', 'i', 's', 'c', 'p', 'o', 'r', 't', '=']

/-- The record of a peer. -/
def chars (p : PeerRef) : List Char :=
  scheme ++ Hex.digits p.id.bytes ++ '@' :: (p.tcpEndpoint.chars ++
    if p.udp = p.tcp then [] else '?' :: (discPortKey ++ Text.decimal p.udp.toNat))

/-- The record of a peer, as text. -/
def text (p : PeerRef) : String := String.ofList p.chars

instance : ToString PeerRef := ⟨text⟩

/-- Why a text is no enode record. -/
inductive Error where
  | missingScheme
  | invalidId
  | missingAddress
  | invalidAddress (text : String)
  | invalidDiscPort (text : String)
  deriving DecidableEq, Repr

/-- The wording of a refusal. -/
def Error.message : Error → String
  | .missingScheme => "missing enode:// scheme"
  | .invalidId => "invalid node id: expected 128 hex characters"
  | .missingAddress => "missing @host:port"
  | .invalidAddress s => "invalid address " ++ Text.quoted s ++ ": expected ip:port"
  | .invalidDiscPort s => "invalid discport " ++ Text.quoted s

/-- What reading a record can end in besides a peer: a refusal, or the end of the task that reads. -/
inductive Fault where
  | refused (e : Error)
  | crash
  deriving DecidableEq, Repr

/-- The identity written in the part before the `@`. -/
def parseId (cs : List Char) : Except Fault NodeId :=
  if Hex.utf8Length cs ≠ 128 then .error (.refused .invalidId)
  else match Hex.read cs none with
    | .error _ => .error (.refused .invalidId)
    | .ok bytes =>
      match Block.ofBytes? 64 bytes with
      | some id => .ok id
      | none => .error .crash

/-- The UDP port after the pieces of a query: each `discport=` piece overrides what was known,
every other piece is ignored. -/
def discPort (udp : UInt16) : List (List Char) → Except Error UInt16
  | [] => .ok udp
  | piece :: rest =>
    match Text.after? discPortKey piece with
    | none => discPort udp rest
    | some v =>
      match Text.unsigned? 65536 v with
      | some n => discPort (UInt16.ofNat n) rest
      | none => .error (.invalidDiscPort (String.ofList v))

/-- The endpoint part and the query pieces behind the `@`. -/
def splitQuery (cs : List Char) : List Char × List (List Char) :=
  match Text.cut? '?' cs with
  | some (hostPort, query) => (hostPort, Text.pieces '&' query)
  | none => (cs, [])

/-- The endpoint and the UDP port written behind the `@`. -/
def parseLocation (cs : List Char) : Except Error (Endpoint × UInt16) :=
  let (hostPort, query) := splitQuery cs
  if hostPort.isEmpty then .error .missingAddress
  else match Endpoint.parse? hostPort with
    | none => .error (.invalidAddress (String.ofList hostPort))
    | some e => (discPort e.port query).map fun udp => (e, udp)

/-- Read an enode record with blanks around it. -/
def parseChars (cs : List Char) : Except Fault PeerRef :=
  match Text.after? scheme (Text.trim cs) with
  | none => .error (.refused .missingScheme)
  | some rest =>
    match Text.cut? '@' rest with
    | none => .error (.refused .missingAddress)
    | some (idChars, location) =>
      match parseId idChars with
      | .error e => .error e
      | .ok id =>
        match parseLocation location with
        | .error e => .error (.refused e)
        | .ok (e, udp) => .ok ⟨id, e.address, e.port, udp⟩

/-- Read an enode record. -/
def parse (s : String) : Except Fault PeerRef := parseChars s.toList

end PeerRef

end PeerProbe
