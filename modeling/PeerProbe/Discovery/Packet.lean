import PeerProbe.Json.Shape
import PeerProbe.PeerRef
import PeerProbe.Text.Utf8

/-!
# Discovery packets

A packet is one datagram of JSON with its kind under the key `type`. It may also be written as
an array: the kind, then the fields in order.

Peers travel as enode records, so reading a packet can crash where reading such a record can: the
task that reads then ends, and nothing else does. A reader takes the JSON value that the bytes begin
with, reads what it wants from it, and only then looks at what stands behind the value.
-/

namespace PeerProbe.Discovery

open Json (Tree Value)

/-- What two nodes say to each other. -/
inductive Packet where
  | ping (source : PeerRef) (nonce : UInt64)
  | pong (nonce : UInt64)
  | findNode (target : String)
  | neighbors (nodes : List PeerRef)
  deriving DecidableEq

/-- The largest datagram that is read whole. -/
def maxPacketSize : Nat := 8192

/-- The most nodes one answer holds. -/
def maxNeighbors : Nat := 16

namespace Packet

/-- The name of a kind. -/
def kind : Packet → String
  | .ping .. => "ping"
  | .pong _ => "pong"
  | .findNode _ => "findnode"
  | .neighbors _ => "neighbors"

/-- A peer as JSON. -/
def peerJson (p : PeerRef) : Value := .string p.text

/-- The JSON form of a packet. -/
def json (p : Packet) : Value :=
  .object (("type", .string p.kind) :: match p with
    | .ping source nonce => [("from", peerJson source), ("nonce", .nat nonce.toNat)]
    | .pong nonce => [("nonce", .nat nonce.toNat)]
    | .findNode target => [("target", .string target)]
    | .neighbors nodes => [("nodes", .array (nodes.map peerJson))])

/-- The text of a packet. -/
def chars (p : Packet) : List Char := p.json.chars

/-- Why some text is no packet: it is malformed, or reading it ends the task that reads. -/
inductive Fault where
  | malformed
  | crash
  deriving DecidableEq, Repr

/-- A peer in a packet. -/
def peer (t : Tree) : Except Fault PeerRef :=
  match t.text? with
  | none => .error .malformed
  | some s =>
    match PeerRef.parse s with
    | .ok p => .ok p
    | .error .crash => .error .crash
    | .error (.refused _) => .error .malformed

/-- A number in a packet. -/
def word (t : Tree) : Except Fault UInt64 :=
  match t.word? with
  | some n => .ok n
  | none => .error .malformed

/-- A text in a packet. -/
def text (t : Tree) : Except Fault String :=
  match t.text? with
  | some s => .ok s
  | none => .error .malformed

/-- The first fault of a list ends it. -/
def peers : List Tree → Except Fault (List PeerRef)
  | [] => .ok []
  | t :: rest =>
    match peer t with
    | .error e => .error e
    | .ok p => (peers rest).map (p :: ·)

/-- A list of peers in a packet. -/
def peerList : Tree → Except Fault (List PeerRef)
  | .array items => peers items
  | _ => .error .malformed

/-- What the fields read so far hold. -/
structure Fields where
  source : Option PeerRef := none
  nonce : Option UInt64 := none
  target : Option String := none
  nodes : Option (List PeerRef) := none

/-- The fields a kind of packet has, in order. -/
def fieldNames : String → Option (List String)
  | "ping" => some ["from", "nonce"]
  | "pong" => some ["nonce"]
  | "findnode" => some ["target"]
  | "neighbors" => some ["nodes"]
  | _ => none

/-- Set a field that must not be set yet. -/
def setOnce {α : Type} (old : Option α) (new : Except Fault α) (put : α → Fields) :
    Except Fault Fields :=
  if old.isSome then .error .malformed else new.map put

/-- Read one field into those already there. -/
def setField (f : Fields) (name : String) (t : Tree) : Except Fault Fields :=
  match name with
  | "from" => setOnce f.source (peer t) fun p => { f with source := some p }
  | "nonce" => setOnce f.nonce (word t) fun n => { f with nonce := some n }
  | "target" => setOnce f.target (text t) fun s => { f with target := some s }
  | "nodes" => setOnce f.nodes (peerList t) fun ps => { f with nodes := some ps }
  | _ => .ok f

/-- Read the fields in the order in which they stand; names the kind does not have are skipped. -/
def setFields (names : List String) : Fields → List (String × Tree) → Except Fault Fields
  | f, [] => .ok f
  | f, (name, t) :: rest =>
    if names.contains name then
      match setField f name t with
      | .error e => .error e
      | .ok f' => setFields names f' rest
    else setFields names f rest

/-- The packet of a kind whose fields are complete. -/
def ofFields? (kind : String) (f : Fields) : Option Packet :=
  match kind, f.source, f.nonce, f.target, f.nodes with
  | "ping", some p, some n, _, _ => some (.ping p n)
  | "pong", _, some n, _, _ => some (.pong n)
  | "findnode", _, _, some s, _ => some (.findNode s)
  | "neighbors", _, _, _, some ps => some (.neighbors ps)
  | _, _, _, _, _ => none

/-- A packet of a kind with given fields. -/
def assemble (kind : String) (fields : List String → List (String × Tree)) :
    Except Fault Packet :=
  match fieldNames kind with
  | none => .error .malformed
  | some names =>
    match setFields names {} (fields names) with
    | .error e => .error e
    | .ok f =>
      match ofFields? kind f with
      | some p => .ok p
      | none => .error .malformed

/-- The members of an object whose keys are all readable. -/
def readable? : List (Option String × Tree) → Option (List (String × Tree))
  | [] => some []
  | (k, t) :: rest => do
    let k ← k
    let later ← readable? rest
    some ((k, t) :: later)

/-- A packet from its tree. -/
def ofTree (t : Tree) : Except Fault Packet :=
  if (t.value? Json.maxDepth).isNone then .error .malformed
  else match t with
    | .object members =>
      match readable? members with
      | none => .error .malformed
      | some members =>
        match members.filter (·.1 = "type") with
        | [(_, .string (some kind))] => assemble kind fun _ => members.filter (·.1 ≠ "type")
        | _ => .error .malformed
    | .array (.string (some kind) :: items) =>
      match fieldNames kind with
      | some names =>
        if names.length < items.length then
          -- A superfluous item is noticed behind the fields.
          match assemble kind fun names => names.zip items with
          | .error .crash => .error .crash
          | _ => .error .malformed
        else assemble kind fun names => names.zip items
      | none => .error .malformed
    | _ => .error .malformed

/-- Read the value that a text begins with. The rest of the text and the bytes behind it, which need
not be any text, are looked at after the reading. -/
def readWhole {α : Type} (read : Tree → Except Fault α) (cs : List Char) (behind : List UInt8) :
    Except Fault α :=
  match Json.readValue (2 * cs.length + 2) cs with
  | none => .error .malformed
  | some (t, rest) =>
    match read t with
    | .error e => .error e
    | .ok a =>
      if (Json.skipSpace rest).isEmpty && behind.isEmpty then .ok a else .error .malformed

/-- A packet from its text. -/
def ofChars (cs : List Char) : Except Fault Packet := readWhole ofTree cs []

/-- A packet from its bytes. -/
def ofBytes (bytes : List UInt8) : Except Fault Packet :=
  let text := Utf8.front bytes
  readWhole ofTree text.1 text.2

end Packet

/-- A peer from a JSON text that holds its record and nothing else. -/
def peerOfJson (cs : List Char) : Except Packet.Fault PeerRef := Packet.readWhole Packet.peer cs []

end PeerProbe.Discovery
