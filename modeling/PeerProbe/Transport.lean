import PeerProbe.Feed
import PeerProbe.Json.Value
import PeerProbe.Log.Entry
import PeerProbe.Wire.Frame

/-!
# Transports

What the attempts and the service need from whatever moves the bytes: starting and stopping, our
own identity, dialling and removing peers, a feed of peer events, and connections that are handed
over to one owner at a time.

Dialling returns at once; what comes of it arrives on the feed, through background tasks of the
transport or through the network. A read takes its time: it is polled until it is ready, and what
it has taken off the stream so far is kept by the reader between two polls and lost when the
reader gives the read up.
-/

namespace PeerProbe

/-- A protocol a node speaks. -/
structure ProtocolInfo where
  name : String
  version : UInt32
  length : UInt64
  deriving DecidableEq, Repr

/-- The protocol of this library. -/
def ethProtocol : ProtocolInfo := ⟨"eth", 63, 17⟩

/-- What a running node says about itself. -/
structure NodeInfo where
  id : NodeId
  name : String
  enode : String
  listenAddress : String
  protocols : List ProtocolInfo
  deriving DecidableEq

open Json (Value) in
/-- A node's description as JSON, keys in order. -/
def NodeInfo.json (i : NodeInfo) : Value :=
  .object [
    ("enode", .string i.enode), ("id", .string i.id.hex),
    ("listen_addr", .string i.listenAddress), ("name", .string i.name),
    ("protocols", .array (i.protocols.map fun p => .object [
      ("length", .nat p.length.toNat), ("name", .string p.name),
      ("version", .nat p.version.toNat)]))]

/-- The name a node has unless configured otherwise. -/
def defaultNodeName : String := "devp2ping"

/-- The number of a connection. -/
abbrev ConnId := Nat

/-- What a poll of a read comes to: an item, a step ahead, or nothing for now. -/
inductive ReadPoll (σ : Type) where
  | ready (item : Except TransportError Frame) (t : σ)
  | ahead (taken : List UInt8) (t : σ)
  | waiting

/-- A transport with states `σ`. Times are in milliseconds. -/
class Transport (σ : Type) where
  /-- What the network, or another user of the transport, does to it. -/
  Move : Type
  /-- The transport after a move. -/
  move : Nat → Move → σ → σ
  /-- One step of a background task. -/
  background : Nat → Nat → σ → Option σ
  /-- The times a background task waits for. -/
  backgroundDues : Nat → σ → List Nat
  /-- Whether a background task began behind what the same dial announced on the feed. -/
  backgroundBehind : Nat → σ → Bool
  /-- How many background tasks there have been. -/
  backgroundCount : σ → Nat
  /-- The feed of peer events. -/
  feed : σ → Feed
  /-- The transport with its feed read from. -/
  withFeed : Feed → σ → σ
  /-- How long a start takes. -/
  startDelay : σ → Nat
  /-- How long a stop takes. -/
  stopDelay : σ → Nat
  /-- Start, unless it is running. -/
  start : σ → Except TransportError Unit × σ
  /-- Stop, if it is running. -/
  stop : σ → σ
  /-- Whether it is running. -/
  isRunning : σ → Bool
  /-- Our own record while running, if it is known. -/
  selfRef? : σ → Option PeerRef
  /-- Our own description while running. -/
  nodeInfo? : σ → Option NodeInfo
  /-- Ask for a connection to a peer. -/
  dial : Nat → PeerRef → σ → σ
  /-- Disconnect a peer. -/
  remove : PeerRef → σ → σ
  /-- Hand over the connection to a peer, if there is one. -/
  take : PeerRef → σ → Option ConnId × σ
  /-- The peer at the other end of a connection. -/
  remote : ConnId → σ → PeerRef
  /-- Poll a read that has taken some bytes so far. -/
  read : Nat → ConnId → List UInt8 → σ → ReadPoll σ
  /-- Poll a send. -/
  send : Nat → ConnId → UInt64 → List UInt8 → σ → Option (Except TransportError Unit × σ)
  /-- The times at which a read may go on. -/
  readDues : ConnId → σ → List Nat
  /-- The times at which a send may go on. -/
  sendDues : ConnId → σ → List Nat
  /-- Let go of a connection. -/
  release : ConnId → σ → σ

namespace Transport

variable {σ : Type} [Transport σ]

/-- Subscribe to the feed; the subscription's number comes first. -/
def subscribe (t : σ) : Nat × σ := ((feed t).next, withFeed (feed t).subscribe t)

/-- Stop listening to a subscription. -/
def unsubscribe (i : Nat) (t : σ) : σ := withFeed ((feed t).unsubscribe i) t

end Transport

end PeerProbe
