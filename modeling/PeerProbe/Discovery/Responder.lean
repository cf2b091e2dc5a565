import PeerProbe.Discovery.Packet
import PeerProbe.Log.Entry
import PeerProbe.Text.Duration

/-!
# Answering discovery requests

A ping is answered by a pong with its nonce, and bonds its sender for a while. A query for nodes
is answered only to an endpoint with a bond, with the first of the configured nodes. Nothing else
is answered. When there is no room for another bond the oldest one makes room.

Times are nanoseconds of one clock that never goes back.
-/

namespace PeerProbe.Discovery

/-- The endpoints that pinged recently, each with the time of its last ping. -/
structure Bonds where
  ttl : Nat
  capacity : Nat
  seen : List (Endpoint × Nat)

/-- How long a ping bonds its sender unless limits are given. -/
def defaultBondTtl : Duration := .ofSecs (24 * 60 * 60)

/-- How many bonds there are room for unless limits are given. -/
def defaultMaxBonds : Nat := 1024

namespace Bonds

/-- No bonds yet; there is always room for one. -/
def empty (ttl : Duration) (max : Nat) : Bonds := ⟨ttl.nanos, Nat.max max 1, []⟩

/-- The bonds that have not expired. -/
def fresh (b : Bonds) (now : Nat) : List (Endpoint × Nat) :=
  b.seen.filter fun e => now - e.2 < b.ttl

/-- The bond with the earliest ping. -/
def oldest? : List (Endpoint × Nat) → Option (Endpoint × Nat)
  | [] => none
  | e :: rest =>
    match oldest? rest with
    | none => some e
    | some o => if e.2 ≤ o.2 then some e else some o

/-- The bonds without one endpoint. -/
def without (seen : List (Endpoint × Nat)) (a : Endpoint) : List (Endpoint × Nat) :=
  seen.filter fun e => e.1 ≠ a

/-- The bonds with room for an endpoint that is not among them. -/
def withRoom (b : Bonds) (seen : List (Endpoint × Nat)) (a : Endpoint) : List (Endpoint × Nat) :=
  if b.capacity ≤ seen.length ∧ ¬ seen.any (·.1 = a) then
    match oldest? seen with
    | some o => without seen o.1
    | none => seen
  else seen

/-- Bond an endpoint. -/
def insert (b : Bonds) (a : Endpoint) (now : Nat) : Bonds :=
  { b with seen := (a, now) :: without (b.withRoom (b.fresh now) a) a }

/-- Whether an endpoint has a bond. -/
def isBonded (b : Bonds) (a : Endpoint) (now : Nat) : Bool :=
  b.seen.any fun e => e.1 = a && now - e.2 < b.ttl

end Bonds

/-- A responder between two datagrams. -/
structure Responder where
  nodes : List PeerRef
  bonds : Bonds

/-- What one datagram led to: the packet sent back to its source, if any, and what is logged. -/
structure Reaction where
  responder : Responder
  reply : Option Packet
  entries : List Log.Entry

namespace Responder

/-- A responder with the usual limits. -/
def new (nodes : List PeerRef) : Responder :=
  ⟨nodes, .empty defaultBondTtl defaultMaxBonds⟩

/-- A responder with limits of its own. -/
def withLimits (r : Responder) (ttl : Duration) (max : Nat) : Responder :=
  { r with bonds := .empty ttl max }

/-- The nodes an answer holds. -/
def answer (r : Responder) : List PeerRef := r.nodes.take maxNeighbors

/-- React to a packet. -/
def handle (r : Responder) (now : Nat) (source : Endpoint) (p : Packet) : Reaction :=
  let addr := some source.text
  let noted := Log.Entry.network "discovery" .debug p.kind addr none
  match p with
  | .ping _ nonce => ⟨{ r with bonds := r.bonds.insert source now }, some (.pong nonce), [noted]⟩
  | .findNode _ =>
    if r.bonds.isBonded source now then ⟨r, some (.neighbors r.answer), [noted]⟩
    else ⟨r, none, [noted, .network "discovery" .debug "findnode_unbonded" addr none]⟩
  | .pong _ => ⟨r, none, [noted]⟩
  | .neighbors _ => ⟨r, none, [noted]⟩

/-- The packet in a datagram, of which only the first bytes are looked at. -/
def packet (datagram : List UInt8) : Except Packet.Fault Packet :=
  Packet.ofBytes (datagram.take maxPacketSize)

/-- React to a datagram; `none` when reading it ends the task that waits for datagrams. -/
def receive? (r : Responder) (now : Nat) (source : Endpoint) (datagram : List UInt8) :
    Option Reaction :=
  match packet datagram with
  | .ok p => some (r.handle now source p)
  | .error .malformed =>
    some ⟨r, none, [.network "discovery" .debug "malformed_packet" (some source.text) none]⟩
  | .error .crash => none

end Responder

end PeerProbe.Discovery
