import PeerProbe.Discovery.Responder

/-!
# Probing a node

A probe has one request outstanding at a time. A ping succeeds when a pong with its nonce comes
from exactly the endpoint that was pinged; a query for nodes is sent only after such a pong and
succeeds with the first list of nodes from that endpoint. Every other datagram is ignored. Each
of the two waits has the same time limit.
-/

namespace PeerProbe.Discovery

/-- Why a probe failed. -/
inductive Error where
  | bind (address reason : String)
  | timeout (expected : String) (source : Endpoint) (after : Duration)
  | io (reason : String)
  deriving DecidableEq

/-- The wording of a failure. -/
def Error.message : Error → String
  | .bind address reason => "failed to bind " ++ address ++ ": " ++ reason
  | .timeout expected source after =>
    "no " ++ expected ++ " from " ++ source.text ++ " within " ++ after.text
  | .io reason => "io: " ++ reason

/-- What is asked of the target: a sign of life, or nodes near an identity. -/
inductive Goal where
  | ping
  | findNode (lookup : NodeId)
  deriving DecidableEq

/-- Where a probe stands: waiting for its pong, waiting for nodes, or done. -/
inductive ProbePhase where
  | awaitPong
  | awaitNeighbors
  | done (result : Except Error (List PeerRef))

/-- A running probe. A finished ping has the empty list as its result. -/
structure Probe where
  self : PeerRef
  target : PeerRef
  goal : Goal
  limit : Duration
  nonce : UInt64
  phase : ProbePhase

/-- A probe after something happened to it: what it sends and what it logs. -/
structure ProbeStep where
  probe : Probe
  sends : List Packet
  entries : List Log.Entry

namespace Probe

/-- Begin with a ping, whatever the goal. -/
def start (self target : PeerRef) (goal : Goal) (limit : Duration) (nonce : UInt64) : ProbeStep :=
  ⟨⟨self, target, goal, limit, nonce, .awaitPong⟩, [.ping self nonce], []⟩

/-- An entry about the target. -/
def note (p : Probe) (level : Log.Level) (action detail : String) : Log.Entry :=
  .network "discovery" level action (some p.target.udpEndpoint.text) (some detail)

/-- The pong has come, `elapsed` after the ping. -/
def onPong (p : Probe) (elapsed : Duration) : ProbeStep :=
  let heard := p.note .info "pong" ("rtt=" ++ elapsed.text)
  match p.goal with
  | .ping => ⟨{ p with phase := .done (.ok []) }, [], [heard]⟩
  | .findNode lookup => ⟨{ p with phase := .awaitNeighbors }, [.findNode lookup.hex], [heard]⟩

/-- The nodes have come. -/
def onNeighbors (p : Probe) (nodes : List PeerRef) : ProbeStep :=
  ⟨{ p with phase := .done (.ok nodes) }, [],
    p.note .info "neighbors" ("count=" ++ toString nodes.length) ::
      nodes.map fun n =>
        .network "discovery" .debug "neighbor" (some n.udpEndpoint.text) (some n.text)⟩

/-- A packet from the target. -/
def onPacket (p : Probe) (elapsed : Duration) (packet : Packet) : ProbeStep :=
  match p.phase, packet with
  | .awaitPong, .pong nonce => if nonce = p.nonce then p.onPong elapsed else ⟨p, [], []⟩
  | .awaitNeighbors, .neighbors nodes => p.onNeighbors nodes
  | _, _ => ⟨p, [], []⟩

/-- A datagram from anywhere; `none` when reading it ends the probe's task. -/
def receive? (p : Probe) (elapsed : Duration) (source : Endpoint) (datagram : List UInt8) :
    Option ProbeStep :=
  match p.phase with
  | .done _ => some ⟨p, [], []⟩
  | _ =>
    if source ≠ p.target.udpEndpoint then some ⟨p, [], []⟩
    else match Responder.packet datagram with
      | .ok packet => some (p.onPacket elapsed packet)
      | .error .malformed =>
        some ⟨p, [], [.network "discovery" .debug "malformed_packet" (some source.text) none]⟩
      | .error .crash => none

/-- The failure of a wait whose time is over. -/
def timeoutError (p : Probe) (expected : String) : Error :=
  .timeout expected p.target.udpEndpoint p.limit

/-- The time of the current wait is over. -/
def expire (p : Probe) : ProbeStep :=
  match p.phase with
  | .awaitPong =>
    let e := p.timeoutError "pong"
    ⟨{ p with phase := .done (.error e) }, [], [p.note .info "ping_failed" e.message]⟩
  | .awaitNeighbors =>
    ⟨{ p with phase := .done (.error (p.timeoutError "neighbors")) }, [], []⟩
  | .done _ => ⟨p, [], []⟩

/-- A datagram with its time of arrival, in nanoseconds. -/
structure Arrival where
  time : Nat
  source : Endpoint
  datagram : List UInt8

/-- Play arrivals in order of time against a probe whose current wait began at `since`. A wait that
ends before an arrival expires first. -/
def play (p : Probe) (since : Nat) : List Arrival → Option Probe
  | [] => some p.expire.probe
  | a :: rest =>
    match p.phase with
    | .done _ => some p
    | _ =>
      if since + p.limit.nanos < a.time then some p.expire.probe
      else
        match p.receive? ⟨a.time - since⟩ a.source a.datagram with
        | none => none
        | some s =>
          match p.phase, s.probe.phase with
          | .awaitPong, .awaitNeighbors => play s.probe a.time rest
          | _, _ => play s.probe since rest

end Probe

end PeerProbe.Discovery
