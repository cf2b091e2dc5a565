import PeerProbe.Attempt.Basic
import PeerProbe.Control.Message

/-!
# The node as a service

A service starts and stops one transport and adds and removes peers on it. Its life cycle has four
states, and a start or a stop that is under way refuses others. A peer that cannot be reached is
an answer, not an error.
-/

namespace PeerProbe

/-- Where a service stands. -/
inductive Lifecycle where
  | stopped
  | starting
  | running
  | stopping
  deriving DecidableEq, Repr

/-- The name of a state. -/
def Lifecycle.name : Lifecycle → String
  | .stopped => "stopped"
  | .starting => "starting"
  | .running => "running"
  | .stopping => "stopping"

/-- Why a call of the service was refused. -/
inductive ServiceError where
  | notStarted
  | startInProgress
  | transport (e : TransportError)
  | malformedPeerRef (e : PeerRef.Error)
  | notRunning
  | subscription (e : SubscriptionError)
  | busy
  | cancelled
  deriving DecidableEq

namespace ServiceError

/-- The wording of a refusal. -/
def message : ServiceError → String
  | .notStarted => "node did not produce a self identity"
  | .startInProgress => "a start or stop is already in progress"
  | .transport e => e.message
  | .malformedPeerRef e => "malformed peer reference: " ++ e.message
  | .notRunning => "node is not running"
  | .subscription e => "peer event subscription failed: " ++ e.message
  | .busy => "another add_peer is in flight"
  | .cancelled => "attempt cancelled"

/-- The code of a refusal, for programs. -/
def code : ServiceError → String
  | .notStarted => "not_started"
  | .startInProgress => "start_in_progress"
  | .transport _ => "transport"
  | .malformedPeerRef _ => "malformed_peer_ref"
  | .notRunning => "not_running"
  | .subscription _ => "subscription"
  | .busy => "busy"
  | .cancelled => "cancelled"

end ServiceError

/-- What a started node says about itself. -/
structure Identity where
  selfRef : PeerRef
  info : NodeInfo
  deriving DecidableEq

/-- What became of a peer that was to be added. -/
structure AddedPeer where
  enode : String
  reason : Option String
  deriving DecidableEq, Repr

/-- Whether the peer is connected. -/
def AddedPeer.ok (p : AddedPeer) : Bool := p.reason.isNone

/-- Why an attempt gave no report. -/
inductive AttemptRefusal where
  | busy
  | cancelled
  deriving DecidableEq, Repr

/-- The wording of a missing report. -/
def AttemptRefusal.message : AttemptRefusal → String
  | .busy => "another attempt is already in flight"
  | .cancelled => "attempt cancelled before an outcome was produced"

/-- What a call comes back with. -/
inductive Reply where
  | started (identity : Identity)
  | stopped
  | added (peer : AddedPeer)
  | removed
  | refused (e : ServiceError)
  | transportStarted (r : Except TransportError Unit)
  | transportStopped
  | quiet
  | reported (r : Except AttemptRefusal AttemptReport)
  | verdict (ok : Bool)

namespace Reply

open Json (Value)

/-- The reply as a control response. A reply to something that is no control call is empty. -/
def response (id : UInt64) : Reply → Control.Response
  | .started i =>
    .ok id (.object [("node_info", i.info.json), ("self_peer_ref", .string i.selfRef.text)])
  | .added p =>
    .ok id (.object ([("enode", .string p.enode), ("ok", .bool p.ok)] ++
      (p.reason.map fun r => ("reason", Value.string r)).toList))
  | .refused e => .err id e.code e.message
  | _ => .ok id (.object [])

end Reply

/-- Where an attempt comes from: a call of the service, a direct user who waits for its end or
only for its report, or the command line. -/
inductive Purpose where
  | service
  | direct (reportOnly : Bool)
  | command
  deriving DecidableEq, Repr

/-- How far a call has come. -/
inductive Call where
  -- starting the node
  | start
  | startCached
  | starting (wake : Option Nat)
  | startFailed (e : TransportError)
  | identifying
  | aborting (wake : Option Nat)
  | aborted
  | caching (identity : Identity)
  | startDone (identity : Identity)
  -- stopping the node
  | stop
  | quiescing
  | stopping (wake : Option Nat)
  | clearing
  | stopDone
  -- adding and removing a peer
  | addPeer (enode : String) (timeout : Option Nat)
  | addChecked (peer : PeerRef) (timeout : Option Nat)
  | removePeer (enode : String)
  -- one attempt, for whatever purpose
  | claiming (purpose : Purpose) (slot : Nat) (peer : PeerRef) (timeout : Nat)
  | subscribing (purpose : Purpose) (slot : Nat) (peer : PeerRef) (timeout : Nat)
  | rechecking (attempt : Nat) (peer : PeerRef)
  | cancelling (attempt : Nat)
  | unwinding (attempt : Nat)
  | awaiting (purpose : Purpose) (attempt : Nat) (peer : PeerRef)
  | joining (purpose : Purpose) (attempt : Nat) (peer : PeerRef) (answer : Option AttemptReport)
  | concluding (peer : PeerRef) (answer : Option AttemptReport)
  -- direct use of the parts
  | transportStart (wake : Option Nat)
  | transportStop (wake : Option Nat)
  | quiesce (slot : Nat)
  -- the end
  | crashed
  | done (reply : Reply)

/-- What a user may ask of a node: the calls of the service, an attempt in a slot, and the direct
use of the transport and of a slot. -/
inductive Order where
  | start
  | stop
  | addPeer (enode : String) (timeout : Option Nat)
  | removePeer (enode : String)
  | attempt (reportOnly : Bool) (slot : Nat) (peer : PeerRef) (timeout : Nat)
  | command (slot : Nat) (peer : PeerRef) (timeout : Nat)
  | transportStart
  | transportStop
  | quiesce (slot : Nat)

/-- The call that carries out an order. -/
def Order.call : Order → Call
  | .start => .start
  | .stop => .stop
  | .addPeer enode timeout => .addPeer enode timeout
  | .removePeer enode => .removePeer enode
  | .attempt reportOnly slot peer timeout => .claiming (.direct reportOnly) slot peer timeout
  | .command slot peer timeout => .claiming .command slot peer timeout
  | .transportStart => .transportStart none
  | .transportStop => .transportStop none
  | .quiesce slot => .quiesce slot

/-- What a call came back with. -/
def Call.reply? : Call → Option Reply
  | .done r => some r
  | _ => none

end PeerProbe
