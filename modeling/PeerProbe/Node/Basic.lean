import PeerProbe.Attempt.Step
import PeerProbe.Service.Basic

/-!
# A node and everything that runs on it

The state of a node: its clock and transport, the log, the slots for attempts, the service's life
cycle with the cached identity, and one record for every task there has been: attempts with their
watchers, watchers of other users, held peers and calls.

Slot 0 is the service's own; others belong to direct users.
-/

namespace PeerProbe

/-- A slot for one attempt at a time, with the settings of its attempts. -/
structure Slot where
  config : AttemptConfig
  busy : Bool

/-- A watcher that belongs to no attempt. -/
structure OpenWatch where
  watcher : Watcher
  cancelled : Bool

/-- The tasks of a node. -/
inductive Task where
  | attempt (i : Nat)
  | watcher (i : Nat)
  | openWatch (i : Nat)
  | held (i : Nat)
  | call (i : Nat)
  | background (i : Nat)
  deriving DecidableEq, Repr

/-- The state of a node on a transport with states `σ`. Times are in milliseconds. -/
structure Node (σ : Type) where
  now : Nat
  transport : σ
  log : List Log.Entry
  slots : List Slot
  lifecycle : Lifecycle
  identity : Option Identity
  addPeerTimeout : Nat
  attempts : List Attempt
  watches : List OpenWatch
  held : List HeldPeer
  calls : List Call

namespace Node

variable {σ : Type}

/-- A stopped node. Peers added through the service stay connected, so its own slot never
disconnects. -/
def create (transport : σ) (config : AttemptConfig) (addPeerTimeout : Nat) : Node σ :=
  { now := 0, transport, log := []
    slots := [⟨{ config with disconnect := false }, false⟩, ⟨config, false⟩]
    lifecycle := .stopped, identity := none, addPeerTimeout
    attempts := [], watches := [], held := [], calls := [] }

/-- The settings of a slot. -/
def config? (n : Node σ) (slot : Nat) : Option AttemptConfig := n.slots[slot]?.map (·.config)

/-- Whether an attempt holds a slot. -/
def isBusy (n : Node σ) (slot : Nat) : Bool := (n.slots[slot]?.map (·.busy)).getD false

/-- Claim or release a slot. -/
def setBusy (n : Node σ) (slot : Nat) (busy : Bool) : Node σ :=
  { n with slots := n.slots.modify slot fun s => { s with busy } }

/-- Add to the log. -/
def logged (n : Node σ) (es : List Log.Entry) : Node σ := { n with log := n.log ++ es }

/-- Set how far a call has come. -/
def setCall (n : Node σ) (i : Nat) (c : Call) : Node σ := { n with calls := n.calls.set i c }

/-- A log entry of the service. -/
def serviceEntry (level : Log.Level) (action : String) (detail : Option String) : Log.Entry :=
  .system "service" level action detail

/-- A log entry of the command line. -/
def commandEntry (level : Log.Level) (action detail : String) : Log.Entry :=
  .system "cli" level action (some detail)

end Node

end PeerProbe
