import PeerProbe.Eth.Exchange
import PeerProbe.Toml.Document
import PeerProbe.Text.Utf8

/-!
# Settings as they are written

Every setting is optional. A document is refused when a setting has the wrong type or is out of
range; keys that name no setting are ignored, and so are sections nobody knows. A section may also
be written as an array of the values of all its settings, in order.
-/

namespace PeerProbe

/-- Settings of the status exchange. -/
structure ExchangeSettings where
  enabled : Option Bool := none
  timeoutMs : Option UInt64 := none
  policy : Option Eth.Policy := none
  protocolVersion : Option UInt32 := none
  networkId : Option UInt64 := none
  genesisHash : Option String := none
  totalDifficulty : Option String := none
  maxMessageSize : Option UInt32 := none
  deriving DecidableEq

/-- Settings of the control port. -/
structure ControlSettings where
  listenAddress : Option String := none
  addPeerTimeoutSecs : Option UInt64 := none
  deriving DecidableEq

/-- Settings of the log. -/
structure LogSettings where
  jsonPath : Option String := none
  jsonMaxBytes : Option UInt64 := none
  jsonRotate : Option UInt32 := none
  disableConsole : Option Bool := none
  consoleLevel : Option String := none
  deriving DecidableEq

/-- All settings. A section with a single setting is just that setting. -/
structure Settings where
  nodeName : Option String := none
  listenAddress : Option String := none
  nodeId : Option String := none
  connectTimeoutSecs : Option UInt64 := none
  exchange : Option ExchangeSettings := none
  observeSecs : Option UInt64 := none
  control : Option ControlSettings := none
  responseTimeoutMs : Option UInt64 := none
  log : Option LogSettings := none
  deriving DecidableEq

namespace Settings

open Toml (Item Members)

/-! ## Single settings -/

/-- A text. -/
def text? : Item → Option String
  | .string s => some s
  | _ => none

/-- Yes or no. -/
def flag? : Item → Option Bool
  | .boolean b => some b
  | _ => none

/-- An integer from zero up to a bound. -/
def number? (bound : Nat) : Item → Option Nat
  | .integer (.ofNat n) => if n < bound then some n else none
  | _ => none

/-- A number of 64 bits. -/
def word? (i : Item) : Option UInt64 := (number? 0x10000000000000000 i).map UInt64.ofNat

/-- A number of 32 bits. -/
def half? (i : Item) : Option UInt32 := (number? 0x100000000 i).map UInt32.ofNat

/-- The policy of an exact name. -/
def policyNamed? (s : String) : Option Eth.Policy :=
  [Eth.Policy.strict, .annotate, .off].find? (·.name = s)

/-- Whether an item is an empty table or an empty array. -/
def isEmpty : Item → Bool
  | .table _ [] => true
  | .array [] => true
  | _ => false

/-- A policy: its name, or a table whose one key is its name and whose value is empty. -/
def policy? : Item → Option Eth.Policy
  | .string s => policyNamed? s
  | .table _ [(k, v)] => if isEmpty v then policyNamed? k else none
  | _ => none

/-- A setting that may be missing. -/
def optional? {α : Type} (read : Item → Option α) : Option Item → Option (Option α)
  | none => some none
  | some i => (read i).map some

/-! ## Sections -/

/-- The settings of a section by name. A date counts as a section without settings. -/
def fields? (names : List String) : Item → Option (List (Option Item))
  | .table _ ms => some (names.map fun k => Members.get? ms k)
  | .date => some (names.map fun _ => none)
  | .array items =>
    if items.length < names.length then none else some ((items.take names.length).map some)
  | .tables els =>
    if els.length < names.length then none
    else some ((els.take names.length).map fun ms => some (.table .header ms))
  | _ => none

/-- A section with one setting. -/
def single? {α : Type} (name : String) (read : Item → Option α) (i : Item) : Option (Option α) := do
  match ← fields? [name] i with
  | [v] => optional? read v
  | _ => none

/-- The setting of a section that may be missing. -/
def section? {α : Type} (name : String) (read : Item → Option α) : Option Item → Option (Option α)
  | none => some none
  | some i => single? name read i

/-- The section of the status exchange. -/
def exchange? (i : Item) : Option ExchangeSettings := do
  match ← fields? ["enabled", "timeout_ms", "policy", "protocol_version", "network_id",
      "genesis_hash", "total_difficulty", "max_message_size"] i with
  | [enabled, timeout, policy, version, network, genesis, difficulty, max] =>
    some {
      enabled := ← optional? flag? enabled
      timeoutMs := ← optional? word? timeout
      policy := ← optional? policy? policy
      protocolVersion := ← optional? half? version
      networkId := ← optional? word? network
      genesisHash := ← optional? text? genesis
      totalDifficulty := ← optional? text? difficulty
      maxMessageSize := ← optional? half? max }
  | _ => none

/-- The section of the control port. -/
def control? (i : Item) : Option ControlSettings := do
  match ← fields? ["listen_addr", "add_peer_timeout_secs"] i with
  | [address, timeout] =>
    some {
      listenAddress := ← optional? text? address
      addPeerTimeoutSecs := ← optional? word? timeout }
  | _ => none

/-- The section of the log. -/
def log? (i : Item) : Option LogSettings := do
  match ← fields? ["json_path", "json_max_bytes", "json_rotate", "disable_console",
      "console_level"] i with
  | [path, size, backups, disable, level] =>
    some {
      jsonPath := ← optional? text? path
      jsonMaxBytes := ← optional? word? size
      jsonRotate := ← optional? half? backups
      disableConsole := ← optional? flag? disable
      consoleLevel := ← optional? text? level }
  | _ => none

/-- The settings in the members of a document. -/
def ofMembers? (ms : Members) : Option Settings := do
  some {
    nodeName := ← optional? text? (ms.get? "node_name")
    listenAddress := ← optional? text? (ms.get? "listen_addr")
    nodeId := ← section? "id" text? (ms.get? "node")
    connectTimeoutSecs := ← section? "connect_timeout_secs" word? (ms.get? "dial")
    exchange := ← optional? exchange? (ms.get? "handshake")
    observeSecs := ← section? "secs" word? (ms.get? "observe")
    control := ← optional? control? (ms.get? "rpc")
    responseTimeoutMs := ← section? "resp_timeout_ms" word? (ms.get? "discovery")
    log := ← optional? log? (ms.get? "logging") }

/-- Why settings could not be loaded: the file could not be read as text, or it is no document
that the settings can be taken from. -/
inductive LoadError where
  | read
  | parse
  deriving DecidableEq, Repr

/-- The settings of a document. -/
def ofChars (cs : List Char) : Except LoadError Settings :=
  match (Toml.parse? cs).bind ofMembers? with
  | some s => .ok s
  | none => .error .parse

/-- The settings in a file, if there is one. -/
def ofFile : Option (List UInt8) → Except LoadError Settings
  | none => .error .read
  | some bytes =>
    match Utf8.decode bytes with
    | some cs => ofChars cs
    | none => .error .read

end Settings

end PeerProbe
