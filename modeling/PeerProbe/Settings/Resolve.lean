import PeerProbe.PeerRef
import PeerProbe.Attempt.Basic
import PeerProbe.Log.FileSink
import PeerProbe.Settings.Basic
import PeerProbe.Settings.Quantity
import PeerProbe.Text.Duration

/-!
# Settings as they are used

Each part of the program takes its configuration from the settings; what is not set has a default.
Texts with a meaning (identities, hashes, quantities) are only read here, so a faulty one is found
by the parts that use it.
-/

namespace PeerProbe

/-! ## Defaults -/

/-- Where peers are listened for unless configured otherwise. -/
def defaultListenAddress : String := ":30301"

/-- Where control requests are listened for unless configured otherwise. -/
def defaultControlAddress : String := ":8544"

/-- How long adding a peer from the command line may take. -/
def defaultConnectTimeout : Duration := .ofSecs 30

/-- How long adding a peer through the control port may take. -/
def defaultAddPeerTimeout : Duration := .ofSecs 15

/-- How long each answer of a discovery probe may take. -/
def defaultResponseTimeout : Duration := .ofMillis 500

/-- How long an exchange may take. -/
def defaultExchangeTimeout : Duration := .ofMillis 2000

/-- The largest frame a stream carries. It is above the largest message, so that a message that is
too large still reaches whoever judges it. -/
def maxFrameSize : UInt32 := 16777216

/-- How long a connection and its exchange of identities may take. -/
def defaultDialTimeout : Duration := .ofSecs 5

/-- The release of this program with the protocol it speaks. -/
def versionText : String := "v0.1.0 (eth/63)"

/-- How a transport over TCP is set up. Without an identity it makes one up. -/
structure TcpConfig where
  listenAddress : String
  nodeId : Option NodeId
  name : String
  maxFrameSize : UInt32
  dialTimeout : Duration

/-- How a service is set up. -/
structure ServiceConfig where
  attempts : AttemptConfig
  addPeerTimeout : Duration

namespace Settings

/-- A setting whose text means nothing. -/
structure Invalid where
  field : String
  reason : String
  deriving DecidableEq, Repr

/-- The wording about such a setting. -/
def Invalid.message (e : Invalid) : String :=
  "invalid value for '" ++ e.field ++ "': " ++ e.reason

/-- How using a setting can fail: it means nothing, or reading it ends the task that reads. -/
inductive Fault where
  | invalid (e : Invalid)
  | crash
  deriving DecidableEq, Repr

/-- The node's name. -/
def name (s : Settings) : String := s.nodeName.getD defaultNodeName

/-- Where peers are listened for. -/
def listen (s : Settings) : String := s.listenAddress.getD defaultListenAddress

/-- Where control requests are listened for. -/
def controlListen (s : Settings) : String :=
  (s.control.bind (·.listenAddress)).getD defaultControlAddress

/-- The text behind all `0x` in front of it. -/
def stripMarkers : List Char → List Char
  | '0' :: 'x' :: rest => stripMarkers rest
  | cs => cs

/-- Read an identity. One more marker after the length was checked leaves 63 bytes, and the reading
crashes. -/
def readNodeId (text : String) : Except Fault NodeId :=
  let cs := stripMarkers (Text.trim text.toList)
  if Hex.utf8Length cs ≠ 128 then .error (.invalid ⟨"node.id", "expected 128 hex characters"⟩)
  else match Hex.read cs none with
    | .error e => .error (.invalid ⟨"node.id", hexMessage e⟩)
    | .ok bytes =>
      match Block.ofBytes? 64 bytes with
      | some id => .ok id
      | none => .error .crash

/-- The node's identity, if one is set. -/
def identity (s : Settings) : Except Fault (Option NodeId) :=
  match s.nodeId with
  | none => .ok none
  | some text => (readNodeId text).map some

/-- How long adding a peer from the command line may take. -/
def connectTimeout (s : Settings) : Duration :=
  (s.connectTimeoutSecs.map fun n => .ofSecs n.toNat).getD defaultConnectTimeout

/-- How long traffic is observed. -/
def observeTime (s : Settings) : Duration :=
  (s.observeSecs.map fun n => .ofSecs n.toNat).getD (.ofSecs 0)

/-- How long each answer of a discovery probe may take. -/
def responseTimeout (s : Settings) : Duration :=
  (s.responseTimeoutMs.map fun n => .ofMillis n.toNat).getD defaultResponseTimeout

/-- Whether statuses are exchanged. -/
def exchangeEnabled (s : Settings) : Bool := (s.exchange.bind (·.enabled)).getD true

/-- How statuses are exchanged, unless they are not. -/
def exchangeConfig? (s : Settings) : Option Eth.ExchangeConfig :=
  if s.exchangeEnabled then
    let x := s.exchange.getD {}
    some {
      timeout := (x.timeoutMs.map fun n => .ofMillis n.toNat).getD defaultExchangeTimeout
      policy := x.policy.getD .annotate
      maxMessage := x.maxMessageSize.getD Eth.defaultMaxMessage }
  else none

/-- Read the genesis hash. -/
def readGenesis (text : String) : Except Invalid Hash :=
  let faulty (reason : String) : Invalid := ⟨"handshake.genesis_hash", reason⟩
  match Hex.read (Text.trim text.toList) (some 32) with
  | .error e => .error (faulty (hexMessage e))
  | .ok bytes =>
    match Block.ofBytes? 32 bytes with
    | some h => .ok h
    | none => .error (faulty (hexMessage .wrongLength))

/-- Read the total difficulty. -/
def readDifficulty (text : String) : Except Invalid U256 :=
  match quantity (Text.trim text.toList) with
  | .ok n => .ok n
  | .error e => .error ⟨"handshake.total_difficulty", e.message⟩

/-- A status with the genesis hash set, if there is one. The chain is then at its genesis. -/
def withGenesis (st : Eth.Status) : Option String → Except Invalid Eth.Status
  | none => .ok st
  | some text => (readGenesis text).map fun h => { st with genesisBlock := h, currentBlock := h }

/-- A status with the total difficulty set, if there is one. -/
def withDifficulty (st : Eth.Status) : Option String → Except Invalid Eth.Status
  | none => .ok st
  | some text => (readDifficulty text).map fun n => { st with totalDifficulty := n }

/-- The status we announce. -/
def localStatus (s : Settings) : Except Invalid Eth.Status :=
  match s.exchange with
  | none => .ok .mainnet
  | some x =>
    let st := Eth.Status.mainnet
    let st := { st with
      protocolVersion := x.protocolVersion.getD st.protocolVersion
      networkId := x.networkId.getD st.networkId }
    match withGenesis st x.genesisHash with
    | .error e => .error e
    | .ok st => withDifficulty st x.totalDifficulty

/-- How attempts are made. -/
def attemptConfig (s : Settings) : Except Invalid AttemptConfig :=
  s.localStatus.map fun status =>
    { exchange := s.exchangeConfig?, status, observe := s.observeTime.millis, disconnect := true }

/-- How the service is set up. -/
def serviceConfig (s : Settings) : Except Invalid ServiceConfig :=
  s.attemptConfig.map fun attempts =>
    ⟨attempts, ((s.control.bind (·.addPeerTimeoutSecs)).map fun n => .ofSecs n.toNat).getD
      defaultAddPeerTimeout⟩

/-- The limit for messages, whether statuses are exchanged or not. -/
def maxMessage (s : Settings) : UInt32 :=
  (s.exchange.bind (·.maxMessageSize)).getD Eth.defaultMaxMessage

/-- The least level that the console shows, unless it is off. -/
def consoleLevel? (s : Settings) : Option Log.Level :=
  if (s.log.bind (·.disableConsole)).getD false then none
  else some (((s.log.bind (·.consoleLevel)).bind Log.Level.parse?).getD .info)

/-- The path and the limits of the log file, if there is to be one. -/
def logFile? (s : Settings) : Option (String × Log.FileLimits) := do
  let log ← s.log
  let path ← log.jsonPath
  some (path, ⟨true, (log.jsonMaxBytes.map UInt64.toNat).getD (5 * 1024 * 1024),
    (log.jsonRotate.map UInt32.toNat).getD 3⟩)

/-- How a transport over TCP is set up. -/
def tcpConfig (s : Settings) : Except Fault TcpConfig :=
  s.identity.map fun nodeId =>
    { listenAddress := s.listen, nodeId, name := s.name
      maxFrameSize := max PeerProbe.maxFrameSize s.maxMessage
      dialTimeout := defaultDialTimeout }

end Settings

end PeerProbe
