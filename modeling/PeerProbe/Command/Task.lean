import PeerProbe.Command.Program
import PeerProbe.Discovery.Probe
import PeerProbe.Service.Verdict
import PeerProbe.Settings.Resolve

/-!
# The commands of the probe

One command dials a peer and waits for the outcome, three probe a node, and one serves the control
port. What is given on the command line counts for more than the settings. Before anything touches
the network a command is planned: its target is read, and then the settings it uses.
-/

namespace PeerProbe.Command

/-- What is to be done. -/
inductive Task where
  | addPeer (enode : String)
  | ping (enode : String)
  | findNode (enode : String)
  | neighbors (enode : String)
  | serve
  deriving DecidableEq, Repr

/-- What the command line says about the settings. -/
structure Overrides where
  config : Option String := none
  listenAddress : Option String := none
  connectTimeoutSecs : Option UInt64 := none
  exchange : Option Bool := none
  observeSecs : Option UInt64 := none
  responseTimeoutMs : Option UInt64 := none
  controlAddress : Option String := none
  deriving DecidableEq, Repr

/-- A task with its overrides. -/
structure Assignment where
  task : Task
  overrides : Overrides
  deriving DecidableEq, Repr

/-! ## Grammar -/

namespace Options

/-- The settings file. -/
def config : OptionSpec := ⟨"config", 'c', .text, "CONFIG", "Optional path to config file (TOML)"⟩

/-- Where to listen for peers or for answers. -/
def listen (help : String) : OptionSpec := ⟨"listenaddr", 'a', .text, "LISTEN_ADDR", help⟩

/-- How long a dial may take. -/
def timeout : OptionSpec :=
  ⟨"timeout", 't', .number, "TIMEOUT", "Seconds to wait for a connect/drop outcome"⟩

/-- Whether statuses are exchanged. -/
def exchange : OptionSpec :=
  ⟨"statusproto", 's', .truth, "STATUS_PROTO", "Run the eth status exchange after connecting"⟩

/-- How long traffic is observed. -/
def observe : OptionSpec :=
  ⟨"observe", none, .number, "OBSERVE",
    "Seconds to log incoming traffic after a successful attempt"⟩

/-- How long an answer may take. -/
def response : OptionSpec :=
  ⟨"resptimeout", 't', .number, "RESP_TIMEOUT", "Milliseconds allowed for each response"⟩

/-- Where to listen for control requests. -/
def control : OptionSpec := ⟨"rpcaddr", none, .text, "RPC_ADDR", "RPC listen address"⟩

end Options

/-- The node that a command is about. -/
def targetOperand : OperandSpec := ⟨"ENODE", "Target node as enode://<id>@<ip>:<port>"⟩

/-- A command about one node. -/
def targetCommand (name about : String) (options : List OptionSpec) (task : String → Task) :
    CommandSpec Assignment where
  name := name
  grammar :=
    { usage := "devp2ping " ++ name ++ " [OPTIONS] <ENODE>", about
      options := Options.listen "address:port to listen at" :: options ++ [Options.config]
      operands := [targetOperand] }
  meaning a :=
    { task := task a.operand
      overrides :=
        { config := a.text? "config", listenAddress := a.text? "listenaddr"
          connectTimeoutSecs := a.number? "timeout", exchange := a.truth? "statusproto"
          observeSecs := a.number? "observe", responseTimeoutMs := a.number? "resptimeout" } }

/-- The command that serves the control port. -/
def serveCommand : CommandSpec Assignment where
  name := "serve"
  grammar :=
    { usage := "devp2ping serve [OPTIONS]", about := "Run the RPC facade until Ctrl+C"
      options := [Options.control, Options.listen "p2p listen address", Options.config] }
  meaning a :=
    { task := .serve
      overrides :=
        { config := a.text? "config", listenAddress := a.text? "listenaddr"
          controlAddress := a.text? "rpcaddr" } }

/-- The commands of the probe. -/
def taskCommands : List (CommandSpec Assignment) := [
  targetCommand "addpeer" "Dial a peer and wait for it to connect or drop"
    [Options.timeout, Options.exchange, Options.observe] .addPeer,
  targetCommand "ping" "Send a discovery PING and wait for the PONG" [Options.response] .ping,
  targetCommand "findnode" "Send a FINDNODE request (after a preliminary PING/PONG)"
    [Options.response] .findNode,
  targetCommand "neighbors" "Ask a node for its neighbors of our own id" [] .neighbors,
  serveCommand]

/-- The probe. -/
def probeProgram : Program Assignment where
  name := "devp2ping"
  release := "0.1.0"
  grammar :=
    { usage := "devp2ping [OPTIONS] <COMMAND>", about := "Probe and manage devp2p peer connectivity"
      commands := taskCommands.map fun c => (c.name, c.grammar.about)
      options := [Options.config], versioned := true }
  commands := taskCommands

/-- What a command line asks the probe for. A settings file named behind the command counts for more
than one named in front of it. -/
def assignment (own : Arguments) (a : Assignment) : Assignment :=
  { a with overrides :=
    { a.overrides with config := a.overrides.config.orElse fun _ => own.text? "config" } }

/-! ## Settings -/

/-- The settings with what the command line says. -/
def Overrides.apply (o : Overrides) (s : Settings) : Settings :=
  { s with
    listenAddress := o.listenAddress.orElse fun _ => s.listenAddress
    connectTimeoutSecs := o.connectTimeoutSecs.orElse fun _ => s.connectTimeoutSecs
    exchange := match o.exchange with
      | some on => some { s.exchange.getD {} with enabled := some on }
      | none => s.exchange
    observeSecs := o.observeSecs.orElse fun _ => s.observeSecs
    responseTimeoutMs := o.responseTimeoutMs.orElse fun _ => s.responseTimeoutMs
    control := match o.controlAddress with
      | some address => some { s.control.getD {} with listenAddress := some address }
      | none => s.control }

/-! ## Plans -/

/-- What a task comes to with some settings, short of the network. An attempt's configuration is
only judged once the transport has started. -/
inductive Plan where
  | addPeer (peer : PeerRef) (tcp : TcpConfig) (attempt : Except Settings.Invalid AttemptConfig)
      (timeout : Duration)
  | probe (target : PeerRef) (name : String) (goal : NodeId → Discovery.Goal) (address : String)
      (id : Option NodeId) (limit : Duration)
  | serve (tcp : TcpConfig) (service : ServiceConfig) (address : String)

/-- Why a task cannot be planned, or the end of the process while planning it. -/
inductive PlanError where
  | target (text : String) (e : PeerRef.Error)
  | setting (e : Settings.Invalid)
  | crash
  deriving DecidableEq

/-- The wording of a plan that failed. -/
def PlanError.message : PlanError → String
  | .target text e => "invalid enode '" ++ text ++ "': " ++ e.message
  | .setting e => e.message
  | .crash => ""

/-- The node that a command is about. -/
def readTarget (text : String) : Except PlanError PeerRef :=
  match PeerRef.parse text with
  | .ok p => .ok p
  | .error (.refused e) => .error (.target text e)
  | .error .crash => .error .crash

/-- A setting whose fault ends the plan. -/
def ofSettings {α : Type} : Except Settings.Fault α → Except PlanError α
  | .ok a => .ok a
  | .error (.invalid e) => .error (.setting e)
  | .error .crash => .error .crash

/-- The plan of a probe with some goal. -/
def probePlan (s : Settings) (text name : String) (goal : PeerRef → NodeId → Discovery.Goal) :
    Except PlanError Plan := do
  let target ← readTarget text
  let id ← ofSettings s.identity
  .ok (.probe target name (goal target) (listenAddress s.listen) id s.responseTimeout)

/-- The plan of a task. -/
def Task.plan (s : Settings) : Task → Except PlanError Plan
  | .addPeer enode => do
    let peer ← readTarget enode
    let tcp ← ofSettings s.tcpConfig
    .ok (.addPeer peer tcp s.attemptConfig s.connectTimeout)
  | .ping enode => probePlan s enode "ping" fun _ _ => .ping
  | .findNode enode => probePlan s enode "findnode" fun target _ => .findNode target.id
  | .neighbors enode => probePlan s enode "neighbors" fun _ own => .findNode own
  | .serve => do
    let tcp ← ofSettings s.tcpConfig
    let service ← ofSettings (s.serviceConfig.mapError .invalid)
    .ok (.serve tcp service (listenAddress s.controlListen))

/-! ## The end of a probe -/

/-- What a probe found: a sign of life after some time, or nodes. -/
inductive Finding where
  | alive (after : Duration)
  | nodes (list : List PeerRef)

/-- What is said about a finding. -/
def Finding.text (target : PeerRef) : Finding → String
  | .alive after => target.text ++ " rtt=" ++ after.text
  | .nodes list => target.text ++ " returned " ++ toString list.length ++ " nodes"

/-- The verdict on a probe, and the entry about it. An empty list of nodes is an answer. -/
def concludeProbe (name : String) (target : PeerRef) :
    Except Discovery.Error Finding → Verdict × Log.Entry
  | .ok f => (.ok, .system "cli" .info name (some (f.text target)))
  | .error e => (.fail, .system "cli" .warn name (some (target.text ++ ": " ++ e.message)))

end PeerProbe.Command
