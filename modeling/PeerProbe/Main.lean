import PeerProbe.Command.Remote
import PeerProbe.Command.Task
import PeerProbe.Live.ControlPort
import PeerProbe.Live.Inquiry
import Std.Internal.UV.Signal

/-!
# The command line

Two programs share one executable: the probe, and behind the first argument `ctl` its remote
control. The probe prints a verdict, the remote control a result; everything else goes to the
standard error.
-/

namespace PeerProbe.Live

open Command Control

/-- The exit code of a refused command line and of settings that cannot be loaded. -/
def misuse : UInt32 := 2

/-- The exit code of a process that ended while reading an identity. -/
def crashed : UInt32 := 101

/-- Say what went wrong. -/
def complain (text : String) : IO Unit := IO.eprintln ("❌ " ++ text)

/-- Say what went wrong, for a failed verdict. -/
def failing (text : String) : IO (Option Verdict) := do
  complain text
  return some .fail

/-- The settings of a file, or of none. -/
def loadSettings : Option String → IO (Option Settings)
  | none => return some {}
  | some path => do
    let bytes ← attempt (IO.FS.readBinFile path)
    match Settings.ofFile (bytes.toOption.map fun b => b.toList) with
    | .ok s =>
      IO.eprintln ("   Loaded config from: " ++ path)
      return some s
    | .error .read =>
      complain ("failed to read config file " ++ path)
      return none
    | .error .parse =>
      complain ("failed to parse config file " ++ path)
      return none

/-- Dial a peer and wait for the outcome. -/
def addPeer (journal : Journal) (peer : PeerRef) (tcp : TcpConfig)
    (attempts : Except Settings.Invalid AttemptConfig) (timeout : Duration) :
    IO (Option Verdict) := do
  let config := attempts.toOption.getD ⟨none, .mainnet, 0, true⟩
  let (reply, r) ← (← Runner.create tcp config timeout journal).call .transportStart
  match reply, attempts with
  | some (.transportStarted (.error e)), _ => failing e.message
  | _, .error e => failing e.message
  | _, .ok _ =>
    let (reply, r) ← r.call (.command 1 peer timeout.millis)
    let _ ← r.call .transportStop
    match reply with
    | some (.verdict ok) => return some (.ofSuccess ok)
    | _ => return none

/-- Probe a node. -/
def probe (journal : Journal) (target : PeerRef) (name : String) (goal : NodeId → Discovery.Goal)
    (address : String) (id : Option NodeId) (limit : Duration) : IO (Option Verdict) := do
  let own := id.getD ((Block.ofBytes? 64 (← IO.getRandomBytes 64).toList).getD (.zero 64))
  match ← Inquiry.bindSocket address with
  | .error e => failing e.message
  | .ok (socket, e) =>
    let self : PeerRef := ⟨own, e.address, e.port, e.port⟩
    match ← Inquiry.start socket self target (goal own) limit journal with
    | none => return none
    | some (found, journal) =>
      let (verdict, entry) := concludeProbe name target found
      let _ ← journal.write entry
      return some verdict

/-- Serve the control port until an interrupt. -/
def serve (journal : Journal) (tcp : TcpConfig) (service : ServiceConfig) (address : String) :
    IO (Option Verdict) := do
  let r ← Runner.create tcp service.attempts service.addPeerTimeout journal
  match ← ControlPort.bind address r with
  | .error reason => failing reason
  | .ok (port, r) =>
    IO.eprintln ("🟢 " ++ tcp.name ++ " RPC listening on " ++ port.listener.endpoint.text ++
      ". Press Ctrl+C to shut down...")
    let interrupt ← Std.Internal.UV.Signal.mk 2 false
    let r ← port.serveUntil (← interrupt.next) r
    IO.eprintln ("🛑 " ++ tcp.name ++ " shutting down gracefully.")
    let _ ← r.call .stop
    return none

/-- Carry out a plan. Serving ends without a verdict, and so does a process that ends early. -/
def carryOut (journal : Journal) : Plan → IO (Option Verdict)
  | .addPeer peer tcp attempts timeout => addPeer journal peer tcp attempts timeout
  | .probe target name goal address id limit => probe journal target name goal address id limit
  | .serve tcp service address => serve journal tcp service address

/-- The probe. -/
def runProbe (a : Assignment) : IO UInt32 := do
  match ← loadSettings a.overrides.config with
  | none => return misuse
  | some settings =>
    let settings := a.overrides.apply settings
    let journal ← Journal.create settings
    let journal ← journal.write (.system "node" .info "startup" (some versionText))
    let verdict ← match a.task.plan settings with
      | .ok plan => carryOut journal plan
      | .error .crash => return crashed
      | .error e => failing e.message
    match verdict with
    | some v =>
      IO.println v.text
      return v.exitCode.toUInt32
    | none => return if a.task = .serve then 0 else crashed

/-- Wait for the answer to a call. -/
partial def answer (pipe : Pipe) (client : Client) (id : UInt64) :
    IO (Except CallError Json.Value) := do
  match client.receive? id with
  | some (r, _) => return r
  | none =>
    let (got, pipe) ← pipe.received?
    match got with
    | none =>
      IO.sleep 1
      answer pipe client id
    | some (.ok (some bytes)) =>
      answer pipe { client with lines := client.lines.feed bytes.toList } id
    | some (.ok none) => answer pipe { client with lines := client.lines.finish } id
    | some (.error e) => return .error (.io (toString e))

/-- Connect to the control port. -/
def connect (address : String) : IO (Except String Pipe) := do
  match ← resolve address with
  | .error reason => return .error reason
  | .ok e =>
    let connected ← attempt do
      let socket ← Std.Internal.UV.TCP.Socket.new
      match (← socket.connect (socketAddress e)).result?.get with
      | some (.ok ()) => Pipe.create socket
      | some (.error e) => throw e
      | none => throw (IO.userError "connection given up")
    return connected.mapError toString

/-- The remote control. -/
def runRemote (own : Arguments) (task : RemoteTask) : IO UInt32 := do
  let address := remoteAddress own
  match ← connect address with
  | .error reason =>
    complain ("Failed to connect to " ++ address ++ ": io: " ++ reason)
    return Verdict.fail.exitCode.toUInt32
  | .ok pipe =>
    let request := Client.fresh.request task.method task.params
    let result ← match ← pipe.send request.line with
      | .ok pipe => answer pipe Client.fresh.sent request.id
      | .error e => pure (.error (.io (toString e)))
    match remoteText task result with
    | .ok text =>
      IO.println text
      return Verdict.ok.exitCode.toUInt32
    | .error text =>
      complain text
      return Verdict.fail.exitCode.toUInt32

/-- Run a program. -/
def runProgram {α : Type} (p : Program α) (run : Arguments → α → IO UInt32) (args : List String) :
    IO UInt32 := do
  match p.invoke args with
  | .run own command => run own command
  | .inform text =>
    IO.print text
    return 0
  | .refuse text =>
    IO.eprint text
    return misuse

end PeerProbe.Live

open PeerProbe PeerProbe.Live in
/-- The program that the first argument asks for. -/
def main (args : List String) : IO UInt32 :=
  match args with
  | "ctl" :: rest => runProgram Command.remoteProgram runRemote rest
  | _ => runProgram Command.probeProgram (fun own a => runProbe (Command.assignment own a)) args
