import PeerProbe.Command.Program
import PeerProbe.Control.Client
import PeerProbe.Json.Pretty
import PeerProbe.Settings.Resolve

/-!
# The remote control

Each command makes one call on the control port of a running node and prints its result as indented
JSON.
-/

namespace PeerProbe.Command

open Json (Value)

/-- A call to make. -/
inductive RemoteTask where
  | start
  | stop
  | addPeer (enode : String) (timeoutSecs : Option UInt64)
  | removePeer (enode : String)
  deriving DecidableEq, Repr

namespace RemoteTask

/-- The method of a call. -/
def method : RemoteTask → String
  | .start => Control.Method.start
  | .stop => Control.Method.stop
  | .addPeer _ _ => Control.Method.addPeer
  | .removePeer _ => Control.Method.removePeer

/-- The parameters of a call. -/
def params : RemoteTask → Value
  | .start => .object []
  | .stop => .object []
  | .addPeer enode timeoutSecs => Control.AddPeer.json ⟨enode, timeoutSecs⟩
  | .removePeer enode => Control.RemovePeer.json ⟨enode⟩

/-- The order that the call gives to the service. -/
def order : RemoteTask → Order
  | .start => .start
  | .stop => .stop
  | .addPeer enode timeoutSecs => .addPeer enode (timeoutSecs.map fun s => s.toNat * 1000)
  | .removePeer enode => .removePeer enode

end RemoteTask

/-- Where the control port of an address is dialled: `":port"` is on this host. -/
def dialAddress (address : String) : String :=
  match address.toList with
  | ':' :: port => "127.0.0.1:" ++ String.ofList port
  | _ => listenAddress address

/-- The address of the node. -/
def remoteOption : OptionSpec :=
  ⟨"rpc", 'r', .text, "RPC", "RPC address of the node [default: " ++ defaultControlAddress ++ "]"⟩

/-- How long the node may wait. -/
def waitOption : OptionSpec :=
  ⟨"timeout", 't', .number, "TIMEOUT", "Seconds to wait; server default when omitted"⟩

/-- A command of the remote control. -/
def remoteCommand (name about arguments : String) (options : List OptionSpec)
    (operands : List OperandSpec) (meaning : Arguments → RemoteTask) : CommandSpec RemoteTask where
  name := name
  grammar := { usage := "devp2ping-ctl " ++ name ++ arguments, about, options, operands }
  meaning := meaning

/-- The commands of the remote control. -/
def remoteCommands : List (CommandSpec RemoteTask) := [
  remoteCommand "start" "Start the p2p node" "" [] [] fun _ => .start,
  remoteCommand "stop" "Stop the p2p node (no-op when stopped)" "" [] [] fun _ => .stop,
  remoteCommand "add-peer" "Dial a peer and wait for the outcome" " [OPTIONS] <ENODE>" [waitOption]
    [⟨"ENODE", ""⟩] fun a => .addPeer a.operand (a.number? "timeout"),
  remoteCommand "remove-peer" "Disconnect a peer without waiting for the drop" " <ENODE>" []
    [⟨"ENODE", ""⟩] fun a => .removePeer a.operand]

/-- The remote control. -/
def remoteProgram : Program RemoteTask where
  name := "devp2ping-ctl"
  release := "0.1.0"
  grammar :=
    { usage := "devp2ping-ctl [OPTIONS] <COMMAND>", about := "RPC client for devp2ping serve"
      commands := remoteCommands.map fun c => (c.name, c.grammar.about)
      options := [remoteOption], versioned := true }
  commands := remoteCommands

/-- Where the remote control dials. -/
def remoteAddress (own : Arguments) : String :=
  dialAddress ((own.text? "rpc").getD defaultControlAddress)

/-- What is printed about a call: a result, or why there is none. -/
def remoteText (task : RemoteTask) : Except Control.CallError Value → Except String String
  | .ok v => .ok v.prettyText
  | .error e => .error (task.method ++ " failed: " ++ e.message)

end PeerProbe.Command
