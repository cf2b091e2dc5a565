import PeerProbe.Text.Blank

/-!
# Log entries

What the parts of a node have to say. An entry has a component, a level and one of four bodies:
something on the network, a message on a connection, a control call, or the system itself.
-/

namespace PeerProbe.Log

/-- How much an entry matters. -/
inductive Level where
  | trace
  | debug
  | info
  | warn
  | error
  deriving DecidableEq, Repr

namespace Level

/-- The name of a level. -/
def name : Level → String
  | .trace => "trace"
  | .debug => "debug"
  | .info => "info"
  | .warn => "warn"
  | .error => "error"

/-- The place of a level in ascending order. -/
def rank : Level → Nat
  | .trace => 0
  | .debug => 1
  | .info => 2
  | .warn => 3
  | .error => 4

/-- Whether a level is at least another. -/
def atLeast (l min : Level) : Bool := min.rank ≤ l.rank

/-- The level of a name in any case; `warning` is another name of `warn`. -/
def parse? (s : String) : Option Level :=
  match String.ofList (Text.lowerAscii s.toList) with
  | "trace" => some .trace
  | "debug" => some .debug
  | "info" => some .info
  | "warn" => some .warn
  | "warning" => some .warn
  | "error" => some .error
  | _ => none

end Level

/-- What an entry reports. -/
inductive Body where
  | network (action : String) (addr detail : Option String)
  | protocol (peer : Option String) (code : Option UInt64) (kind : String) (detail : Option String)
  | rpc (method : String) (remote : Option String) (ok : Bool) (detail : Option String)
  | system (action : String) (detail : Option String)
  deriving DecidableEq

/-- One entry of the log. -/
structure Entry where
  component : String
  level : Level
  body : Body
  deriving DecidableEq

namespace Entry

/-- What an entry is about: an address or a peer, or nothing in particular. -/
def subject (e : Entry) : String :=
  match e.body with
  | .network _ addr _ => addr.getD ""
  | .protocol peer _ _ _ => peer.getD ""
  | _ => ""

/-- An entry of a network component. -/
def network (component : String) (level : Level) (action : String) (addr : Option String)
    (detail : Option String) : Entry :=
  ⟨component, level, .network action addr detail⟩

/-- An entry about one message on a connection. -/
def protocol (level : Level) (kind : String) (peer : String) (code : UInt64)
    (detail : Option String) : Entry :=
  ⟨"protocol", level, .protocol (some peer) (some code) kind detail⟩

/-- An entry of the control port. -/
def rpc (level : Level) (method : String) (remote : Option String) (ok : Bool)
    (detail : Option String) : Entry :=
  ⟨"rpc", level, .rpc method remote ok detail⟩

/-- An entry of the system. -/
def system (component : String) (level : Level) (action : String) (detail : Option String) :
    Entry :=
  ⟨component, level, .system action detail⟩

end Entry

end PeerProbe.Log
