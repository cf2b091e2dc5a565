import PeerProbe.Json.Value
import PeerProbe.Log.Entry
import PeerProbe.Text.Quoted

/-!
# Log records and their two forms

A record is an entry with the time, the correlation and the session it belongs to. The console
shows one line per record, for people; the file holds one JSON object per line, for programs.
-/

namespace PeerProbe.Log

/-- An entry as it reaches the sinks. -/
structure Record where
  seconds : Nat
  nanos : Nat
  correlation : Option String
  session : String
  suppressConsole : Bool
  entry : Entry

namespace Record

/-- An optional text as the console shows it. -/
def shown (s : Option String) : String := Text.optional Text.quoted s

/-- The console line of a record, without the line feed. -/
def consoleLine (r : Record) : String :=
  let corr := shown r.correlation
  "   " ++ match r.entry.body with
  | .network action addr detail =>
    "NET [" ++ r.entry.component ++ "] action=" ++ action ++ " addr=" ++ shown addr ++ " detail=" ++
      shown detail ++ " corr=" ++ corr
  | .protocol peer code kind detail =>
    "PROTO kind=" ++ kind ++ " code=" ++ Text.optional (fun c => toString c.toNat) code ++
      " peer=" ++ shown peer ++ " detail=" ++ shown detail
  | .rpc method remote ok detail =>
    "RPC method=" ++ method ++ " ok=" ++ toString ok ++ " remote=" ++ shown remote ++ " detail=" ++
      shown detail ++ " corr=" ++ corr
  | .system action detail =>
    "SYS action=" ++ action ++ " detail=" ++ shown detail ++ " corr=" ++ corr

/-- Whether the console shows a record under a least level, if there is one. -/
def onConsole (min : Option Level) (r : Record) : Bool :=
  !r.suppressConsole && min.all r.entry.level.atLeast

/-- Everything the console prints for some records. -/
def consoleText (min : Option Level) (rs : List Record) : String :=
  String.join ((rs.filter (onConsole min)).map fun r => r.consoleLine ++ "\n")

open Json (Value) in
/-- The part of the JSON form that all records share. -/
def common (r : Record) : Value :=
  .object [
    ("ts", .object [("secs_since_epoch", .nat r.seconds), ("nanos_since_epoch", .nat r.nanos)]),
    ("level", .string r.entry.level.name), ("corr_id", .ofOption r.correlation),
    ("session_id", .string r.session), ("component", .string r.entry.component),
    ("suppress_console", .bool r.suppressConsole)]

open Json (Value) in
/-- The JSON form of a record. -/
def json (r : Record) : Value :=
  let (kind, fields) : String × List (String × Value) := match r.entry.body with
    | .network action addr detail =>
      ("network", [("action", .string action), ("addr", .ofOption addr),
        ("detail", .ofOption detail)])
    | .protocol peer code kind detail =>
      ("protocol", [("peer", .ofOption peer),
        ("code", (code.map fun c => Value.nat c.toNat).getD .null), ("kind", .string kind),
        ("detail", .ofOption detail)])
    | .rpc method remote ok detail =>
      ("rpc", [("method", .string method), ("remote", .ofOption remote), ("ok", .bool ok),
        ("detail", .ofOption detail)])
    | .system action detail =>
      ("system", [("action", .string action), ("detail", .ofOption detail)])
  .object (("type", .string kind) :: ("meta", r.common) :: fields)

/-- The file line of a record, line feed included. -/
def fileLine (r : Record) : List Char := r.json.chars ++ ['\n']

end Record

end PeerProbe.Log
