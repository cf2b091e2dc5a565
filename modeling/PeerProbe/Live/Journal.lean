import PeerProbe.Log.FileSink
import PeerProbe.Log.Record
import PeerProbe.Settings.Resolve
import PeerProbe.Text.Utf8
import Std.Time.DateTime

/-!
# The log of a running program

Entries get the time and the marks that records carry, and go to the console and to the log file.
-/

namespace PeerProbe.Live

open Log

/-- The log file: its path, its limits, how much it holds, and whether it is open. -/
structure LogFile where
  path : String
  limits : FileLimits
  written : Nat
  isOpen : Bool

/-- Where entries go. -/
structure Journal where
  session : String
  console : Option Level
  file : Option LogFile

/-- Random bytes as hexadecimal digits. -/
def randomHex (count : USize) : IO String := do
  return Hex.encode (← IO.getRandomBytes count).toList

/-- A random identifier in its usual five groups. -/
def randomIdentifier : IO String := do
  let cs := (← randomHex 16).toList
  let group (start count : Nat) : String := String.ofList ((cs.drop start).take count)
  return String.intercalate "-"
    [group 0 8, group 8 4, "4" ++ group 13 3, "a" ++ group 17 3, group 20 12]

namespace LogFile

/-- The path of a file. -/
def pathOf (f : LogFile) (n : FileName) : String := n.text f.path

/-- The size of the live file, which is created if need be. -/
def openSize (path : String) : IO Nat := do
  IO.FS.withFile path .append fun _ => pure ()
  return (← IO.FS.readBinFile path).size

/-- The directory part of a path. -/
def parent (path : String) : String :=
  match Text.cut? '/' path.toList.reverse with
  | some (_, above) => String.ofList above.reverse
  | none => ""

/-- Open the log file in a directory that is made if need be. -/
def create (path : String) (limits : FileLimits) : IO LogFile := do
  unless (parent path).isEmpty do IO.FS.createDirAll (parent path)
  return ⟨path, limits, ← openSize path, true⟩

/-- Which backups there are. -/
def backups (f : LogFile) : IO (List Nat) :=
  (List.range f.limits.maxBackups).filterM fun n => do
    try
      IO.FS.withFile (f.pathOf (.backup n)) .read fun _ => pure true
    catch _ => pure false

/-- Take one step of a rotation. -/
def take (f : LogFile) : RotationStep → IO LogFile
  | .shift n => do
    IO.FS.rename (f.pathOf (.backup n)) (f.pathOf (.backup (n + 1)))
    return f
  | .displace => do
    if 0 < f.limits.maxBackups then IO.FS.rename f.path (f.pathOf (.backup 1))
    else IO.FS.removeFile f.path
    return f
  | .reopen => return { f with written := ← openSize f.path, isOpen := true }

/-- Rotate. A step that fails ends the rotation and leaves the file closed. -/
def rotate (f : LogFile) : IO LogFile := do
  let held ← f.backups
  try
    (FileSink.rotationPlan held.contains f.limits.maxBackups).foldlM take { f with isOpen := false }
  catch e =>
    IO.eprintln ("⚠️ event log rotation failed: " ++ toString e)
    return { f with isOpen := false }

/-- Write a line. -/
def write (f : LogFile) (line : List UInt8) : IO LogFile := do
  let f ← if f.limits.rotate && f.limits.maxSize ≤ f.written then f.rotate else pure f
  unless f.isOpen do return f
  try
    IO.FS.withFile f.path .append fun h => h.write ⟨line.toArray⟩
    return { f with written := f.written + line.length }
  catch _ => return f

end LogFile

namespace Journal

/-- Open the log that the settings ask for. -/
def create (s : Settings) : IO Journal := do
  let file ← match s.logFile? with
    | none => pure none
    | some (path, limits) =>
      try
        pure (some (← LogFile.create path limits))
      catch e =>
        IO.eprintln ("⚠️ JSON log sink disabled (" ++ path ++ "): " ++ toString e)
        pure none
  return ⟨← randomIdentifier, s.consoleLevel?, file⟩

/-- Whether records of an entry carry a correlation. -/
def isCorrelated (e : Entry) : Bool :=
  match e.body with
  | .protocol _ _ _ _ => false
  | _ => true

/-- Make a record of an entry. -/
def record (j : Journal) (e : Entry) : IO Record := do
  let nanos := (← Std.Time.Timestamp.now).toNanosecondsSinceUnixEpoch.toInt.toNat
  let correlation ← if isCorrelated e then some <$> randomHex 4 else pure none
  return ⟨nanos / 1000000000, nanos % 1000000000, correlation, j.session, false, e⟩

/-- Write an entry. -/
def write (j : Journal) (e : Entry) : IO Journal := do
  let r ← j.record e
  match j.console with
  | some level => IO.eprint (Record.consoleText (some level) [r])
  | none => pure ()
  match j.file with
  | some f => return { j with file := some (← f.write (Utf8.encode r.fileLine)) }
  | none => return j

/-- Write several entries. -/
def writeAll (j : Journal) (es : List Entry) : IO Journal := es.foldlM write j

end Journal

end PeerProbe.Live
