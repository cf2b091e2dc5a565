import PeerProbe.Text.Blank
import PeerProbe.Text.Decimal

/-!
# A log file with rotated backups

Lines are appended to a live file. A write that finds it at or above its size limit first rotates:
the live file becomes backup 1, every backup moves up by one, and the one that would pass the
last number is overwritten.

A rotation gives up the open file first and then takes several steps, each of which may fail and
end it. Until a later rotation succeeds, or the sink is opened again, lines are lost.
-/

namespace PeerProbe.Log

/-- What the name of a file says: it is the live file, a numbered backup, or something else. -/
inductive FileName where
  | live
  | backup (n : Nat)
  | other (name : String)
  deriving DecidableEq, Repr

namespace FileName

/-- The text of a name, given that of the live file. -/
def text (path : String) : FileName → String
  | .live => path
  | .backup n => path ++ "." ++ Text.decimalText n
  | .other s => s

/-- The number a backup suffix is the plain decimal of. -/
def suffix? (cs : List Char) : Option Nat :=
  (Text.digitsValue? 10 0 cs).filter fun n => Text.decimal n = cs

/-- The name that a text is. -/
def ofText (path name : String) : FileName :=
  if name = path then .live
  else match (Text.after? (path.toList ++ ['.']) name.toList).bind suffix? with
    | some n => .backup n
    | none => .other name

end FileName

/-- The files next to each other, each name at most once. -/
abbrev Files := List (FileName × List UInt8)

namespace Files

/-- The content of a file. -/
def get? (fs : Files) (s : FileName) : Option (List UInt8) := fs.lookup s

/-- Whether there is such a file. -/
def has (fs : Files) (s : FileName) : Bool := (fs.get? s).isSome

/-- The files without one of them. -/
def erase (fs : Files) (s : FileName) : Files := fs.filter fun f => f.1 ≠ s

/-- The files with the content of one of them set. -/
def put (fs : Files) (s : FileName) (content : List UInt8) : Files := fs.erase s ++ [(s, content)]

/-- Rename a file over whatever has the new name; `none` if there is no such file. -/
def rename? (fs : Files) (source target : FileName) : Option Files :=
  (fs.get? source).map fun content => (fs.erase source).put target content

/-- Remove a file; `none` if there is no such file. -/
def remove? (fs : Files) (s : FileName) : Option Files :=
  if fs.has s then some (fs.erase s) else none

end Files

/-- What the sink has in its hands: nothing, the live file, or a file that was deleted under it. -/
inductive Handle where
  | closed
  | attached
  | detached
  deriving DecidableEq, Repr

/-- The steps of a rotation. -/
inductive RotationStep where
  | shift (n : Nat)
  | displace
  | reopen
  deriving DecidableEq, Repr

/-- Limits of a sink. -/
structure FileLimits where
  rotate : Bool
  maxSize : Nat
  maxBackups : Nat

/-- A log file between two writes. -/
structure FileSink where
  files : Files
  handle : Handle
  written : Nat

namespace FileSink

/-- Open the live file for appending, creating it if need be. -/
def opened (fs : Files) : FileSink :=
  match fs.get? .live with
  | some content => ⟨fs, .attached, content.length⟩
  | none => ⟨fs.put .live [], .attached, 0⟩

/-- Move backups up by one, from number `n` down to number 1, missing ones left out; the flag
tells whether every step went through. -/
def shift (allowed : RotationStep → Bool) : Nat → Files → Files × Bool
  | 0, fs => (fs, true)
  | n + 1, fs =>
    if fs.has (.backup (n + 1)) then
      if allowed (.shift (n + 1)) then
        match fs.rename? (.backup (n + 1)) (.backup (n + 2)) with
        | some fs' => shift allowed n fs'
        | none => (fs, false)
      else (fs, false)
    else shift allowed n fs

/-- Make room for a new live file: it becomes backup 1, or is removed when none are kept. -/
def displace (allowed : RotationStep → Bool) (maxBackups : Nat) (fs : Files) : Files × Bool :=
  let moved := if 0 < maxBackups then fs.rename? .live (.backup 1) else fs.remove? .live
  match allowed .displace, moved with
  | true, some fs' => (fs', true)
  | _, _ => (fs, false)

/-- A rotation in which the refused steps fail. The open file is given up first, and every failure
leaves it so. -/
def rotate (allowed : RotationStep → Bool) (maxBackups : Nat) (s : FileSink) : FileSink :=
  let (fs, shifted) := shift allowed (maxBackups - 1) s.files
  if shifted then
    let (fs, displaced) := displace allowed maxBackups fs
    if displaced && allowed .reopen then opened fs else ⟨fs, .closed, s.written⟩
  else ⟨fs, .closed, s.written⟩

/-- The steps that a rotation takes, given which backups there are. -/
def rotationPlan (has : Nat → Bool) (maxBackups : Nat) : List RotationStep :=
  (((List.range maxBackups).filter fun n => 0 < n && has n).reverse.map .shift) ++
    [.displace, .reopen]

/-- Whether a write rotates first. -/
def isDue (limits : FileLimits) (s : FileSink) : Bool := limits.rotate && limits.maxSize ≤ s.written

/-- Append a line to whatever is open. -/
def append (s : FileSink) (line : List UInt8) : FileSink :=
  match s.handle with
  | .closed => s
  | .detached => { s with written := s.written + line.length }
  | .attached =>
    { s with files := s.files.put .live ((s.files.get? .live).getD [] ++ line)
             written := s.written + line.length }

/-- Handle one line. -/
def handleWith (allowed : RotationStep → Bool) (limits : FileLimits) (s : FileSink)
    (line : List UInt8) : FileSink :=
  (if s.isDue limits then s.rotate allowed limits.maxBackups else s).append line

/-- Handle one line with every file operation going through. -/
def write (limits : FileLimits) (s : FileSink) (line : List UInt8) : FileSink :=
  s.handleWith (fun _ => true) limits line

/-- Delete a file from outside. -/
def delete (s : FileSink) (name : FileName) : FileSink :=
  { s with files := s.files.erase name
           handle := if name = .live ∧ s.handle = .attached then .detached else s.handle }

/-- Open a new sink on the same files. -/
def reopen (s : FileSink) : FileSink := opened s.files

/-- The files of a directory around a live file; `none` when the live file cannot be
created because its name or a part of it is taken by the other kind of entry. -/
def files? (path : String) (existing : List (String × List UInt8)) : Option Files :=
  let blocked (name : String) : Bool :=
    (Text.after? (path.toList ++ ['/']) name.toList).isSome ||
      (Text.after? (name.toList ++ ['/']) path.toList).isSome
  if existing.any fun f => blocked f.1 then none
  else some (existing.foldl (fun fs f => Files.put fs (FileName.ofText path f.1) f.2) [])

end FileSink

end PeerProbe.Log
