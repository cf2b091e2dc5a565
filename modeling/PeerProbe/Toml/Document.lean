import PeerProbe.Toml.Item
import PeerProbe.Toml.Scalar

/-!
# Reading TOML documents

A document is read line by line: keys with values, headers of tables and of elements of arrays of
tables, comments and blank lines. Arrays may run over several lines, inline tables may not.
Nesting and the length of a dotted key are bounded.
-/

namespace PeerProbe.Toml

/-- The bound on nesting and on the length of a key. -/
def depthLimit : Nat := 80

/-- Blanks, line ends and comments. A comment must be followed by a line end. -/
def skipGap : Nat → List Char → List Char
  | 0, cs => cs
  | fuel + 1, cs =>
    match newline? (skipComment (skipSpace cs)) with
    | some rest => skipGap fuel rest
    | none =>
      match skipSpace cs with
      | '#' :: rest => '#' :: rest
      | rest => rest

/-- A key without quotes. -/
def isBare (c : Char) : Bool := c.isAlphanum || c = '_' || c = '-'

/-- One part of a key. -/
def keyPart? (cs : List Char) : Option (String × List Char) :=
  match cs.takeWhile isBare with
  | [] => (line? cs).map fun r => (String.ofList r.1, r.2)
  | part => some (String.ofList part, cs.dropWhile isBare)

/-- The parts of a key, with blanks around each. The measure bounds their number. -/
def keyParts? : Nat → List Char → Option (List String × List Char)
  | 0, _ => none
  | fuel + 1, cs => do
    let (part, rest) ← keyPart? (skipSpace cs)
    match skipSpace rest with
    | '.' :: rest => (keyParts? fuel rest).map fun r => (part :: r.1, r.2)
    | rest => some ([part], rest)

/-- A key: its parts but the last, and the last. -/
def key? (cs : List Char) : Option ((List String × String) × List Char) := do
  let (parts, rest) ← keyParts? (cs.length + 1) cs
  let last ← parts.getLast?
  if parts.length < depthLimit then some ((parts.dropLast, last), rest) else none

/-- A value that begins like a number. -/
def number? (cs : List Char) : Option (Item × List Char) :=
  match date? cs with
  | some rest => some (.date, rest)
  | none =>
    match float? cs with
    | some rest => some (.float, rest)
    | none => (integer? cs).map fun r => (.integer r.1, r.2)

/-- A name at the front of a text. -/
def name? (name : List Char) (item : Item) (cs : List Char) : Option (Item × List Char) :=
  (Text.after? name cs).map (item, ·)

/-- A value that is neither an array nor a table in braces. -/
def scalar? (cs : List Char) : Option (Item × List Char) :=
  match cs with
  | [] => none
  | c :: _ =>
    if c = '"' ∨ c = '\x27' then (string? cs).map fun r => (.string r.1, r.2)
    else if c = 't' then name? ['t', 'r', 'u', 'e'] (.boolean true) cs
    else if c = 'f' then name? ['f', 'a', 'l', 's', 'e'] (.boolean false) cs
    else if c = 'i' ∨ c = 'n' then (namedFloat? cs).map (.float, ·)
    else number? cs

mutual

/-- A value at the front of a text, `depth` levels down. The measure bounds the number of calls. -/
def value? (fuel depth : Nat) (cs : List Char) : Option (Item × List Char) :=
  match fuel with
  | 0 => none
  | fuel + 1 =>
    match cs with
    | '[' :: rest =>
      if depth + 1 < depthLimit then
        (items? fuel (depth + 1) rest).map fun r => (.array r.1, r.2)
      else none
    | '\x7b' :: rest =>
      if depth + 1 < depthLimit then
        match skipSpace rest with
        | '\x7d' :: rest => some (.table .inline [], rest)
        | rest => (members? fuel (depth + 1) [] rest).map fun r => (.table .inline r.1, r.2)
      else none
    | _ => scalar? cs

/-- The items of an array after its opening bracket or a comma, up to the closing bracket. -/
def items? (fuel depth : Nat) (cs : List Char) : Option (List Item × List Char) :=
  match fuel with
  | 0 => none
  | fuel + 1 =>
    match skipGap (cs.length + 1) cs with
    | ']' :: rest => some ([], rest)
    | rest =>
      match value? fuel depth rest with
      | none => none
      | some (v, rest) =>
        match skipGap (rest.length + 1) rest with
        | ']' :: rest => some ([v], rest)
        | ',' :: rest => (items? fuel depth rest).map fun r => (v :: r.1, r.2)
        | _ => none

/-- The members of a table in braces, added to those already read, up to the closing brace; there
is at least one more. -/
def members? (fuel depth : Nat) (ms : Members) (cs : List Char) : Option (Members × List Char) :=
  match fuel with
  | 0 => none
  | fuel + 1 =>
    match key? cs with
    | some ((path, k), '=' :: rest) =>
      match value? fuel depth (skipSpace rest) with
      | none => none
      | some (v, rest) =>
        match ms.insertDotted path k v with
        | none => none
        | some ms =>
          match skipSpace rest with
          | '\x7d' :: rest => some (ms, rest)
          | ',' :: rest => members? fuel depth ms rest
          | _ => none
    | _ => none

end

/-- The rest of a line behind a key with its value or behind a header. -/
def lineEnd? (cs : List Char) : Option (List Char) :=
  match skipComment (skipSpace cs) with
  | [] => some []
  | rest => newline? rest

/-- A document as far as it has been read: its members, and the table that keys go into. -/
structure Draft where
  members : Members
  current : List String

/-- A line with a key and its value. -/
def keyLine? (d : Draft) (cs : List Char) : Option (Draft × List Char) :=
  match key? cs with
  | some ((path, k), '=' :: rest) => do
    let (v, rest) ← value? (2 * rest.length + 2) 0 (skipSpace rest)
    let rest ← lineEnd? rest
    let members ← d.members.under d.current (Members.insertDotted path k v)
    some ({ d with members }, rest)
  | _ => none

/-- The header of an element of an array of tables, after its opening brackets. -/
def elementLine? (d : Draft) (cs : List Char) : Option (Draft × List Char) :=
  match key? cs with
  | some ((path, k), ']' :: ']' :: rest) => do
    let rest ← lineEnd? rest
    let members ← d.members.under path (Members.openElement k)
    some (⟨members, path ++ [k]⟩, rest)
  | _ => none

/-- The header of a table, after its opening bracket. -/
def tableLine? (d : Draft) (cs : List Char) : Option (Draft × List Char) :=
  match key? cs with
  | some ((path, k), ']' :: rest) => do
    let rest ← lineEnd? rest
    let members ← d.members.under path (Members.openTable k)
    some (⟨members, path ++ [k]⟩, rest)
  | _ => none

/-- One line of a document that is not empty. -/
def line (d : Draft) (cs : List Char) : Option (Draft × List Char) :=
  match cs with
  | '#' :: _ => (lineEnd? cs).map (d, ·)
  | '[' :: '[' :: rest => elementLine? d rest
  | '[' :: rest => tableLine? d rest
  | _ => (newline? cs).elim (keyLine? d cs) fun rest => some (d, rest)

/-- All lines of a document. Every line is at least one character. -/
def readLines : Nat → Draft → List Char → Option Draft
  | 0, _, _ => none
  | fuel + 1, d, cs =>
    match skipSpace cs with
    | [] => some d
    | cs => (line d cs).bind fun r => readLines fuel r.1 r.2

/-- The members of a whole document. A byte order mark in front is skipped. -/
def parse? (cs : List Char) : Option Members :=
  let cs := match cs with
    | '\ufeff' :: rest => rest
    | cs => cs
  (readLines (cs.length + 1) ⟨[], []⟩ cs).map (·.members)

end PeerProbe.Toml
