import PeerProbe.Text.Decimal
import PeerProbe.Text.Blank

/-!
# TOML scalars

Strings in their four forms, integers, floats and dates, each read at the front of a text. A
reader gives what it read and the rest; `none` means that nothing of the kind stands there.
-/

namespace PeerProbe.Toml

/-- A reader: what stands at the front of a text, and the rest. -/
abbrev Reader (α : Type) := List Char → Option (α × List Char)

/-- The blanks inside a line. -/
def isSpace (c : Char) : Bool := c = ' ' || c = '\t'

/-- The text behind the blanks at its front. -/
def skipSpace (cs : List Char) : List Char := cs.dropWhile isSpace

/-- The text behind a line end, if it begins with one. A carriage return counts only before a line
feed. -/
def newline? : List Char → Option (List Char)
  | '\n' :: rest => some rest
  | '\r' :: '\n' :: rest => some rest
  | _ => none

/-- A character that may stand in comments and strings: a tab or anything but a control
character. -/
def isPlain (c : Char) : Bool := c = '\t' || (0x20 ≤ c.toNat && c.toNat ≠ 0x7f)

/-- The text behind a comment, if there is one. -/
def skipComment : List Char → List Char
  | '#' :: rest => rest.dropWhile isPlain
  | cs => cs

/-! ## Strings -/

/-- The character that a number of hexadecimal digits names. -/
def codePoint? (count : Nat) (cs : List Char) : Option (Char × List Char) := do
  let ds := cs.take count
  if ds.length ≠ count then none
  else
    let n ← Text.digitsValue? 16 0 ds
    if n.isValidChar then some (Char.ofNat n, cs.drop count) else none

/-- The character of an escape, after the backslash. -/
def escape? : Reader Char
  | [] => none
  | c :: rest =>
    if c = 'u' then codePoint? 4 rest
    else if c = 'U' then codePoint? 8 rest
    else
      let named := [('b', '\x08'), ('t', '\t'), ('n', '\n'), ('f', '\x0c'), ('r', '\r'),
        ('"', '"'), ('\\', '\\')]
      (named.lookup c).map (·, rest)

/-- The rest of a basic string after its opening quote. The measure bounds its length. -/
def basicBody : Nat → Reader (List Char)
  | 0, _ => none
  | _ + 1, [] => none
  | fuel + 1, c :: rest =>
    if c = '"' then some ([], rest)
    else if c = '\\' then do
      let (d, rest) ← escape? rest
      let (ds, rest) ← basicBody fuel rest
      some (d :: ds, rest)
    else if isPlain c then do
      let (ds, rest) ← basicBody fuel rest
      some (c :: ds, rest)
    else none

/-- The rest of a literal string after its opening quote. -/
def literalBody : Reader (List Char)
  | [] => none
  | c :: rest =>
    if c = '\x27' then some ([], rest)
    else if isPlain c then (literalBody rest).map fun r => (c :: r.1, r.2)
    else none

/-- How many times a character stands at the front. -/
def run (c : Char) (cs : List Char) : Nat := (cs.takeWhile (· = c)).length

/-- The text behind an escaped line end, after the backslash: the blanks before it, and all blanks
and line ends after it. A carriage return alone ends the gap. -/
def lineGap : Nat → List Char → List Char
  | 0, cs => cs
  | fuel + 1, cs =>
    match newline? cs with
    | some rest => lineGap fuel rest
    | none =>
      match cs with
      | c :: rest => if isSpace c then lineGap fuel rest else cs
      | [] => []

/-- The text behind an escaped line end, if one stands after the backslash. -/
def escapedNewline? (cs : List Char) : Option (List Char) :=
  (newline? (skipSpace cs)).map fun rest => lineGap (rest.length + 1) rest

/-- The rest of a string of several lines after its opening quotes. Up to two quotes may stand
inside, also right before the closing ones; line ends become line feeds. -/
def linesBody (quote : Char) (escapes : Bool) : Nat → Reader (List Char)
  | 0, _ => none
  | _ + 1, [] => none
  | fuel + 1, c :: rest =>
    if c = quote then
      let n := run quote (c :: rest)
      if n < 3 then do
        let (ds, rest) ← linesBody quote escapes fuel ((c :: rest).drop n)
        some (List.replicate n quote ++ ds, rest)
      else if n ≤ 5 then some (List.replicate (n - 3) quote, (c :: rest).drop n)
      else none
    else if c = '\\' ∧ escapes then
      match escapedNewline? rest with
      | some rest => linesBody quote escapes fuel rest
      | none => do
        let (d, rest) ← escape? rest
        let (ds, rest) ← linesBody quote escapes fuel rest
        some (d :: ds, rest)
    else
      match newline? (c :: rest) with
      | some rest => do
        let (ds, rest) ← linesBody quote escapes fuel rest
        some ('\n' :: ds, rest)
      | none =>
        if isPlain c then do
          let (ds, rest) ← linesBody quote escapes fuel rest
          some (c :: ds, rest)
        else none

/-- A string of several lines after its opening quotes; a line end right behind them is skipped. -/
def lines? (quote : Char) (escapes : Bool) (cs : List Char) : Option (List Char × List Char) :=
  let cs := (newline? cs).getD cs
  linesBody quote escapes (cs.length + 1) cs

/-- A string in one line. -/
def line? : Reader (List Char)
  | '"' :: rest => basicBody (rest.length + 1) rest
  | '\x27' :: rest => literalBody rest
  | _ => none

/-- A string in any form. -/
def string? : Reader String
  | '"' :: '"' :: '"' :: rest => (lines? '"' true rest).map fun r => (String.ofList r.1, r.2)
  | '\x27' :: '\x27' :: '\x27' :: rest =>
    (lines? '\x27' false rest).map fun r => (String.ofList r.1, r.2)
  | cs => (line? cs).map fun r => (String.ofList r.1, r.2)

/-! ## Numbers -/

/-- The digits behind a digit. An underscore must have digits on both sides. -/
def moreDigits? (radix : Nat) : List Char → Option (List Nat × List Char)
  | [] => some ([], [])
  | [c] =>
    match Text.digit? radix c with
    | some d => some ([d], [])
    | none => if c = '_' then none else some ([], [c])
  | c :: d :: rest =>
    match Text.digit? radix c with
    | some n => (moreDigits? radix (d :: rest)).map fun r => (n :: r.1, r.2)
    | none =>
      if c = '_' then
        match Text.digit? radix d with
        | some n => (moreDigits? radix rest).map fun r => (n :: r.1, r.2)
        | none => none
      else some ([], c :: d :: rest)

/-- Digits of a radix with single underscores between them. -/
def digits? (radix : Nat) : List Char → Option (List Nat × List Char)
  | [] => none
  | c :: rest => do
    let d ← Text.digit? radix c
    let (ds, rest) ← moreDigits? radix rest
    some (d :: ds, rest)

/-- The number of some digits. -/
def ofDigits (radix : Nat) (ds : List Nat) : Nat := ds.foldl (fun n d => radix * n + d) 0

/-- A sign, if there is one: whether it is a minus. -/
def sign : List Char → Bool × List Char
  | '-' :: rest => (true, rest)
  | '+' :: rest => (false, rest)
  | cs => (false, cs)

/-- Decimal digits without a leading zero, unless zero is all there is. -/
def whole? (cs : List Char) : Option (List Nat × List Char) :=
  match cs with
  | '0' :: rest => some ([0], rest)
  | _ => digits? 10 cs

/-- An integer of a marked radix, below `2^63`. -/
def radixInteger? (radix : Nat) (cs : List Char) : Option (Int × List Char) := do
  let (ds, rest) ← digits? radix cs
  let n := ofDigits radix ds
  if n < 0x8000000000000000 then some (n, rest) else none

/-- An integer of 64 bits. -/
def integer? : Reader Int
  | '0' :: 'x' :: rest => radixInteger? 16 rest
  | '0' :: 'o' :: rest => radixInteger? 8 rest
  | '0' :: 'b' :: rest => radixInteger? 2 rest
  | cs => do
    let (negative, rest) := sign cs
    let (ds, rest) ← whole? rest
    let n := ofDigits 10 ds
    if negative then if n ≤ 0x8000000000000000 then some (-(n : Int), rest) else none
    else if n < 0x8000000000000000 then some (n, rest) else none

/-- An exponent. -/
def exponent? : Reader Int
  | c :: rest =>
    if c = 'e' ∨ c = 'E' then do
      let (negative, rest) := sign rest
      let (ds, rest) ← digits? 10 rest
      let n := ofDigits 10 ds
      some (if negative then -(n : Int) else n, rest)
    else none
  | [] => none

/-- Whether the decimal `n · 10^e` rounds to infinity as a double. -/
def overflows (n : Nat) (e : Int) : Bool :=
  let places : Int := (Nat.toDigits 10 n).length + e
  if n = 0 ∨ places < 300 then false
  else if 310 < places then true
  else
    let bound := Nat.pow 2 1024 - Nat.pow 2 970
    if 0 ≤ e then bound ≤ n * Nat.pow 10 e.toNat else bound * Nat.pow 10 (-e).toNat ≤ n

/-- The fraction and the exponent of a float, of which there is at least one. -/
def floatTail? (cs : List Char) : Option ((List Nat × Int) × List Char) :=
  match cs with
  | '.' :: rest => do
    let (ds, rest) ← digits? 10 rest
    match exponent? rest with
    | some (e, rest) => some ((ds, e), rest)
    | none => some ((ds, 0), rest)
  | _ => (exponent? cs).map fun r => (([], r.1), r.2)

/-- A named float behind its sign. -/
def namedFloat? (cs : List Char) : Option (List Char) :=
  match Text.after? ['i', 'n', 'f'] cs with
  | some rest => some rest
  | none => Text.after? ['n', 'a', 'n'] cs

/-- The text behind a float. A written one may not be too large, unless it is negative. -/
def float? (cs : List Char) : Option (List Char) :=
  let (negative, rest) := sign cs
  match namedFloat? rest with
  | some rest => some rest
  | none => do
    let (ds, rest) ← whole? rest
    let ((fs, e), rest) ← floatTail? rest
    if !negative && overflows (ofDigits 10 (ds ++ fs)) (e - fs.length) then none else some rest

/-! ## Dates and times -/

/-- A number of exactly so many decimal digits. -/
def fixed? (count : Nat) (cs : List Char) : Option (Nat × List Char) :=
  let ds := cs.take count
  if ds.length = count then (Text.digitsValue? 10 0 ds).map (·, cs.drop count) else none

/-- The days of a month. -/
def monthDays (year month : Nat) : Nat :=
  if month = 2 then
    if year % 4 = 0 ∧ (year % 100 ≠ 0 ∨ year % 400 = 0) then 29 else 28
  else if [4, 6, 9, 11].contains month then 30 else 31

/-- The text behind a given character. -/
def behind? (c : Char) : List Char → Option (List Char)
  | d :: rest => if d = c then some rest else none
  | [] => none

/-- The text behind a day of the calendar. -/
def day? (cs : List Char) : Option (List Char) := do
  let (year, rest) ← fixed? 4 cs
  let rest ← behind? '-' rest
  let (month, rest) ← fixed? 2 rest
  let rest ← behind? '-' rest
  let (day, rest) ← fixed? 2 rest
  if 1 ≤ month ∧ month ≤ 12 ∧ 1 ≤ day ∧ day ≤ monthDays year month then some rest else none

/-- The text behind an hour and a minute. -/
def clock? (cs : List Char) : Option (List Char) := do
  let (hour, rest) ← fixed? 2 cs
  let rest ← behind? ':' rest
  let (minute, rest) ← fixed? 2 rest
  if hour < 24 ∧ minute < 60 then some rest else none

/-- The text behind a time of day. -/
def time? (cs : List Char) : Option (List Char) := do
  let rest ← clock? cs
  let rest ← behind? ':' rest
  let (second, rest) ← fixed? 2 rest
  if 60 < second then none
  else match rest with
    | '.' :: c :: rest =>
      if c.isDigit then some (rest.dropWhile Char.isDigit) else some ('.' :: c :: rest)
    | rest => some rest

/-- The text behind the offset of a time, if there is one. -/
def skipOffset (cs : List Char) : List Char :=
  match cs with
  | c :: rest =>
    if c = 'Z' ∨ c = 'z' then rest
    else if c = '+' ∨ c = '-' then (clock? rest).getD cs
    else cs
  | [] => []

/-- The text behind a date, a time or both. -/
def date? (cs : List Char) : Option (List Char) :=
  match day? cs with
  | none => time? cs
  | some rest =>
    match rest with
    | c :: after =>
      if c = 'T' ∨ c = 't' ∨ c = ' ' then
        match time? after with
        | some rest => some (skipOffset rest)
        | none => some rest
      else some rest
    | [] => some []

end PeerProbe.Toml
