import PeerProbe.Text.Unprintable
import PeerProbe.Text.Decimal

/-!
# Quoted text

The form in which messages show a text they were given: in double quotes, with short escapes
for the quote, the backslash, tab, line feed, carriage return and NUL, and with `\u` and the
hexadecimal code point in braces for every other character that has no visible form.
-/

namespace PeerProbe.Text

/-- A code point escape. -/
def escapeCode (c : Char) : List Char :=
  ['\\', 'u', '\x7b'] ++ hexadecimal c.toNat ++ ['\x7d']

/-- One character inside quotes. -/
def escapeChar (c : Char) : List Char :=
  if c = '"' then ['\\', '"']
  else if c = '\\' then ['\\', '\\']
  else if c = '\n' then ['\\', 'n']
  else if c = '\r' then ['\\', 'r']
  else if c = '\t' then ['\\', 't']
  else if c = '\x00' then ['\\', '0']
  else if isUnprintable c then escapeCode c
  else [c]

/-- A text in double quotes. -/
def quoted (s : String) : String :=
  String.ofList ('"' :: s.toList.flatMap escapeChar ++ ['"'])

/-- A single character in single quotes; here the single quote is escaped and the double quote
is not. -/
def quotedChar (c : Char) : String :=
  let body := if c = '\x27' then ['\\', '\x27'] else if c = '"' then ['"'] else escapeChar c
  String.ofList ('\x27' :: body ++ ['\x27'])

/-- A value that may be missing, shown as `None` or `Some(…)`. -/
def optional {α : Type} (shown : α → String) : Option α → String
  | none => "None"
  | some a => "Some(" ++ shown a ++ ")"

end PeerProbe.Text
