import PeerProbe.Number.Shortest

/-!
# JSON values and their text

A value is what a reader makes of a JSON text. Numbers are either integers that fit 64 bits or
doubles. The members of an object are printed in the order in which they stand; a value that was
read has them sorted by key, each key once.

The text is compact: no blanks, short escapes where JSON has them, `\u00xx` for the other
characters below U+0020, and every other character as itself.
-/

namespace PeerProbe.Json

/-- A JSON value. -/
inductive Value where
  | null
  | bool (b : Bool)
  | integer (n : Int)
  | double (bits : UInt64)
  | string (s : String)
  | array (items : List Value)
  | object (members : List (String × Value))
  deriving Inhabited

/-- Two hexadecimal digits of a control character. -/
def controlDigits (n : Nat) : List Char :=
  [Nat.digitChar (n / 16), Nat.digitChar (n % 16)]

/-- One character inside a JSON string. -/
def escapeChar (c : Char) : List Char :=
  if c = '"' then ['\\', '"']
  else if c = '\\' then ['\\', '\\']
  else if c = '\x08' then ['\\', 'b']
  else if c = '\x0c' then ['\\', 'f']
  else if c = '\n' then ['\\', 'n']
  else if c = '\r' then ['\\', 'r']
  else if c = '\t' then ['\\', 't']
  else if c.toNat < 0x20 then '\\' :: 'u' :: '0' :: '0' :: controlDigits c.toNat
  else [c]

/-- The text of a JSON string. -/
def stringChars (cs : List Char) : List Char := '"' :: cs.flatMap escapeChar ++ ['"']

/-- The text of an integer. -/
def integerChars : Int → List Char
  | .ofNat n => Nat.toDigits 10 n
  | .negSucc n => '-' :: Nat.toDigits 10 (n + 1)

mutual

/-- The text of a value. -/
def Value.chars : Value → List Char
  | .null => ['n', 'u', 'l', 'l']
  | .bool true => ['t', 'r', 'u', 'e']
  | .bool false => ['f', 'a', 'l', 's', 'e']
  | .integer n => integerChars n
  | .double bits => Shortest.chars bits
  | .string s => stringChars s.toList
  | .array items => '[' :: itemsChars items ++ [']']
  | .object members => '\x7b' :: membersChars members ++ ['\x7d']

/-- The items of an array with commas between them. -/
def itemsChars : List Value → List Char
  | [] => []
  | [v] => v.chars
  | v :: w :: rest => v.chars ++ ',' :: itemsChars (w :: rest)

/-- The members of an object with commas between them. -/
def membersChars : List (String × Value) → List Char
  | [] => []
  | [(k, v)] => stringChars k.toList ++ ':' :: v.chars
  | (k, v) :: m :: rest => stringChars k.toList ++ ':' :: v.chars ++ ',' :: membersChars (m :: rest)

end

/-- The text of a value, as text. -/
def Value.text (v : Value) : String := String.ofList v.chars

/-- A natural number as a value. -/
def Value.nat (n : Nat) : Value := .integer n

/-- A text or nothing. -/
def Value.ofOption : Option String → Value
  | none => .null
  | some s => .string s

end PeerProbe.Json
