import PeerProbe.Json.Value

/-!
# Indented JSON

One item or member per line, two blanks further in for every level. An empty array or object stays
on its line.
-/

namespace PeerProbe.Json

/-- A line break and the blanks in front of a line of some level. -/
def indent (level : Nat) : List Char := '\n' :: List.replicate (2 * level) ' '

mutual

/-- The indented text of a value at some level. -/
def Value.prettyChars (level : Nat) : Value → List Char
  | .array [] => ['[', ']']
  | .object [] => ['\x7b', '\x7d']
  | .array (v :: rest) => '[' :: prettyItems level (v :: rest) ++ indent level ++ [']']
  | .object (m :: rest) => '\x7b' :: prettyMembers level (m :: rest) ++ indent level ++ ['\x7d']
  | v => v.chars

/-- The items of an array, each on its line. -/
def prettyItems (level : Nat) : List Value → List Char
  | [] => []
  | [v] => indent (level + 1) ++ v.prettyChars (level + 1)
  | v :: w :: rest =>
    indent (level + 1) ++ v.prettyChars (level + 1) ++ ',' :: prettyItems level (w :: rest)

/-- The members of an object, each on its line. -/
def prettyMembers (level : Nat) : List (String × Value) → List Char
  | [] => []
  | [(k, v)] =>
    indent (level + 1) ++ stringChars k.toList ++ ':' :: ' ' :: v.prettyChars (level + 1)
  | (k, v) :: m :: rest =>
    indent (level + 1) ++ stringChars k.toList ++ ':' :: ' ' :: v.prettyChars (level + 1) ++
      ',' :: prettyMembers level (m :: rest)

end

/-- The indented text of a value. -/
def Value.prettyText (v : Value) : String := String.ofList (v.prettyChars 0)

end PeerProbe.Json
