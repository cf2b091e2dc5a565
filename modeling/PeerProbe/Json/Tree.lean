import PeerProbe.Json.Value
import PeerProbe.Text.Decimal

/-!
# Reading JSON

A text is first read into a tree that records what stands there: members in order, repeated keys
included, numerals digit by digit, and strings whose escapes name no character marked as such.
`Tree.value?` then gives the tree a value. The two steps are apart because a reader of a known
shape skips members it does not know without asking for their value: there a numeral may be out
of range, an escape may name half a surrogate pair and the nesting may be of any depth.
-/

namespace PeerProbe.Json

/-- A number as written. -/
structure Numeral where
  negative : Bool
  whole : List Nat
  fraction : Option (List Nat)
  exponent : Option Int
  deriving DecidableEq, Repr

/-- A JSON text as written. A string is `none` when an escape in it names no character. -/
inductive Tree where
  | null
  | bool (b : Bool)
  | number (n : Numeral)
  | string (s : Option String)
  | array (items : List Tree)
  | object (members : List (Option String × Tree))
  deriving Inhabited

/-! ## Text to tree -/

/-- The blanks JSON allows between tokens. -/
def isSpace (c : Char) : Bool := c = ' ' || c = '\n' || c = '\r' || c = '\t'

/-- The text from its first token on. -/
def skipSpace (cs : List Char) : List Char := cs.dropWhile isSpace

/-- Four hexadecimal digits. -/
def unit? : List Char → Option (Nat × List Char)
  | a :: b :: c :: d :: rest => do
    let n ← Text.digitsValue? 16 0 [a, b, c, d]
    some (n, rest)
  | _ => none

/-- The character a pair of escaped units names. -/
def pair? (high low : Nat) : Option Char :=
  if 0xd800 ≤ high ∧ high < 0xdc00 ∧ 0xdc00 ≤ low ∧ low < 0xe000 then
    some (Char.ofNat (0x10000 + (high - 0xd800) * 0x400 + (low - 0xdc00)))
  else none

/-- The character a single escaped unit names. -/
def single? (n : Nat) : Option Char :=
  if 0xd800 ≤ n ∧ n < 0xe000 then none else some (Char.ofNat n)

/-- The character of a short escape. -/
def shortEscape? (c : Char) : Option Char :=
  if c = '"' then some '"'
  else if c = '\\' then some '\\'
  else if c = '/' then some '/'
  else if c = 'b' then some '\x08'
  else if c = 'f' then some '\x0c'
  else if c = 'n' then some '\n'
  else if c = 'r' then some '\r'
  else if c = 't' then some '\t'
  else none

/-- One character in front of a string's rest; nothing if either has no meaning. -/
def consChar (c : Option Char) (r : Option (List Char) × List Char) :
    Option (List Char) × List Char :=
  (match c, r.1 with
    | some c, some cs => some (c :: cs)
    | _, _ => none, r.2)

/-- The characters of a string up to its closing quote. The measure `fuel` bounds their number. -/
def stringBody : Nat → List Char → Option (Option (List Char) × List Char)
  | 0, _ => none
  | fuel + 1, cs =>
    match cs with
    | [] => none
    | '"' :: rest => some (some [], rest)
    | '\\' :: 'u' :: rest =>
      match unit? rest with
      | none => none
      | some (high, rest) =>
        match rest with
        | '\\' :: 'u' :: rest' =>
          match unit? rest' with
          | none => none
          | some (low, after) =>
            match pair? high low with
            | some c => (stringBody fuel after).map (consChar (some c))
            | none => (stringBody fuel rest).map (consChar (single? high))
        | _ => (stringBody fuel rest).map (consChar (single? high))
    | '\\' :: c :: rest =>
      match shortEscape? c with
      | some d => (stringBody fuel rest).map (consChar (some d))
      | none => none
    | c :: rest =>
      if c.toNat < 0x20 ∨ c = '\\' then none
      else (stringBody fuel rest).map (consChar (some c))

/-- A string after its opening quote. -/
def string? (cs : List Char) : Option (Option String × List Char) :=
  (stringBody (cs.length + 1) cs).map fun r => (r.1.map String.ofList, r.2)

/-- The leading decimal digits and the rest. -/
def digits : List Char → List Nat × List Char
  | [] => ([], [])
  | c :: cs =>
    if c.isDigit then let r := digits cs; ((c.toNat - 48) :: r.1, r.2) else ([], c :: cs)

/-- The number of a list of digits. -/
def digitsNat (ds : List Nat) : Nat := ds.foldl (fun n d => 10 * n + d) 0

/-- The fraction of a numeral, if one follows. -/
def fraction? : List Char → Option (Option (List Nat) × List Char)
  | '.' :: cs =>
    match digits cs with
    | ([], _) => none
    | (ds, rest) => some (some ds, rest)
  | cs => some (none, cs)

/-- The digits of an exponent behind its sign. -/
def exponentDigits? (negative : Bool) (cs : List Char) : Option (Option Int × List Char) :=
  match digits cs with
  | ([], _) => none
  | (ds, rest) => some (some (if negative then -(digitsNat ds : Int) else digitsNat ds), rest)

/-- The exponent of a numeral, if one follows. -/
def exponent? : List Char → Option (Option Int × List Char)
  | c :: cs =>
    if c = 'e' ∨ c = 'E' then
      match cs with
      | '+' :: rest => exponentDigits? false rest
      | '-' :: rest => exponentDigits? true rest
      | _ => exponentDigits? false cs
    else some (none, c :: cs)
  | [] => some (none, [])

/-- A numeral without its sign: no leading zero before other digits. -/
def numeral? (negative : Bool) (cs : List Char) : Option (Numeral × List Char) := do
  let (whole, rest) := digits cs
  if whole.isEmpty || (whole.head? == some 0 && 1 < whole.length) then none
  else do
    let (fraction, rest) ← fraction? rest
    let (exponent, rest) ← exponent? rest
    some (⟨negative, whole, fraction, exponent⟩, rest)

/-- A literal name at the front of a text. -/
def literal? (name : List Char) (t : Tree) (cs : List Char) : Option (Tree × List Char) :=
  if cs.take name.length = name then some (t, cs.drop name.length) else none

mutual

/-- A value at the front of a text, blanks before it skipped. Each call spends one unit of `fuel`;
the length of the text is always enough. -/
def readValue : Nat → List Char → Option (Tree × List Char)
  | 0, _ => none
  | fuel + 1, cs =>
    match skipSpace cs with
    | [] => none
    | 'n' :: rest => literal? ['u', 'l', 'l'] .null rest
    | 't' :: rest => literal? ['r', 'u', 'e'] (.bool true) rest
    | 'f' :: rest => literal? ['a', 'l', 's', 'e'] (.bool false) rest
    | '"' :: rest => (string? rest).map fun r => (.string r.1, r.2)
    | '-' :: rest => (numeral? true rest).map fun r => (.number r.1, r.2)
    | '[' :: rest =>
      match skipSpace rest with
      | ']' :: rest => some (.array [], rest)
      | rest => (readItems fuel rest).map fun r => (.array r.1, r.2)
    | '\x7b' :: rest =>
      match skipSpace rest with
      | '\x7d' :: rest => some (.object [], rest)
      | rest => (readMembers fuel rest).map fun r => (.object r.1, r.2)
    | c :: rest => (numeral? false (c :: rest)).map fun r => (.number r.1, r.2)

/-- The items of an array after its opening bracket; there is at least one. -/
def readItems : Nat → List Char → Option (List Tree × List Char)
  | 0, _ => none
  | fuel + 1, cs =>
    match readValue fuel cs with
    | none => none
    | some (t, rest) =>
      match skipSpace rest with
      | ']' :: rest => some ([t], rest)
      | ',' :: rest => (readItems fuel rest).map fun r => (t :: r.1, r.2)
      | _ => none

/-- The members of an object after its opening brace; there is at least one. -/
def readMembers : Nat → List Char → Option (List (Option String × Tree) × List Char)
  | 0, _ => none
  | fuel + 1, cs =>
    match skipSpace cs with
    | '"' :: rest =>
      match string? rest with
      | none => none
      | some (key, rest) =>
        match skipSpace rest with
        | ':' :: rest =>
          match readValue fuel rest with
          | none => none
          | some (t, rest) =>
            match skipSpace rest with
            | '\x7d' :: rest => some ([(key, t)], rest)
            | ',' :: rest => (readMembers fuel rest).map fun r => ((key, t) :: r.1, r.2)
            | _ => none
        | _ => none
    | _ => none

end

/-- The tree of a whole text: one value with blanks around it. -/
def Tree.ofChars? (cs : List Char) : Option Tree :=
  match readValue (2 * cs.length + 2) cs with
  | some (t, rest) => if (skipSpace rest).isEmpty then some t else none
  | none => none

/-! ## Tree to value -/

/-- The digits of a numeral as a 64-bit significand, with the number of digits that no longer
fit. -/
def significand : Nat → Nat → List Nat → Nat × Nat
  | acc, dropped, [] => (acc, dropped)
  | acc, dropped, d :: ds =>
    if dropped = 0 ∧ 10 * acc + d < 0x10000000000000000 then significand (10 * acc + d) 0 ds
    else significand acc (dropped + 1) ds

/-- Scaling by a power of ten in steps of at most 308; `none` when the result is infinite. -/
def scale : Nat → Float → Int → Option Float
  | 0, f, _ => some f
  | fuel + 1, f, e =>
    if e.natAbs ≤ 308 then
      let p := Float.ofScientific 1 false e.natAbs
      if 0 ≤ e then
        let g := f * p
        if g.isInf then none else some g
      else some (f / p)
    else if f == 0 then some f
    else if 0 ≤ e then none
    else scale fuel (f / 1e308) (e + 308)

/-- The double a numeral stands for: its significand, cut to 64 bits before and again behind the
point, times the power of ten that is left. -/
def Numeral.double? (n : Numeral) : Option Value :=
  let fraction := n.fraction.getD []
  let whole := significand 0 0 n.whole
  let all := significand whole.1 0 fraction
  let kept : Nat := fraction.length - all.2
  let e : Int := (whole.2 : Int) - kept + n.exponent.getD 0
  let f := Float.ofNat all.1
  let scaled := if e = 0 then some f else scale 64 f (max (-20000) (min 20000 e))
  scaled.map fun g => .double (if n.negative then -g else g).toBits

/-- The value of a numeral: an integer when it is written as one and fits 64 bits, signed below
zero, and a double otherwise. Minus zero is a double. -/
def Numeral.value? (n : Numeral) : Option Value :=
  if n.fraction.isNone ∧ n.exponent.isNone then
    let m := digitsNat n.whole
    if n.negative then
      if m ≠ 0 ∧ m ≤ 0x8000000000000000 then some (.integer (-(m : Int))) else n.double?
    else if m < 0x10000000000000000 then some (.integer m) else n.double?
  else n.double?

/-- Members sorted by key; a later member replaces an earlier one of the same key. -/
def insertMember (k : String) (v : Value) : List (String × Value) → List (String × Value)
  | [] => [(k, v)]
  | (k', v') :: rest =>
    if k = k' then (k, v) :: rest
    else if k < k' then (k, v) :: (k', v') :: rest
    else (k', v') :: insertMember k v rest

mutual

/-- The value of a tree whose nesting is at most `depth`. -/
def Tree.value? : Nat → Tree → Option Value
  | _, .null => some .null
  | _, .bool b => some (.bool b)
  | _, .number n => n.value?
  | _, .string s => s.map .string
  | 0, .array _ => none
  | 0, .object _ => none
  | depth + 1, .array items => (itemValues? depth items).map .array
  | depth + 1, .object members => (memberValues? depth members []).map .object

/-- The values of the items of an array. -/
def itemValues? : Nat → List Tree → Option (List Value)
  | _, [] => some []
  | depth, t :: rest => do
    let v ← Tree.value? depth t
    let vs ← itemValues? depth rest
    some (v :: vs)

/-- The members of an object, merged into those already read. -/
def memberValues? : Nat → List (Option String × Tree) → List (String × Value) →
    Option (List (String × Value))
  | _, [], acc => some acc
  | depth, (k, t) :: rest, acc => do
    let k ← k
    let v ← Tree.value? depth t
    memberValues? depth rest (insertMember k v acc)

end

/-- The deepest nesting a reader follows. -/
def maxDepth : Nat := 127

/-- The value of a whole text. -/
def Value.ofChars? (cs : List Char) : Option Value :=
  (Tree.ofChars? cs).bind (Tree.value? maxDepth)

mutual

/-- A value as a tree, for readers of known shapes. -/
def Value.tree : Value → Tree
  | .null => .null
  | .bool b => .bool b
  | .integer n =>
    .number ⟨decide (n < 0), (Nat.toDigits 10 n.natAbs).map fun c => c.toNat - 48, none, none⟩
  | .double _ => .number ⟨false, [0], some [0], none⟩
  | .string s => .string (some s)
  | .array items => .array (itemTrees items)
  | .object members => .object (memberTrees members)

/-- The items of an array as trees. -/
def itemTrees : List Value → List Tree
  | [] => []
  | v :: rest => v.tree :: itemTrees rest

/-- The members of an object as trees. -/
def memberTrees : List (String × Value) → List (Option String × Tree)
  | [] => []
  | (k, v) :: rest => (some k, v.tree) :: memberTrees rest

end

end PeerProbe.Json
