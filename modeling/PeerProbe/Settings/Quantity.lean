import PeerProbe.Text.Utf8
import PeerProbe.Text.Decimal
import PeerProbe.Text.Quoted

/-!
# Values inside settings

Byte strings in hexadecimal, and quantities of 256 bits in the radix that their prefix names. A bad
digit is reported as the byte it is, shown as the character of the same number.
-/

namespace PeerProbe.Settings

/-- The first byte of a character, as a character. -/
def firstByte (c : Char) : Char :=
  match Utf8.encode [c] with
  | b :: _ => Char.ofNat b.toNat
  | [] => c

/-- The wording of a fault in hexadecimal text. -/
def hexMessage : Hex.Fault → String
  | .oddLength => "odd number of digits"
  | .wrongLength => "invalid string length"
  | .badDigit c i =>
    "invalid character " ++ Text.quotedChar (firstByte c) ++ " at position " ++ toString i

/-- Why a text is no quantity. -/
inductive QuantityError where
  | badDigit (byte : UInt8)
  | tooLarge
  deriving DecidableEq, Repr

/-- The wording of a refused quantity. -/
def QuantityError.message : QuantityError → String
  | .badDigit b => "invalid digit: " ++ String.singleton (Char.ofNat b.toNat)
  | .tooLarge => "the value is too large to fit the target type"

/-- The radix of a quantity and its digits behind the prefix. -/
def radixOf : List Char → Nat × List Char
  | '0' :: c :: rest =>
    if c = 'x' ∨ c = 'X' then (16, rest)
    else if c = 'o' ∨ c = 'O' then (8, rest)
    else if c = 'b' ∨ c = 'B' then (2, rest)
    else (10, '0' :: c :: rest)
  | cs => (10, cs)

/-- The value of a byte as a digit. -/
def byteDigit? (radix : Nat) (b : UInt8) : Option Nat :=
  Text.digit? radix (Char.ofNat b.toNat)

/-- A value with a group of decimal digits behind it, if it still fits 256 bits. -/
def appendGroup (value count group : Nat) : Except QuantityError Nat :=
  let joined := value * Nat.pow 10 count + group
  if joined < Nat.pow 2 256 then .ok joined else .error .tooLarge

/-- How many decimal digits are gathered before they join the value. -/
def groupSize : Nat := 19

/-- The value of decimal digits, read from the left. Underscores are skipped; the first bad digit
ends the reading. Digits are gathered in groups, and a value too large shows only when a group is
full or the text ends, so a bad digit inside the last group comes before it. -/
def decimalBytes (value count group : Nat) : List UInt8 → Except QuantityError Nat
  | [] => appendGroup value count group
  | b :: rest =>
    if b = 0x5f then decimalBytes value count group rest
    else match byteDigit? 10 b with
      | none => .error (.badDigit b)
      | some d =>
        if count + 1 < groupSize then decimalBytes value (count + 1) (10 * group + d) rest
        else match appendGroup value (count + 1) (10 * group + d) with
          | .ok value => decimalBytes value 0 0 rest
          | .error e => .error e

/-- The value of digits whose radix is a power of two, read from the right: the bytes are given last
one first, with the weight of the next digit. -/
def weightedBytes (radix : Nat) : Nat → Nat → List UInt8 → Except QuantityError Nat
  | _, acc, [] => .ok acc
  | weight, acc, b :: rest =>
    if b = 0x5f then weightedBytes radix weight acc rest
    else match byteDigit? radix b with
      | none => .error (.badDigit b)
      | some d =>
        if acc + weight * d < Nat.pow 2 256 then
          weightedBytes radix (weight * radix) (acc + weight * d) rest
        else .error .tooLarge

/-- A quantity of 256 bits. No digits at all are zero. -/
def quantity (cs : List Char) : Except QuantityError (BitVec 256) :=
  let (radix, ds) := radixOf cs
  let bytes := Utf8.encode ds
  let value :=
    if radix = 10 then decimalBytes 0 0 0 bytes else weightedBytes radix 1 0 bytes.reverse
  value.map (BitVec.ofNat 256)

end PeerProbe.Settings
