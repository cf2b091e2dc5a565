import PeerProbe.Bytes.Hex

/-!
# Numbers in text

Decimal digits of a natural number, digits in other radices, and the two readers of unsigned
numbers that settings and records use.
-/

namespace PeerProbe.Text

/-- The decimal digits of a number. -/
def decimal (n : Nat) : List Char := Nat.toDigits 10 n

/-- The decimal digits of a number, as text. -/
def decimalText (n : Nat) : String := String.ofList (decimal n)

/-- The lower-case hexadecimal digits of a number, without padding. -/
def hexadecimal (n : Nat) : List Char := Nat.toDigits 16 n

/-- A message code: marked hexadecimal with at least two digits. -/
def codeText (n : Nat) : String :=
  let ds := hexadecimal n
  String.ofList ('0' :: 'x' :: (if ds.length < 2 then '0' :: ds else ds))

/-- The value of a character as a digit of a radix up to sixteen. -/
def digit? (radix : Nat) (c : Char) : Option Nat := (Hex.value? c).filter (· < radix)

/-- The value of a run of digits that follows a number already read. -/
def digitsValue? (radix : Nat) : Nat → List Char → Option Nat
  | acc, [] => some acc
  | acc, c :: cs => do digitsValue? radix (radix * acc + (← digit? radix c)) cs

/-- An unsigned decimal number below a bound: at least one digit, leading zeros and one leading
plus sign allowed. -/
def unsigned? (bound : Nat) (cs : List Char) : Option Nat :=
  let body := match cs with
    | '+' :: rest => rest
    | _ => cs
  if body.isEmpty then none else (digitsValue? 10 0 body).filter (· < bound)

end PeerProbe.Text
