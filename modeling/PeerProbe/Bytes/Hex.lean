/-!
# Hexadecimal digits

Two digits stand for one byte, the high half first. Printing uses lower-case digits; reading
takes either case and, once, a `0x` or `0X` marker in front. A text that is not hexadecimal is
refused with its first fault, in the order: odd number of digits, wrong number of digits, first
bad character.
-/

namespace PeerProbe.Hex

/-- The lower-case digit of a value below sixteen. -/
def digit (n : Nat) : Char := Char.ofNat (if n < 10 then 48 + n else 87 + n)

/-- The two digits of a byte. -/
def pair (b : UInt8) : List Char := [digit (b.toNat / 16), digit (b.toNat % 16)]

/-- The digits of a byte string. -/
def digits (bytes : List UInt8) : List Char := bytes.flatMap pair

/-- The digits of a byte string, as text. -/
def encode (bytes : List UInt8) : String := String.ofList (digits bytes)

/-- The value of one digit of either case. -/
def value? (c : Char) : Option Nat :=
  let n := c.toNat
  if 48 ≤ n ∧ n ≤ 57 then some (n - 48)
  else if 97 ≤ n ∧ n ≤ 102 then some (n - 87)
  else if 65 ≤ n ∧ n ≤ 70 then some (n - 55)
  else none

/-- The bytes of an even run of digits; `none` for any other text. -/
def bytes? : List Char → Option (List UInt8)
  | [] => some []
  | [_] => none
  | high :: low :: rest => do
    let h ← value? high
    let l ← value? low
    let tail ← bytes? rest
    some (UInt8.ofNat (16 * h + l) :: tail)

/-- Why a text is not the hexadecimal form of a byte string. -/
inductive Fault where
  | oddLength
  | wrongLength
  | badDigit (c : Char) (index : Nat)
  deriving DecidableEq, Repr

/-- The text without the marker `0x` or `0X`, if it begins with one. -/
def stripMarker : List Char → List Char
  | '0' :: 'x' :: rest => rest
  | '0' :: 'X' :: rest => rest
  | cs => cs

/-- The number of bytes of a text in UTF-8. -/
def utf8Length : List Char → Nat
  | [] => 0
  | c :: cs => c.utf8Size + utf8Length cs

/-- The first character that is no digit, with its position. -/
def firstBad? : List Char → Nat → Option (Char × Nat)
  | [], _ => none
  | c :: rest, i => if (value? c).isSome then firstBad? rest (i + 1) else some (c, i)

/-- Read a byte string, of a given length if one is asked for. -/
def read (cs : List Char) (size : Option Nat) : Except Fault (List UInt8) :=
  let body := stripMarker cs
  if utf8Length body % 2 = 1 then .error .oddLength
  else if size.any (fun n => utf8Length body ≠ 2 * n) then .error .wrongLength
  else match bytes? body with
    | some bytes => .ok bytes
    | none =>
      match firstBad? body 0 with
      | some (c, i) => .error (.badDigit c i)
      | none => .error .oddLength

end PeerProbe.Hex
