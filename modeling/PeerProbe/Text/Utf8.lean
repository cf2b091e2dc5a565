/-!
# UTF-8

Texts as byte strings and back. Decoding accepts exactly the well-formed sequences: no overlong
forms, no surrogates, nothing above U+10FFFF.
-/

namespace PeerProbe.Utf8

/-- What is said about a byte string that is not well formed. -/
def invalid : String := "stream did not contain valid UTF-8"

/-- The bytes of a text. -/
def encode (cs : List Char) : List UInt8 := cs.flatMap String.utf8EncodeChar

/-- The payload of a continuation byte. -/
def tail? (b : UInt8) : Option Nat :=
  let n := b.toNat
  if 0x80 ≤ n ∧ n < 0xc0 then some (n - 0x80) else none

/-- The character of a two-byte sequence. -/
def two? (a b : UInt8) : Option Char := do
  let t ← tail? b
  let n := (a.toNat - 0xc0) * 64 + t
  if 0x80 ≤ n then some (Char.ofNat n) else none

/-- The character of a three-byte sequence. -/
def three? (a b c : UInt8) : Option Char := do
  let t ← tail? b
  let u ← tail? c
  let n := ((a.toNat - 0xe0) * 64 + t) * 64 + u
  if 0x800 ≤ n ∧ ¬ (0xd800 ≤ n ∧ n < 0xe000) then some (Char.ofNat n) else none

/-- The character of a four-byte sequence. -/
def four? (a b c d : UInt8) : Option Char := do
  let t ← tail? b
  let u ← tail? c
  let v ← tail? d
  let n := (((a.toNat - 0xf0) * 64 + t) * 64 + u) * 64 + v
  if 0x10000 ≤ n ∧ n < 0x110000 then some (Char.ofNat n) else none

/-- One more character in front of what was read behind it; without one, all the bytes are left. -/
def push (bytes : List UInt8) (c : Option Char) (read : List Char × List UInt8) :
    List Char × List UInt8 :=
  match c with
  | some c => (c :: read.1, read.2)
  | none => ([], bytes)

/-- The text up to the first sequence that is not well formed, and the bytes from there on. -/
def front : List UInt8 → List Char × List UInt8
  | [] => ([], [])
  | a :: r1 =>
    if a.toNat < 0x80 then push (a :: r1) (some (Char.ofNat a.toNat)) (front r1)
    else if a.toNat < 0xc0 then ([], a :: r1)
    else match r1 with
      | [] => ([], [a])
      | b :: r2 =>
        if a.toNat < 0xe0 then push (a :: b :: r2) (two? a b) (front r2)
        else match r2 with
          | [] => ([], [a, b])
          | c :: r3 =>
            if a.toNat < 0xf0 then push (a :: b :: c :: r3) (three? a b c) (front r3)
            else match r3 with
              | [] => ([], [a, b, c])
              | d :: r4 =>
                if a.toNat < 0xf8 then push (a :: b :: c :: d :: r4) (four? a b c d) (front r4)
                else ([], a :: b :: c :: d :: r4)

/-- The text of a byte string; `none` if it is not well formed. -/
def decode (bytes : List UInt8) : Option (List Char) :=
  match front bytes with
  | (cs, []) => some cs
  | (_, _ :: _) => none

end PeerProbe.Utf8
