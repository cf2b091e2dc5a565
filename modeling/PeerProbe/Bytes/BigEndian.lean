/-!
# Big-endian numbers

A byte string read as a number, most significant byte first, and the shortest and the padded
byte strings of a number.
-/

namespace PeerProbe.BigEndian

/-- The number a byte string stands for. -/
def toNat (bytes : List UInt8) : Nat := bytes.foldl (fun n b => 256 * n + b.toNat) 0

/-- The last `count` base-256 digits of a number, most significant first. -/
def fixed : Nat → Nat → List UInt8
  | 0, _ => []
  | count + 1, n => fixed count (n / 256) ++ [UInt8.ofNat (n % 256)]

/-- The number of base-256 digits of a number; zero has none. -/
def width (n : Nat) : Nat := if n = 0 then 0 else Nat.log2 n / 8 + 1

/-- The byte string of a number without leading zeros; zero is the empty string. -/
def shortest (n : Nat) : List UInt8 := fixed (width n) n

end PeerProbe.BigEndian
