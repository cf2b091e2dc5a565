/-!
# The shortest decimal of a double

A double is decoded from its 64 bits into `m · 2^q`. Its text uses the fewest decimal digits that
still name this double and, among those, the nearest to it. All arithmetic is exact.
-/

namespace PeerProbe.Shortest

/-- A finite double as sign, mantissa and binary exponent. -/
structure Parts where
  negative : Bool
  mantissa : Nat
  exponent : Int
  deriving DecidableEq, Repr

/-- The parts of a double; infinities and undefined values are read like finite ones and never
arise here. -/
def parts (bits : UInt64) : Parts :=
  let n := bits.toNat
  let field : Nat := n / 0x10000000000000 % 2048
  let fraction : Nat := n % 0x10000000000000
  if field = 0 then ⟨0x8000000000000000 ≤ n, fraction, -1074⟩
  else ⟨0x8000000000000000 ≤ n, 0x10000000000000 + fraction, (field : Int) - 1075⟩

/-- Numerator and denominator of `m · 2^e · 10^(-k)`. -/
def scaled (m : Nat) (e k : Int) : Nat × Nat :=
  (m * Nat.pow 2 e.toNat * Nat.pow 10 (-k).toNat, Nat.pow 2 (-e).toNat * Nat.pow 10 k.toNat)

/-- Whether `d · 10^k` lies in the interval of reals that round to `m · 2^q`; its ends belong to it
when `m` is even. -/
def names (m : Nat) (q : Int) (d : Nat) (k : Int) : Bool :=
  let low := if m = 0x10000000000000 ∧ -1074 < q then 4 * m - 1 else 4 * m - 2
  let high := 4 * m + 2
  let (ln, ld) := scaled low (q - 2) k
  let (hn, hd) := scaled high (q - 2) k
  if m % 2 = 0 then ln ≤ d * ld && d * hd ≤ hn else ln < d * ld && d * hd < hn

/-- The multiple of `10^k` nearest to `m · 2^q` among those that name it, if there is one. -/
def onGrid? (m : Nat) (q k : Int) : Option Nat :=
  let (n, d) := scaled m q k
  let below := n / d
  let nearer := 2 * (n % d) < d || (2 * (n % d) = d && below % 2 = 0)
  match names m q below k, names m q (below + 1) k with
  | true, true => some (if nearer then below else below + 1)
  | true, false => some below
  | false, true => some (below + 1)
  | false, false => none

/-- The first hit on grids of falling step. -/
def search (m : Nat) (q : Int) : Nat → Int → Nat × Int
  | 0, k => (0, k)
  | fuel + 1, k =>
    match onGrid? m q k with
    | some (d + 1) => (d + 1, k)
    | _ => search m q fuel (k - 1)

/-- Remove trailing zeros from a digit count and its exponent. -/
def stripZeros : Nat → Nat → Int → Nat × Int
  | 0, d, k => (d, k)
  | fuel + 1, d, k => if d ≠ 0 ∧ d % 10 = 0 then stripZeros fuel (d / 10) (k + 1) else (d, k)

/-- Shortest digits and decimal exponent of a positive double. -/
def decimal (m : Nat) (q : Int) : Nat × Int :=
  let (d, k) := search m q 700 ((((Nat.log2 m : Int) + q) * 30103).fdiv 100000 + 2)
  stripZeros 20 d k

/-- Zeros. -/
def zeros (n : Nat) : List Char := List.replicate n '0'

/-- Layout of digits `ds · 10^k`: positional from `10^(-5)` up to `10^16`, otherwise with an
exponent that carries its sign, plus or minus; a whole number keeps `.0`. -/
def layout (ds : List Char) (k : Int) : List Char :=
  let point : Int := ds.length + k
  if 0 ≤ k ∧ point ≤ 16 then ds ++ zeros k.toNat ++ ['.', '0']
  else if 0 < point ∧ point ≤ 16 then ds.take point.toNat ++ '.' :: ds.drop point.toNat
  else if -5 < point ∧ point ≤ 0 then ['0', '.'] ++ zeros (-point).toNat ++ ds
  else
    let exponent :=
      (if 0 < point then ['e', '+'] else ['e']) ++ (toString (point - 1)).toList
    match ds with
    | [d] => d :: exponent
    | d :: rest => d :: '.' :: rest ++ exponent
    | [] => exponent

/-- The text of a double. -/
def chars (bits : UInt64) : List Char :=
  let p := parts bits
  let body := if p.mantissa = 0 then ['0', '.', '0'] else
    let (d, k) := decimal p.mantissa p.exponent
    layout (Nat.toDigits 10 d) k
  if p.negative then '-' :: body else body

end PeerProbe.Shortest
