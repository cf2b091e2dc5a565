import PeerProbe.Text.Blank
import PeerProbe.Text.Decimal

/-!
# Internet addresses and endpoints

IPv4 and IPv6 addresses, and endpoints (an address with a port), with their textual forms. An
IPv6 address is printed with its first longest run of two or more zero groups collapsed, and an
IPv4-mapped one with its last 32 bits in dotted form.

Reading is strict: an address is numeric, an IPv4 part has no leading zeros, an IPv6 endpoint
has brackets, a port is a plain run of digits. A numeric scope inside the brackets is read and
dropped.
-/

namespace PeerProbe

/-- An IPv4 address. -/
structure IPv4 where
  a : UInt8
  b : UInt8
  c : UInt8
  d : UInt8
  deriving DecidableEq, Repr, Inhabited

/-- An IPv6 address: eight groups of sixteen bits. -/
structure IPv6 where
  groups : List UInt16
  length_eq : groups.length = 8

instance : DecidableEq IPv6 := fun x y =>
  if h : x.groups = y.groups then
    isTrue (by cases x; cases y; cases h; rfl)
  else isFalse fun e => h (congrArg IPv6.groups e)

/-- An address of either family. -/
inductive Address where
  | v4 (a : IPv4)
  | v6 (a : IPv6)
  deriving DecidableEq

/-- An address with a port. -/
structure Endpoint where
  address : Address
  port : UInt16
  deriving DecidableEq

namespace IPv4

/-- The loopback address. -/
def loopback : IPv4 := ⟨127, 0, 0, 1⟩

/-- The address that stands for every local interface. -/
def unspecified : IPv4 := ⟨0, 0, 0, 0⟩

/-- Dotted decimal form. -/
def chars (x : IPv4) : List Char :=
  Text.decimal x.a.toNat ++ '.' :: (Text.decimal x.b.toNat ++ '.' ::
    (Text.decimal x.c.toNat ++ '.' :: Text.decimal x.d.toNat))

/-- The two groups of an IPv6 address that hold this address. -/
def groups (x : IPv4) : List UInt16 :=
  [UInt16.ofNat (256 * x.a.toNat + x.b.toNat), UInt16.ofNat (256 * x.c.toNat + x.d.toNat)]

end IPv4

namespace IPv6

/-- The loopback address. -/
def loopback : IPv6 := ⟨[0, 0, 0, 0, 0, 0, 0, 1], rfl⟩

/-- The address that stands for every local interface. -/
def unspecified : IPv6 := ⟨[0, 0, 0, 0, 0, 0, 0, 0], rfl⟩

/-- The embedded IPv4 address of an IPv4-mapped address. -/
def mapped? (x : IPv6) : Option IPv4 :=
  match x.groups with
  | [a, b, c, d, e, f, g, h] =>
    if a = 0 ∧ b = 0 ∧ c = 0 ∧ d = 0 ∧ e = 0 ∧ f = 0xffff then
      some ⟨UInt8.ofNat (g.toNat / 256), UInt8.ofNat (g.toNat % 256),
        UInt8.ofNat (h.toNat / 256), UInt8.ofNat (h.toNat % 256)⟩
    else none
  | _ => none

/-- The length of the run of zero groups at the front. -/
def zeroRun : List UInt16 → Nat
  | [] => 0
  | g :: gs => if g = 0 then zeroRun gs + 1 else 0

/-- The start and the length of the first longest run of zero groups. -/
def longestRun : List UInt16 → Nat × Nat
  | [] => (0, 0)
  | g :: gs =>
    let here := zeroRun (g :: gs)
    let later := longestRun gs
    if later.2 ≤ here then (0, here) else (later.1 + 1, later.2)

/-- Groups in hexadecimal with colons between them. -/
def joined : List UInt16 → List Char
  | [] => []
  | [g] => Text.hexadecimal g.toNat
  | g :: rest => Text.hexadecimal g.toNat ++ ':' :: joined rest

/-- Textual form without brackets. -/
def chars (x : IPv6) : List Char :=
  match x.mapped? with
  | some v4 => [':', ':', 'f', 'f', 'f', 'f', ':'] ++ v4.chars
  | none =>
    let (start, len) := longestRun x.groups
    if 1 < len then
      joined (x.groups.take start) ++ ':' :: ':' :: joined (x.groups.drop (start + len))
    else joined x.groups

end IPv6

namespace Address

/-- Textual form without a port. -/
def chars : Address → List Char
  | .v4 x => x.chars
  | .v6 x => x.chars

/-- Textual form, as text. -/
def text (x : Address) : String := String.ofList x.chars

end Address

namespace Endpoint

/-- Textual form: IPv6 addresses stand in brackets. -/
def chars (e : Endpoint) : List Char :=
  match e.address with
  | .v4 x => x.chars ++ ':' :: Text.decimal e.port.toNat
  | .v6 x => '[' :: (x.chars ++ ']' :: ':' :: Text.decimal e.port.toNat)

/-- Textual form, as text. -/
def text (e : Endpoint) : String := String.ofList e.chars

end Endpoint

/-! ## Reading -/

namespace AddressReader

/-- The leading digits of a radix, as a list of values, and the rest. -/
def leadingDigits (radix : Nat) : List Char → List Nat × List Char
  | [] => ([], [])
  | c :: cs =>
    match Text.digit? radix c with
    | some d => let r := leadingDigits radix cs; (d :: r.1, r.2)
    | none => ([], c :: cs)

/-- The value of digits, most significant first. -/
def value (radix : Nat) (ds : List Nat) : Nat := ds.foldl (fun n d => radix * n + d) 0

/-- A number below a bound, with at most `most` digits if such a limit is given, without a leading
zero unless `zeros` allows it. -/
def number? (radix : Nat) (most : Option Nat) (zeros : Bool) (bound : Nat) (cs : List Char) :
    Option (Nat × List Char) :=
  let (ds, rest) := leadingDigits radix cs
  if ds.isEmpty || most.any (· < ds.length) || (!zeros && ds.head? == some 0 && 1 < ds.length)
  then none
  else if value radix ds < bound then some (value radix ds, rest) else none

/-- One part of a dotted address. -/
def octet? (cs : List Char) : Option (UInt8 × List Char) := do
  let (n, rest) ← number? 10 (some 3) false 256 cs
  some (UInt8.ofNat n, rest)

/-- One expected character. -/
def expect? (c : Char) : List Char → Option (List Char)
  | [] => none
  | d :: rest => if d = c then some rest else none

/-- An IPv4 address at the front of a text. -/
def ipv4? (cs : List Char) : Option (IPv4 × List Char) := do
  let (a, cs) ← octet? cs
  let cs ← expect? '.' cs
  let (b, cs) ← octet? cs
  let cs ← expect? '.' cs
  let (c, cs) ← octet? cs
  let cs ← expect? '.' cs
  let (d, cs) ← octet? cs
  some (⟨a, b, c, d⟩, cs)

/-- One group of an IPv6 address. -/
def group? (cs : List Char) : Option (UInt16 × List Char) := do
  let (n, rest) ← number? 16 (some 4) true 65536 cs
  some (UInt16.ofNat n, rest)

/-- The text after the colon that separates a group from the one before it; the first group of a
run has none. -/
def separator? (first : Bool) (cs : List Char) : Option (List Char) :=
  if first then some cs else expect? ':' cs

/-- The groups at the front of a text, at most `limit` of them, with whether they end in a dotted
part, and the rest. A dotted part counts for two groups. -/
def groups (first : Bool) : Nat → List Char → List UInt16 × Bool × List Char
  | 0, cs => ([], false, cs)
  | limit + 1, cs =>
    let dotted := if limit = 0 then none else (separator? first cs).bind ipv4?
    match dotted with
    | some (v4, rest) => (v4.groups, true, rest)
    | none =>
      match (separator? first cs).bind group? with
      | some (g, rest) => let r := groups false limit rest; (g :: r.1, r.2)
      | none => ([], false, cs)

/-- Eight groups from the parts before and after a `::`. -/
def filled? (head tail : List UInt16) : Option IPv6 :=
  let all := head ++ List.replicate (8 - head.length - tail.length) 0 ++ tail
  if h : all.length = 8 then some ⟨all, h⟩ else none

/-- An IPv6 address at the front of a text. -/
def ipv6? (cs : List Char) : Option (IPv6 × List Char) :=
  let (head, dotted, rest) := groups true 8 cs
  if h : head.length = 8 then some (⟨head, h⟩, rest)
  else if dotted then none
  else do
    let rest ← expect? ':' rest
    let rest ← expect? ':' rest
    let (tail, _, rest) := groups true (7 - head.length) rest
    some (← filled? head tail, rest)

/-- A port at the front of a text. -/
def port? (cs : List Char) : Option (UInt16 × List Char) := do
  let (n, rest) ← number? 10 none true 65536 cs
  some (UInt16.ofNat n, rest)

/-- The text after a numeric scope, if there is one. -/
def skipScope (cs : List Char) : List Char :=
  match expect? '%' cs with
  | none => cs
  | some rest =>
    match number? 10 none true 0x100000000 rest with
    | some (_, rest) => rest
    | none => cs

/-- An IPv4 endpoint at the front of a text. -/
def endpoint4? (cs : List Char) : Option (Endpoint × List Char) := do
  let (x, cs) ← ipv4? cs
  let cs ← expect? ':' cs
  let (p, cs) ← port? cs
  some (⟨.v4 x, p⟩, cs)

/-- An IPv6 endpoint at the front of a text. -/
def endpoint6? (cs : List Char) : Option (Endpoint × List Char) := do
  let cs ← expect? '[' cs
  let (x, cs) ← ipv6? cs
  let cs ← expect? ']' (skipScope cs)
  let cs ← expect? ':' cs
  let (p, cs) ← port? cs
  some (⟨.v6 x, p⟩, cs)

end AddressReader

/-- The endpoint a whole text names. -/
def Endpoint.parse? (cs : List Char) : Option Endpoint :=
  match (AddressReader.endpoint4? cs).orElse fun _ => AddressReader.endpoint6? cs with
  | some (e, []) => some e
  | _ => none

/-- An address alone, without port. -/
def Address.parse? (cs : List Char) : Option Address :=
  match (AddressReader.ipv4? cs).map (fun r => (Address.v4 r.1, r.2)) |>.orElse
      fun _ => (AddressReader.ipv6? cs).map fun r => (Address.v6 r.1, r.2) with
  | some (x, []) => some x
  | _ => none

/-- Where to listen: `":port"` stands for every IPv4 interface, any other text is kept without the
blanks around it. -/
def listenAddress (s : String) : String :=
  match Text.trim s.toList with
  | ':' :: port => String.ofList ("0.0.0.0:".toList ++ port)
  | cs => String.ofList cs

end PeerProbe
