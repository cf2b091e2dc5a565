import PeerProbe.Bytes.Block

/-!
# Keccak-256

The sponge with a rate of 136 bytes over the permutation of 25 lanes of 64 bits, padded with a
first bit `1` and a last bit `1` and no domain suffix, as hashes of headers and transactions use
it. A state is a list of 25 lanes; lane `x + 5 y` is column `x` of row `y`.
-/

namespace PeerProbe.Keccak

/-- The constants added to the first lane, one per round. -/
def roundConstants : List UInt64 :=
  [0x0000000000000001, 0x0000000000008082, 0x800000000000808a, 0x8000000080008000,
   0x000000000000808b, 0x0000000080000001, 0x8000000080008081, 0x8000000000008009,
   0x000000000000008a, 0x0000000000000088, 0x0000000080008009, 0x000000008000000a,
   0x000000008000808b, 0x800000000000008b, 0x8000000000008089, 0x8000000000008003,
   0x8000000000008002, 0x8000000000000080, 0x000000000000800a, 0x800000008000000a,
   0x8000000080008081, 0x8000000000008080, 0x0000000080000001, 0x8000000080008008]

/-- The rotation of each lane. -/
def rotations : List Nat :=
  [0, 1, 62, 28, 27, 36, 44, 6, 55, 20, 3, 10, 43, 25, 39, 41, 45, 15, 21, 8, 18, 2, 61, 56, 14]

/-- Rotation to the left. -/
def rotate (w : UInt64) (n : Nat) : UInt64 :=
  if n = 0 then w else (w <<< UInt64.ofNat n) ||| (w >>> UInt64.ofNat (64 - n))

/-- The lane at a position. -/
def lane (s : List UInt64) (i : Nat) : UInt64 := s.getD i 0

/-- The parity of each column. -/
def columns (s : List UInt64) : List UInt64 :=
  (List.range 5).map fun x =>
    lane s x ^^^ lane s (x + 5) ^^^ lane s (x + 10) ^^^ lane s (x + 15) ^^^ lane s (x + 20)

/-- Add to each lane the parities of two neighbouring columns. -/
def theta (s : List UInt64) : List UInt64 :=
  let c := columns s
  let d := (List.range 5).map fun x => lane c ((x + 4) % 5) ^^^ rotate (lane c ((x + 1) % 5)) 1
  s.zipIdx.map fun (w, i) => w ^^^ lane d (i % 5)

/-- Rotate every lane. -/
def rho (s : List UInt64) : List UInt64 := List.zipWith rotate s rotations

/-- Move the lanes: column `x` of row `y` comes from column `x + 3 y` of row `x`. -/
def pi (s : List UInt64) : List UInt64 :=
  (List.range 25).map fun i => let x := i % 5; let y := i / 5; lane s ((x + 3 * y) % 5 + 5 * x)

/-- Combine each lane with the two that follow in its row. -/
def chi (s : List UInt64) : List UInt64 :=
  (List.range 25).map fun i =>
    let x := i % 5
    let row := i - x
    lane s i ^^^ ((~~~ lane s (row + (x + 1) % 5)) &&& lane s (row + (x + 2) % 5))

/-- Add the round constant to the first lane. -/
def iota (k : UInt64) : List UInt64 → List UInt64
  | [] => []
  | w :: rest => (w ^^^ k) :: rest

/-- One round. -/
def round (s : List UInt64) (k : UInt64) : List UInt64 := iota k (chi (pi (rho (theta s))))

/-- The permutation. -/
def permute (s : List UInt64) : List UInt64 := roundConstants.foldl round s

/-- The bytes of a block that one application of the permutation absorbs. -/
def rate : Nat := 136

/-- A lane from its eight bytes, least significant first. -/
def laneOf (bytes : List UInt8) : UInt64 :=
  bytes.foldr (fun b w => (w <<< 8) ||| b.toUInt64) 0

/-- The lanes of a block. -/
def lanes : Nat → List UInt8 → List UInt64
  | 0, _ => []
  | count + 1, bytes => laneOf (bytes.take 8) :: lanes count (bytes.drop 8)

/-- The bytes of a lane, least significant first. -/
def laneBytes (w : UInt64) : List UInt8 :=
  (List.range 8).map fun i => (w >>> UInt64.ofNat (8 * i)).toUInt8

/-- The last block: the bytes left over, the padding bits and zeros between them. -/
def padded (tail : List UInt8) : List UInt8 :=
  if tail.length = rate - 1 then tail ++ [0x81]
  else tail ++ 0x01 :: List.replicate (rate - 2 - tail.length) 0 ++ [0x80]

/-- Add a block to the state and permute. -/
def absorb (s : List UInt64) (block : List UInt8) : List UInt64 :=
  permute (List.zipWith (· ^^^ ·) s (lanes 17 block ++ List.replicate 8 0))

/-- The state after a number of full blocks and the padded rest. -/
def sponge : Nat → List UInt64 → List UInt8 → List UInt64
  | 0, s, bytes => absorb s (padded bytes)
  | blocks + 1, s, bytes => sponge blocks (absorb s (bytes.take rate)) (bytes.drop rate)

/-- The digest before its length is known to the type. -/
def digestBytes (bytes : List UInt8) : List UInt8 :=
  let s := sponge (bytes.length / rate) (List.replicate 25 0) bytes
  (lanesBytes s).take 32
where
  /-- The bytes of all lanes. -/
  lanesBytes (s : List UInt64) : List UInt8 := s.flatMap laneBytes

end PeerProbe.Keccak

namespace PeerProbe

/-- The Keccak-256 digest of a byte string. -/
def keccak256 (bytes : List UInt8) : Hash :=
  (Block.ofBytes? 32 (Keccak.digestBytes bytes)).getD (Block.zero 32)

end PeerProbe
