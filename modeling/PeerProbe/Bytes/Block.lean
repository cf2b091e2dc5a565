import PeerProbe.Bytes.Hex

/-!
# Byte strings of a fixed size

Hashes, addresses, blooms, nonces and node identities are byte strings whose length is part of
their type. `Block.ofBytes?` is the only way in from unchecked bytes.
-/

namespace PeerProbe

/-- A byte string of exactly `n` bytes. -/
structure Block (n : Nat) where
  bytes : List UInt8
  length_eq : bytes.length = n

namespace Block

variable {n : Nat}

/-- Two blocks are equal when their bytes are. -/
theorem ext_bytes {a b : Block n} (h : a.bytes = b.bytes) : a = b := by
  cases a; cases b; cases h; rfl

instance : DecidableEq (Block n) := fun a b =>
  if h : a.bytes = b.bytes then isTrue (ext_bytes h)
  else isFalse fun e => h (congrArg Block.bytes e)

/-- The block holding given bytes, if there are exactly `n`. -/
def ofBytes? (n : Nat) (bytes : List UInt8) : Option (Block n) :=
  if h : bytes.length = n then some ⟨bytes, h⟩ else none

/-- The block that repeats one byte. -/
def replicate (n : Nat) (b : UInt8) : Block n := ⟨List.replicate n b, List.length_replicate⟩

/-- The block of zeros. -/
def zero (n : Nat) : Block n := replicate n 0

/-- A block as hexadecimal digits. -/
def hex (b : Block n) : String := Hex.encode b.bytes

/-- A block as marked hexadecimal, the form hashes take in messages. -/
def marked (b : Block n) : String := "0x" ++ b.hex

instance : Inhabited (Block n) := ⟨zero n⟩

end Block

/-- A 32-byte hash. -/
abbrev Hash := Block 32

end PeerProbe
