import PeerProbe.Hash.Keccak
import PeerProbe.Text.Utf8

/-!
# Account addresses

Twenty-byte account addresses and their checksummed text: a letter is upper case where the
matching half byte of the digest of the lower-case digits is at least eight.
-/

namespace PeerProbe

/-- The address of an account. -/
abbrev Account := Block 20

namespace Account

/-- The half bytes of a byte string. -/
def halves (bytes : List UInt8) : List Nat := bytes.flatMap fun b => [b.toNat / 16, b.toNat % 16]

/-- The checksummed text of an address. -/
def text (a : Account) : String :=
  let ds := Hex.digits a.bytes
  let digest := keccak256 (Utf8.encode ds)
  "0x" ++ String.ofList
    (List.zipWith (fun c h => if 8 ≤ h then c.toUpper else c) ds (halves digest.bytes))

end Account

end PeerProbe
