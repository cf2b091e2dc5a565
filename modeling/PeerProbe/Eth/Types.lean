import PeerProbe.Eth.Code
import PeerProbe.Hash.Account
import PeerProbe.Rlp.Item

/-!
# Payloads of eth/63

The values that the decoded messages carry, with their item forms. Each record lists its fields
once for writing and once for reading, in the order in which they stand on the wire.
-/

namespace PeerProbe.Eth

open Rlp (Item Reader record ofItems)

/-- The item form of any payload value. -/
def rlpBytes {α : Type} [Item α] (a : α) : List UInt8 := Item.write a

/-! ## Status -/

/-- What a node says about itself in its first message. -/
structure Status where
  protocolVersion : UInt32
  networkId : UInt64
  totalDifficulty : U256
  currentBlock : Hash
  genesisBlock : Hash
  deriving DecidableEq

/-- The version of the protocol spoken here. -/
def version : UInt32 := 63

/-- The bytes of the mainnet genesis hash. -/
def mainnetGenesisBytes : List UInt8 :=
  [0xd4, 0xe5, 0x67, 0x40, 0xf8, 0x76, 0xae, 0xf8, 0xc0, 0x10, 0xb8, 0x6a, 0x40, 0xd5, 0xf5, 0x67,
   0x45, 0xa1, 0x18, 0xd0, 0x90, 0x6a, 0x34, 0xe6, 0x9a, 0xec, 0x8c, 0x0d, 0xb1, 0xcb, 0x8f, 0xa3]

/-- The hash of the mainnet genesis block. -/
def mainnetGenesis : Hash := ⟨mainnetGenesisBytes, rfl⟩

/-- The difficulty of the mainnet genesis block. -/
def mainnetGenesisDifficulty : Nat := 17179869184

/-- The status of a node that sits on the mainnet genesis block. -/
def Status.mainnet : Status :=
  ⟨version, 1, BitVec.ofNat 256 mainnetGenesisDifficulty, mainnetGenesis, mainnetGenesis⟩

instance : Item Status where
  write s := ofItems (Item.write s.protocolVersion ++ (Item.write s.networkId ++
    (Item.write s.totalDifficulty ++ (Item.write s.currentBlock ++ Item.write s.genesisBlock))))
  read := record do
    let protocolVersion ← Item.read
    let networkId ← Item.read
    let totalDifficulty ← Item.read
    let currentBlock ← Item.read
    let genesisBlock ← Item.read
    return { protocolVersion, networkId, totalDifficulty, currentBlock, genesisBlock }

/-! ## Headers -/

/-- A block header. -/
structure Header where
  parentHash : Hash
  uncleHash : Hash
  coinbase : Account
  stateRoot : Hash
  transactionsRoot : Hash
  receiptsRoot : Hash
  logsBloom : Block 256
  difficulty : U256
  number : UInt64
  gasLimit : UInt64
  gasUsed : UInt64
  timestamp : UInt64
  extraData : List UInt8
  mixDigest : Hash
  nonce : Block 8
  deriving DecidableEq

instance : Item Header where
  write h := ofItems (Item.write h.parentHash ++ (Item.write h.uncleHash ++
    (Item.write h.coinbase ++ (Item.write h.stateRoot ++ (Item.write h.transactionsRoot ++
    (Item.write h.receiptsRoot ++ (Item.write h.logsBloom ++ (Item.write h.difficulty ++
    (Item.write h.number ++ (Item.write h.gasLimit ++ (Item.write h.gasUsed ++
    (Item.write h.timestamp ++ (Item.write h.extraData ++ (Item.write h.mixDigest ++
    Item.write h.nonce))))))))))))))
  read := record do
    let parentHash ← Item.read
    let uncleHash ← Item.read
    let coinbase ← Item.read
    let stateRoot ← Item.read
    let transactionsRoot ← Item.read
    let receiptsRoot ← Item.read
    let logsBloom ← Item.read
    let difficulty ← Item.read
    let number ← Item.read
    let gasLimit ← Item.read
    let gasUsed ← Item.read
    let timestamp ← Item.read
    let extraData ← Item.read
    let mixDigest ← Item.read
    let nonce ← Item.read
    return { parentHash, uncleHash, coinbase, stateRoot, transactionsRoot, receiptsRoot, logsBloom,
             difficulty, number, gasLimit, gasUsed, timestamp, extraData, mixDigest, nonce }

/-- The hash of a header: the digest of its item form. -/
def Header.hash (h : Header) : Hash := keccak256 (rlpBytes h)

/-! ## Transactions and blocks -/

/-- A transaction without a type; `recipientBytes` is empty when it creates a contract. -/
structure Transaction where
  nonce : UInt64
  gasPrice : U256
  gasLimit : UInt64
  recipientBytes : List UInt8
  value : U256
  input : List UInt8
  v : U256
  r : U256
  s : U256
  deriving DecidableEq

instance : Item Transaction where
  write t := ofItems (Item.write t.nonce ++ (Item.write t.gasPrice ++ (Item.write t.gasLimit ++
    (Item.write t.recipientBytes ++ (Item.write t.value ++ (Item.write t.input ++
    (Item.write t.v ++ (Item.write t.r ++ Item.write t.s))))))))
  read := record do
    let nonce ← Item.read
    let gasPrice ← Item.read
    let gasLimit ← Item.read
    let recipientBytes ← Item.read
    let value ← Item.read
    let input ← Item.read
    let v ← Item.read
    let r ← Item.read
    let s ← Item.read
    return { nonce, gasPrice, gasLimit, recipientBytes, value, input, v, r, s }

namespace Transaction

/-- The hash of a transaction: the digest of its item form. -/
def hash (t : Transaction) : Hash := keccak256 (rlpBytes t)

/-- The account a transaction goes to, if its recipient has the length of one. -/
def recipient (t : Transaction) : Option Account := Block.ofBytes? 20 t.recipientBytes

/-- The chain a signature is bound to: from 35 on, `v` holds the chain and one bit of parity. -/
def chainId (t : Transaction) : Option Nat :=
  let v := t.v.toNat
  if v < 0x10000000000000000 ∧ 35 ≤ v then some ((v - 35) / 2) else none

end Transaction

/-- A block: its header, its transactions and the headers of its uncles. -/
structure FullBlock where
  header : Header
  transactions : List Transaction
  uncles : List Header
  deriving DecidableEq

instance : Item FullBlock where
  write b := ofItems (Item.write b.header ++ (Rlp.writeList b.transactions ++
    Rlp.writeList b.uncles))
  read := record do
    let header ← Item.read
    let transactions ← Rlp.readList
    let uncles ← Rlp.readList
    return { header, transactions, uncles }

/-- The propagation of a block. -/
structure NewBlock where
  block : FullBlock
  totalDifficulty : U256
  deriving DecidableEq

instance : Item NewBlock where
  write b := ofItems (Item.write b.block ++ Item.write b.totalDifficulty)
  read := record do
    let block ← Item.read
    let totalDifficulty ← Item.read
    return { block, totalDifficulty }

/-! ## Announcements and queries -/

/-- One entry of an announcement of block hashes. -/
structure HashAnnouncement where
  hash : Hash
  number : UInt64
  deriving DecidableEq

instance : Item HashAnnouncement where
  write a := ofItems (Item.write a.hash ++ Item.write a.number)
  read := record do
    let hash ← Item.read
    let number ← Item.read
    return { hash, number }

/-- Where a header query starts. -/
inductive Origin where
  | hash (h : Hash)
  | number (n : UInt64)
  deriving DecidableEq

/-- The first byte of a string of 32 bytes tells a hash from a number. -/
instance : Item Origin where
  write
    | .hash h => Item.write h
    | .number n => Item.write n
  read := fun bytes =>
    match bytes with
    | 0xa0 :: _ => (Origin.hash <$> (Item.read : Reader Hash)) bytes
    | _ => (Origin.number <$> (Item.read : Reader UInt64)) bytes

/-- A query for headers. -/
structure HeaderQuery where
  origin : Origin
  amount : UInt64
  skip : UInt64
  reverse : Bool
  deriving DecidableEq

instance : Item HeaderQuery where
  write q := ofItems (Item.write q.origin ++ (Item.write q.amount ++ (Item.write q.skip ++
    Item.write q.reverse)))
  read := record do
    let origin ← Item.read
    let amount ← Item.read
    let skip ← Item.read
    let reverse ← Item.read
    return { origin, amount, skip, reverse }

end PeerProbe.Eth
