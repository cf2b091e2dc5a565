import PeerProbe.Eth.Message
import PeerProbe.Proofs.Rlp.Types

/-!
# The payload types are exact

Each record is read field by field in the order in which it is written, so its exactness follows
from that of the fields. The start of a header query is the one choice: its first byte tells a
hash from a number.
-/

namespace PeerProbe.Eth

open Rlp (Item ExactItem Exact Reader)

/-! ## The records -/

instance : ExactItem Status where
  exact := by
    refine Exact.record ?_
    refine .field ExactItem.exact Status.protocolVersion fun _ => ?_
    refine .field ExactItem.exact Status.networkId fun _ => ?_
    refine .field ExactItem.exact Status.totalDifficulty fun _ => ?_
    refine .field ExactItem.exact Status.currentBlock fun _ => ?_
    exact .last ExactItem.exact Status.genesisBlock (by grind [cases Status])

instance : ExactItem Header where
  exact := by
    refine Exact.record ?_
    refine .field ExactItem.exact Header.parentHash fun _ => ?_
    refine .field ExactItem.exact Header.uncleHash fun _ => ?_
    refine .field ExactItem.exact Header.coinbase fun _ => ?_
    refine .field ExactItem.exact Header.stateRoot fun _ => ?_
    refine .field ExactItem.exact Header.transactionsRoot fun _ => ?_
    refine .field ExactItem.exact Header.receiptsRoot fun _ => ?_
    refine .field ExactItem.exact Header.logsBloom fun _ => ?_
    refine .field ExactItem.exact Header.difficulty fun _ => ?_
    refine .field ExactItem.exact Header.number fun _ => ?_
    refine .field ExactItem.exact Header.gasLimit fun _ => ?_
    refine .field ExactItem.exact Header.gasUsed fun _ => ?_
    refine .field ExactItem.exact Header.timestamp fun _ => ?_
    refine .field ExactItem.exact Header.extraData fun _ => ?_
    refine .field ExactItem.exact Header.mixDigest fun _ => ?_
    exact .last ExactItem.exact Header.nonce (by grind [cases Header])

instance : ExactItem Transaction where
  exact := by
    refine Exact.record ?_
    refine .field ExactItem.exact Transaction.nonce fun _ => ?_
    refine .field ExactItem.exact Transaction.gasPrice fun _ => ?_
    refine .field ExactItem.exact Transaction.gasLimit fun _ => ?_
    refine .field ExactItem.exact Transaction.recipientBytes fun _ => ?_
    refine .field ExactItem.exact Transaction.value fun _ => ?_
    refine .field ExactItem.exact Transaction.input fun _ => ?_
    refine .field ExactItem.exact Transaction.v fun _ => ?_
    refine .field ExactItem.exact Transaction.r fun _ => ?_
    exact .last ExactItem.exact Transaction.s (by grind [cases Transaction])

instance : ExactItem HashAnnouncement where
  exact := by
    refine Exact.record ?_
    refine .field ExactItem.exact HashAnnouncement.hash fun _ => ?_
    exact .last ExactItem.exact HashAnnouncement.number (by grind [cases HashAnnouncement])

/-- Lists of headers are exact. -/
theorem exact_headers : Exact Rlp.readList (Rlp.writeList (α := Header)) fun _ => True :=
  Exact.list ExactItem.exact fun _ => Rlp.ofItems_ne_nil _

/-- Lists of announcements are exact. -/
theorem exact_announcements :
    Exact Rlp.readList (Rlp.writeList (α := HashAnnouncement)) fun _ => True :=
  Exact.list ExactItem.exact fun _ => Rlp.ofItems_ne_nil _

/-- Lists of transactions are exact. -/
theorem exact_transactions :
    Exact Rlp.readList (Rlp.writeList (α := Transaction)) fun _ => True :=
  Exact.list ExactItem.exact fun _ => Rlp.ofItems_ne_nil _

/-- The fields of a block are exact. -/
theorem fullBlock_fields : Exact (do
    let header ← Item.read
    let transactions ← Rlp.readList
    let uncles ← Rlp.readList
    return ({ header, transactions, uncles } : FullBlock))
    (fun b => Item.write b.header ++ (Rlp.writeList b.transactions ++ Rlp.writeList b.uncles))
    fun _ => True := by
  refine .field ExactItem.exact FullBlock.header fun _ => ?_
  refine .field exact_transactions FullBlock.transactions fun _ => ?_
  exact .last exact_headers FullBlock.uncles (by grind [cases FullBlock])

instance : ExactItem FullBlock where
  exact := .record fullBlock_fields

/-- The fields of a propagated block are exact. -/
theorem newBlock_fields : Exact (do
    let block ← Item.read
    let totalDifficulty ← Item.read
    return ({ block, totalDifficulty } : NewBlock))
    (fun b => Item.write b.block ++ Item.write b.totalDifficulty) fun _ => True := by
  refine .field ExactItem.exact NewBlock.block fun _ => ?_
  exact .last ExactItem.exact NewBlock.totalDifficulty (by grind [cases NewBlock])

instance : ExactItem NewBlock where
  exact := .record newBlock_fields

/-! ## The start of a header query -/

/-- Behind the head of a string of 32 bytes stands a hash. -/
theorem readOrigin_of_head {bytes : List UInt8} (h : bytes.head? = some 0xa0) :
    (Item.read : Reader Origin) bytes = (Origin.hash <$> (Item.read : Reader Hash)) bytes := by
  obtain ⟨rest, rfl⟩ := List.head?_eq_some_iff.mp h
  rfl

/-- Behind every other first byte stands a number. -/
theorem readOrigin_of_ne {bytes : List UInt8} (h : bytes.head? ≠ some 0xa0) :
    (Item.read : Reader Origin) bytes = (Origin.number <$> (Item.read : Reader UInt64)) bytes := by
  simp only [Item.read]
  split
  · simp at h
  · rfl

/-- A hash is written behind the head of a string of 32 bytes. -/
theorem write_hash (h : Hash) : Item.write h = 0xa0 :: h.bytes := by
  have hlen := h.length_eq
  change Rlp.ofString h.bytes = _
  rw [Rlp.ofString_of_not_bare (by omega), hlen]
  rfl

/-- No number of 64 bits is written with the first byte of a hash. -/
theorem head?_write_number (n : UInt64) : (Item.write n).head? ≠ some 0xa0 := by
  have hwidth : BigEndian.width n.toNat ≤ 8 := (BigEndian.width_le_iff _ _).mpr n.toNat_lt
  have hlen := BigEndian.length_shortest n.toNat
  change (Rlp.ofString (BigEndian.shortest n.toNat)).head? ≠ _
  unfold Rlp.ofString
  split
  · next b _ =>
    split
    · next hb => rintro ⟨⟩; simp at hb
    · simp [Rlp.Head.bytes, Rlp.Head.base]
  · rw [hlen]
    generalize BigEndian.width n.toNat = count at hwidth
    have hshort : count < 56 := by omega
    simp only [Rlp.Head.bytes, hshort, ↓reduceIte, List.singleton_append, List.head?_cons, ne_eq,
      Option.some.injEq]
    intro heq
    have hvalue := congrArg UInt8.toNat heq
    simp [Rlp.Head.base] at hvalue
    omega

/-- A hash and a number are told apart by the first byte alone. -/
instance : ExactItem Origin where
  exact :=
    { of_read := fun {bytes origin rest} hread => by
        refine ⟨trivial, ?_⟩
        by_cases hhead : bytes.head? = some 0xa0
        · rw [readOrigin_of_head hhead] at hread
          obtain ⟨h, hh, rfl⟩ := Rlp.map_eq_ok.mp hread
          exact (ExactItem.exact.of_read hh).2
        · rw [readOrigin_of_ne hhead] at hread
          obtain ⟨n, hn, rfl⟩ := Rlp.map_eq_ok.mp hread
          exact (ExactItem.exact.of_read hn).2
      read_more := fun {bytes origin rest} more hread => by
        cases bytes with
        | nil => contradiction
        | cons b tail =>
          by_cases hhead : (b :: tail).head? = some 0xa0
          · have hhead' : (b :: tail ++ more).head? = some 0xa0 := hhead
            rw [readOrigin_of_head hhead] at hread
            obtain ⟨h, hh, rfl⟩ := Rlp.map_eq_ok.mp hread
            refine (readOrigin_of_head hhead').trans ?_
            exact Rlp.map_eq_ok.mpr ⟨h, ExactItem.exact.read_more more hh, rfl⟩
          · have hhead' : (b :: tail ++ more).head? ≠ some 0xa0 := hhead
            rw [readOrigin_of_ne hhead] at hread
            obtain ⟨n, hn, rfl⟩ := Rlp.map_eq_ok.mp hread
            refine (readOrigin_of_ne hhead').trans ?_
            exact Rlp.map_eq_ok.mpr ⟨n, ExactItem.exact.read_more more hn, rfl⟩
      read_append := fun {origin rest} _ hlen => by
        cases origin with
        | hash h =>
          have hhead : (Item.write h ++ rest).head? = some 0xa0 := by rw [write_hash]; rfl
          refine (readOrigin_of_head hhead).trans ?_
          exact Rlp.map_eq_ok.mpr ⟨h, ExactItem.exact.read_append trivial hlen, rfl⟩
        | number n =>
          have hhead : (Item.write n ++ rest).head? ≠ some 0xa0 := by
            have hnumber := head?_write_number n
            obtain ⟨b, tail, hb⟩ := List.exists_cons_of_ne_nil (l := Item.write n)
              (Rlp.ofString_ne_nil _)
            rw [hb] at hnumber ⊢
            exact hnumber
          refine (readOrigin_of_ne hhead).trans ?_
          exact Rlp.map_eq_ok.mpr ⟨n, ExactItem.exact.read_append trivial hlen, rfl⟩ }

instance : ExactItem HeaderQuery where
  exact := by
    refine Exact.record ?_
    refine .field ExactItem.exact HeaderQuery.origin fun _ => ?_
    refine .field ExactItem.exact HeaderQuery.amount fun _ => ?_
    refine .field ExactItem.exact HeaderQuery.skip fun _ => ?_
    exact .last ExactItem.exact HeaderQuery.reverse (by grind [cases HeaderQuery])

end PeerProbe.Eth
