import Mathlib.Data.List.Forall2
import PeerProbe.Proofs.Eth.Payloads

/-!
# Payloads have one written form

A payload that is accepted is the written form of the value it is read as. So no two payloads
stand for one value, none is a proper beginning of another, and the hashes that are taken over
rewritten headers and transactions are the hashes of the bytes that came.

In the other direction every written payload is decoded to the value it was written for, under
every limit that leaves room for it.
-/

namespace PeerProbe.Eth

open Rlp (Item ExactItem Exact Reader Head)

/-- A payload is accepted when reading it leaves nothing over. -/
theorem decodeExact_eq_ok {α : Type} {item : Reader α} {code : UInt64} {payload : List UInt8}
    {a : α} : decodeExact item code payload = .ok a ↔ item payload = .ok (a, []) := by
  unfold decodeExact Rlp.exactly
  cases item payload with
  | error e => simp
  | ok x =>
    obtain ⟨b, left⟩ := x
    cases left <;> simp

/-- Reading what an exact writer wrote, and nothing else, gives the value back. -/
theorem decodeExact_of_exact {α : Type} {item : Reader α} {write : α → List UInt8}
    (h : Exact item write fun _ => True) {a : α} (code : UInt64)
    (hlen : (write a).length < Rlp.sizeLimit) : decodeExact item code (write a) = .ok a := by
  have hread : item (write a ++ []) = .ok (a, []) :=
    h.read_append trivial (by rwa [List.append_nil])
  rw [List.append_nil] at hread
  exact decodeExact_eq_ok.mpr hread

/-! ## Accepted payloads -/

/-- What it takes for the accepted payloads of a type to be canonical: each is the written form of
its value, two of them never stand for the same value, and none continues another. -/
structure Canonical {α : Type} (item : Reader α) (write : α → List UInt8) : Prop where
  written : ∀ {code : UInt64} {payload : List UInt8} {a : α},
    decodeExact item code payload = .ok a → write a = payload
  unique : ∀ {code code' : UInt64} {payload payload' : List UInt8} {a : α},
    decodeExact item code payload = .ok a → decodeExact item code' payload' = .ok a →
      payload = payload'
  prefixFree : ∀ {code code' : UInt64} {payload more : List UInt8} {a b : α},
    decodeExact item code payload = .ok a → decodeExact item code' (payload ++ more) = .ok b →
      more = []

/-- Exact readers accept canonical payloads only. -/
theorem canonical_of_exact {α : Type} {item : Reader α} {write : α → List UInt8}
    (h : Exact item write fun _ => True) : Canonical item write := by
  have hwritten : ∀ {code : UInt64} {payload : List UInt8} {a : α},
      decodeExact item code payload = .ok a → write a = payload := by
    intro code payload a hread
    obtain ⟨-, hbytes⟩ := h.of_read (decodeExact_eq_ok.mp hread)
    rw [hbytes, List.append_nil]
  refine ⟨hwritten, ?_, ?_⟩
  · intro code code' payload payload' a hread hread'
    rw [← hwritten hread, ← hwritten hread']
  · intro code code' payload more a b hread hmore
    have hboth := h.read_more more (decodeExact_eq_ok.mp hread)
    rw [decodeExact_eq_ok.mp hmore, List.nil_append] at hboth
    exact (Prod.mk.inj (Except.ok.inj hboth)).2.symm

/-- Bytes stand in an item when they are what its head leaves to read. -/
def StandsIn (content bytes : List UInt8) : Prop :=
  ∃ head, Head.read bytes = .ok (head, content)

/-- The elements of an accepted list were received as the items they are rewritten to, one behind
the other. -/
theorem items_of_decodeExact {α : Type} [Item α] [ExactItem α] {code : UInt64}
    {payload : List UInt8} {xs : List α}
    (hread : decodeExact (Rlp.list Item.read) code payload = .ok xs) :
    StandsIn (xs.map Item.write).flatten payload ∧
      ∀ x ∈ xs, decodeExact Item.read code (Item.write x) = .ok x := by
  obtain ⟨head, hhead, hlen⟩ :=
    Rlp.elements_of_list ExactItem.exact (decodeExact_eq_ok.mp hread)
  rw [List.append_nil, List.flatMap_def] at hhead
  refine ⟨⟨head, hhead⟩, fun x hx => decodeExact_of_exact ExactItem.exact code ?_⟩
  have hsub : List.Sublist (Item.write x) (xs.flatMap Item.write) := by
    rw [List.flatMap_def]
    exact List.sublist_flatten_of_mem (List.mem_map_of_mem hx)
  exact lt_of_le_of_lt hsub.length_le hlen

/-- The header of an accepted block was received as the item it is rewritten to: the first item
in the first item of the payload. -/
theorem header_of_decodeExact {code : UInt64} {payload : List UInt8} {b : NewBlock}
    (hread : decodeExact Item.read code payload = .ok b) :
    (∃ block behind, StandsIn block payload ∧
      StandsIn (Item.write b.block.header ++ behind) block) ∧
      decodeExact Item.read code (Item.write b.block.header) = .ok b.block.header := by
  obtain ⟨outer, houter, hlen⟩ := Rlp.fields_of_record newBlock_fields (decodeExact_eq_ok.mp hread)
  rw [List.append_nil] at houter
  have hblock := (ExactItem.exact (α := FullBlock)).read_append trivial hlen
  obtain ⟨inner, hinner, hfields⟩ := Rlp.fields_of_record fullBlock_fields hblock
  rw [List.append_assoc] at hinner
  refine ⟨⟨_, _, ⟨outer, houter⟩, inner, hinner⟩, decodeExact_of_exact ExactItem.exact code ?_⟩
  rw [List.length_append] at hfields
  omega

/-- What is accepted as one of the payload types is canonical, and a hash that is taken over a
rewritten header or transaction is the hash of an item that stands in the payload as it came. -/
theorem decodeExact_canonical :
    Canonical (Item.read : Reader Status) rlpBytes ∧
      Canonical (Item.read : Reader HeaderQuery) rlpBytes ∧
      Canonical (Rlp.readList : Reader (List Header)) Rlp.writeList ∧
      Canonical (Rlp.readList : Reader (List HashAnnouncement)) Rlp.writeList ∧
      Canonical (Rlp.readList : Reader (List Transaction)) Rlp.writeList ∧
      Canonical (Item.read : Reader NewBlock) rlpBytes ∧
      (∀ (code : UInt64) (payload : List UInt8) (b : NewBlock),
        decodeExact Item.read code payload = .ok b →
          ∃ block header behind, StandsIn block payload ∧ StandsIn (header ++ behind) block ∧
            decodeExact Item.read code header = .ok b.block.header ∧
            b.block.header.hash = keccak256 header) ∧
      ∀ (code : UInt64) (payload : List UInt8) (ts : List Transaction),
        decodeExact Rlp.readList code payload = .ok ts →
          ∃ items : List (List UInt8), StandsIn items.flatten payload ∧
            List.Forall₂ (fun item t => decodeExact Item.read code item = .ok t ∧
              t.hash = keccak256 item) items ts := by
  refine ⟨canonical_of_exact ExactItem.exact, canonical_of_exact ExactItem.exact,
    canonical_of_exact exact_headers, canonical_of_exact exact_announcements,
    canonical_of_exact exact_transactions, canonical_of_exact ExactItem.exact, ?_, ?_⟩
  · intro code payload b hread
    obtain ⟨⟨block, behind, hblock, hheader⟩, halone⟩ := header_of_decodeExact hread
    exact ⟨block, _, behind, hblock, hheader, halone, rfl⟩
  · intro code payload ts hread
    obtain ⟨hin, halone⟩ := items_of_decodeExact hread
    refine ⟨ts.map Item.write, hin, ?_⟩
    rw [List.forall₂_map_left_iff, List.forall₂_same]
    exact fun t ht => ⟨halone t ht, rfl⟩

/-! ## Written payloads -/

/-- Every written payload is some bytes. -/
theorem Payload.bytes?_ne_nil {p : Payload} {bytes : List UInt8} (h : p.bytes? = some bytes) :
    bytes ≠ [] := by
  cases p with
  | unknown code size => contradiction
  | status | headerQuery | headers | announcements | transactions | newBlock =>
    obtain rfl := Option.some.inj h
    exact Rlp.ofItems_ne_nil _

/-- A written payload is decoded by the code it travels under. -/
theorem Payload.ofCode_code {p : Payload} {bytes : List UInt8} (h : p.bytes? = some bytes)
    (hlen : bytes.length < Rlp.sizeLimit) : Payload.ofCode (.ofPayload p.code bytes) = .ok p := by
  cases p with
  | unknown code size => contradiction
  | status s =>
    obtain rfl := Option.some.inj h
    change Payload.status <$> decodeExact Item.read _ (Item.write s) = _
    rw [decodeExact_of_exact ExactItem.exact _ hlen]
    rfl
  | headerQuery q =>
    obtain rfl := Option.some.inj h
    change Payload.headerQuery <$> decodeExact Item.read _ (Item.write q) = _
    rw [decodeExact_of_exact ExactItem.exact _ hlen]
    rfl
  | headers hs =>
    obtain rfl := Option.some.inj h
    change Payload.headers <$> decodeExact Rlp.readList _ (Rlp.writeList hs) = _
    rw [decodeExact_of_exact exact_headers _ hlen]
    rfl
  | announcements as =>
    obtain rfl := Option.some.inj h
    change Payload.announcements <$> decodeExact Rlp.readList _ (Rlp.writeList as) = _
    rw [decodeExact_of_exact exact_announcements _ hlen]
    rfl
  | transactions ts =>
    obtain rfl := Option.some.inj h
    change Payload.transactions <$> decodeExact Rlp.readList _ (Rlp.writeList ts) = _
    rw [decodeExact_of_exact exact_transactions _ hlen]
    rfl
  | newBlock b =>
    obtain rfl := Option.some.inj h
    change Payload.newBlock <$> decodeExact Item.read _ (Item.write b) = _
    rw [decodeExact_of_exact ExactItem.exact _ hlen]
    rfl

/-- A written payload of a known type is decoded to itself under its code and every limit that
leaves room for it. -/
theorem decodeMessage_ofPayload (p : Payload) {bytes : List UInt8} (h : p.bytes? = some bytes)
    {max : UInt32} (hmax : bytes.length ≤ max.toNat) :
    decodeMessage (.ofPayload p.code bytes) max = .ok p := by
  have hlt : bytes.length < 2 ^ 32 := lt_of_le_of_lt hmax max.toNat_lt
  have hsize : (UInt32.ofNat bytes.length).toNat = bytes.length :=
    UInt32.toNat_ofNat_of_lt' hlt
  have hne := Payload.bytes?_ne_nil h
  have hempty : ¬ (Frame.ofPayload p.code bytes).isEmpty := by
    have hzero : UInt32.ofNat bytes.length ≠ 0 := by
      intro hzero
      rw [hzero] at hsize
      exact hne (List.length_eq_zero_iff.mp hsize.symm)
    simp [Frame.isEmpty, Frame.ofPayload, hzero, hne]
  have hroom : ¬ max < (Frame.ofPayload p.code bytes).size := by
    rw [UInt32.lt_iff_toNat_lt]
    change ¬ max.toNat < (UInt32.ofNat bytes.length).toNat
    omega
  rw [decodeMessage, if_neg hempty, if_neg hroom]
  exact Payload.ofCode_code h (by unfold Rlp.sizeLimit; omega)

/-- A query by hash under a limit of one thousand bytes. -/
theorem decodeMessage_ofPayload_headerQuery :
    let p := Payload.headerQuery ⟨.hash mainnetGenesis, 16, 0, true⟩
    let bytes := rlpBytes (HeaderQuery.mk (.hash mainnetGenesis) 16 0 true)
    p.bytes? = some bytes ∧ bytes.length ≤ (1000 : UInt32).toNat ∧
      decodeMessage (.ofPayload p.code bytes) 1000 = .ok p := by
  intro p bytes
  have hlen : bytes.length ≤ (1000 : UInt32).toNat := by decide +kernel
  exact ⟨rfl, hlen, decodeMessage_ofPayload p rfl hlen⟩

end PeerProbe.Eth
