import PeerProbe.Proofs.Discovery.Reception
import PeerProbe.Proofs.Json.Reading
import PeerProbe.Proofs.PeerRef.Width
import PeerProbe.Proofs.Text.Utf8

/-!
# Datagrams that arrive whole

What a probe or a responder sends is bounded: a nonce has twenty digits at most, a lookup is the
digits of an identity, and a list of nodes is cut before it is sent. Sixteen of the longest records fit
a datagram with room to spare. Everything that is sent is ASCII, so the bound on its characters is one
on its bytes.

What is not cut off is read as it was written. That does not need the bound: a packet of any size is
its own reading.
-/

namespace PeerProbe

namespace Text

/-- A character that is one byte. -/
def IsAscii (c : Char) : Prop := c.toNat < 0x80

instance (c : Char) : Decidable (IsAscii c) := inferInstanceAs (Decidable (_ < _))

theorem IsPlain.isAscii {c : Char} (h : IsPlain c) : IsAscii c := h.2.1

end Text

open Text (Within IsPlain IsAscii)

/-- A text of ASCII has as many bytes as characters. -/
theorem Utf8.length_encode {cs : List Char} (h : ∀ c ∈ cs, IsAscii c) :
    (encode cs).length = cs.length := by
  induction cs with
  | nil => rfl
  | cons c cs ih =>
    obtain ⟨hc, hcs⟩ := List.forall_mem_cons.mp h
    have hsize : (String.utf8EncodeChar c).length = 1 := by
      rw [String.length_utf8EncodeChar, Char.utf8Size_eq_one_iff]
      exact UInt32.le_iff_toNat_le.mpr (Nat.le_of_lt_succ hc)
    have hcons : encode (c :: cs) = String.utf8EncodeChar c ++ encode cs := List.flatMap_cons
    rw [hcons, List.length_append, hsize, ih hcs, List.length_cons, Nat.add_comm]

namespace Json

variable {depth m n : Nat} {s : String} {v : Value} {items : List Value}
  {members : List (String × Value)}

/-! ## How long a text is -/

/-- A plain character is not escaped. -/
theorem escapeChar_of_isPlain {c : Char} (h : IsPlain c) : escapeChar c = [c] := by
  obtain ⟨hlarge, -, hquote, hslash⟩ := h
  have hne {e : Char} (he : e.toNat < 0x20) : c ≠ e := fun heq =>
    Nat.not_lt_of_le hlarge (heq ▸ he)
  rw [escapeChar, if_neg hquote, if_neg hslash, if_neg (hne (by decide)), if_neg (hne (by decide)),
    if_neg (hne (by decide)), if_neg (hne (by decide)), if_neg (hne (by decide)),
    if_neg (Nat.not_lt_of_le hlarge)]

theorem within_string (h : Within IsPlain n s.toList) :
    Within IsAscii (n + 2) (Value.string s).chars := by
  have hsame : s.toList.flatMap escapeChar = s.toList := by
    have heach := List.map_congr_left fun c hc => escapeChar_of_isPlain (h.2 c hc)
    rw [List.flatMap_def, heach, ← List.flatMap_def, List.flatMap_singleton']
  rw [Value.chars, stringChars, hsame]
  have hquote : Within IsAscii 1 ['"'] := Text.within_nil.cons (by decide)
  exact ((h.imp fun _ => IsPlain.isAscii).append hquote).cons (by decide)

theorem within_word (x : UInt64) : Within IsAscii 20 (Value.nat x.toNat).chars := by
  have hlt : x.toNat < 10 ^ 20 := Nat.lt_trans x.toNat_lt (by decide)
  exact (Text.within_toDigits (by decide) (by decide) (by decide) hlt).imp fun _ => IsPlain.isAscii

theorem within_itemsChars (h : ∀ v ∈ items, Within IsAscii m v.chars) :
    Within IsAscii (items.length * (m + 1)) (itemsChars items) := by
  induction items with
  | nil => exact Text.within_nil.mono (Nat.zero_le _)
  | cons v items ih =>
    obtain ⟨hv, hrest⟩ := List.forall_mem_cons.mp h
    rw [List.length_cons, Nat.succ_mul]
    cases items with
    | nil => exact hv.mono (by omega)
    | cons w items => exact (hv.append ((ih hrest).cons (by decide))).mono (by omega)

/-- Each item is followed by a comma or by the end. -/
theorem within_array (h : ∀ v ∈ items, Within IsAscii m v.chars) :
    Within IsAscii (items.length * (m + 1) + 2) (Value.array items).chars := by
  have hclose : Within IsAscii 1 [']'] := Text.within_nil.cons (by decide)
  rw [Value.chars]
  exact ((within_itemsChars h).append hclose).cons (by decide)

/-- One more member in front of others. -/
theorem within_membersChars (key : String) (k : Nat) (hkey : Within IsPlain k key.toList)
    (hv : Within IsAscii m v.chars) (h : Within IsAscii n (membersChars members)) :
    Within IsAscii (k + 3 + m + (n + 1)) (membersChars ((key, v) :: members)) := by
  have hmember := (within_string hkey).append (hv.cons (by decide : IsAscii ':'))
  rw [Value.chars] at hmember
  cases members with
  | nil => exact hmember.mono (by omega)
  | cons u members =>
    exact (hmember.append (h.cons (by decide : IsAscii ','))).mono (by omega)

theorem within_object (h : Within IsAscii n (membersChars members)) :
    Within IsAscii (n + 2) (Value.object members).chars := by
  have hclose : Within IsAscii 1 ['\x7d'] := Text.within_nil.cons (by decide)
  rw [Value.chars]
  exact (h.append hclose).cons (by decide)

/-! ## Objects whose keys are in any order -/

/-- Members that have their values have some together, whatever the order of their keys. -/
theorem exists_memberValues? (h : ∀ m ∈ members, Tree.value? depth m.2.tree = some m.2)
    (before : List (String × Value)) :
    ∃ merged, memberValues? depth (memberTrees members) before = some merged := by
  induction members generalizing before with
  | nil => exact ⟨before, rfl⟩
  | cons m members ih =>
    obtain ⟨key, v⟩ := m
    obtain ⟨merged, hmerged⟩ := ih (fun u hu => h u (List.mem_cons_of_mem _ hu))
      (insertMember key v before)
    refine ⟨merged, ?_⟩
    rw [memberTrees, memberValues?, h (key, v) List.mem_cons_self]
    exact hmerged

theorem isSome_value?_object (h : ∀ m ∈ members, m.2.Plain depth) :
    (Tree.value? (depth + 1) (Value.object members).tree).isSome := by
  obtain ⟨merged, hmerged⟩ := exists_memberValues? (fun m hm => (h m hm).value?_tree) []
  rw [Value.tree, Tree.value?, hmerged]
  rfl

end Json

namespace Discovery

open Json (Value Tree)

namespace Packet

variable {p : Packet}

/-- A packet as it is sent. -/
def datagram (p : Packet) : List UInt8 := Utf8.encode p.chars

/-! ## Reading a packet back -/

theorem readable?_memberTrees (members : List (String × Value)) :
    readable? (Json.memberTrees members) = some (members.map fun m => (m.1, m.2.tree)) := by
  induction members with
  | nil => rfl
  | cons m members ih =>
    obtain ⟨key, v⟩ := m
    rw [Json.memberTrees, readable?, ih]
    rfl

theorem peer_tree (p : PeerRef) : peer (peerJson p).tree = .ok p := by
  simp [peer, peerJson, Value.tree, Tree.text?, p.parse_text]

theorem peers_itemTrees (nodes : List PeerRef) :
    peers (Json.itemTrees (nodes.map peerJson)) = .ok nodes := by
  induction nodes with
  | nil => rfl
  | cons p nodes ih =>
    rw [List.map_cons, Json.itemTrees, peers, peer_tree, ih]
    rfl

/-- A packet is an object, and all that it holds can be read back. -/
theorem exists_json (p : Packet) :
    ∃ members, p.json = .object members ∧ ∀ m ∈ members, m.2.Plain 126 := by
  have hnodes (nodes : List PeerRef) : (Value.array (nodes.map peerJson)).Plain 126 := by
    refine .array fun v hv => ?_
    obtain ⟨q, -, rfl⟩ := List.mem_map.mp hv
    exact .string q.text
  cases p with
  | ping source nonce => exact ⟨_, rfl, by simp [peerJson, Value.Plain.string, Json.plain_word]⟩
  | pong nonce => exact ⟨_, rfl, by simp [Value.Plain.string, Json.plain_word]⟩
  | findNode target => exact ⟨_, rfl, by simp [Value.Plain.string]⟩
  | neighbors nodes => exact ⟨_, rfl, by simp [Value.Plain.string, hnodes]⟩

/-- A packet is read from its tree as it was put there. -/
theorem ofTree_tree (p : Packet) : ofTree p.json.tree = .ok p := by
  obtain ⟨members, hjson, hplain⟩ := p.exists_json
  have hvalue : (Tree.value? Json.maxDepth p.json.tree).isNone = false := by
    rw [hjson, Option.isNone_eq_false_iff]
    exact Json.isSome_value?_object hplain
  unfold ofTree
  rw [hvalue, if_neg Bool.false_ne_true]
  simp only [json, Value.tree, readable?_memberTrees]
  cases p <;> simp [kind, Value.tree, assemble, fieldNames, setFields, setField, setOnce, peer_tree,
    peerList, peers_itemTrees, word, Json.word?_nat, text, Tree.text?, Except.map, ofFields?]

theorem exact_json (p : Packet) : p.json.Exact := by
  obtain ⟨members, hjson, hplain⟩ := p.exists_json
  rw [hjson]
  exact .object fun m hm => (hplain m hm).exact

/-- A packet is read from its text, since nothing stands behind it. -/
theorem readWhole_chars (p : Packet) : readWhole ofTree p.chars [] = .ok p := by
  have hread := p.exact_json.readsBack (2 * p.chars.length + 2) [] (by rw [chars]; omega) trivial
  rw [List.append_nil] at hread
  exact readWhole_of_readValue hread rfl p.ofTree_tree

/-- A datagram that is not cut off is read as its packet. -/
theorem packet_datagram (p : Packet) (hfits : p.datagram.length ≤ maxPacketSize) :
    Responder.packet p.datagram = .ok p := by
  rw [Responder.packet, List.take_of_length_le hfits, datagram, ofBytes, Utf8.front_encode]
  exact p.readWhole_chars

/-! ## How long a packet is -/

/-- A packet with no more in it than probes and responders send: the lookup is an identity, and the
nodes were cut. -/
inductive Modest : Packet → Prop where
  | ping (source : PeerRef) (nonce : UInt64) : Modest (.ping source nonce)
  | pong (nonce : UInt64) : Modest (.pong nonce)
  | findNode (lookup : NodeId) : Modest (.findNode lookup.hex)
  | neighbors {nodes : List PeerRef} (h : nodes.length ≤ maxNeighbors) : Modest (.neighbors nodes)

theorem within_peerJson (p : PeerRef) : Within IsAscii 204 (peerJson p).chars := by
  refine Json.within_string ?_
  rw [PeerRef.text, String.toList_ofList]
  exact p.within_chars

theorem within_lookup (lookup : NodeId) : Within IsAscii 130 (Value.string lookup.hex).chars := by
  refine Json.within_string ?_
  rw [Block.hex, Hex.encode, String.toList_ofList]
  exact (Hex.within_digits lookup.bytes).mono (Nat.le_of_eq (by rw [lookup.length_eq]))

theorem within_nodes {nodes : List PeerRef} (h : nodes.length ≤ maxNeighbors) :
    Within IsAscii 3282 (Value.array (nodes.map peerJson)).chars := by
  have hitems : ∀ v ∈ nodes.map peerJson, Within IsAscii 204 v.chars := by
    intro v hv
    obtain ⟨q, -, rfl⟩ := List.mem_map.mp hv
    exact within_peerJson q
  have hcount : (nodes.map peerJson).length ≤ 16 := by
    rw [List.length_map]
    exact h
  exact (Json.within_array hitems).mono (by omega)

theorem within_kind (p : Packet) : Within IsPlain 9 p.kind.toList := by
  cases p with
  | ping => exact (by decide : Within IsPlain 9 "ping".toList)
  | pong => exact (by decide : Within IsPlain 9 "pong".toList)
  | findNode => exact (by decide : Within IsPlain 9 "findnode".toList)
  | neighbors => exact (by decide : Within IsPlain 9 "neighbors".toList)

/-- The frame of a packet: its braces, and its kind in front of the other members. -/
theorem within_frame (p : Packet) {n : Nat} {rest : List (String × Value)}
    (hrest : Within IsAscii n (Json.membersChars rest)) :
    Within IsAscii (n + 21) (Value.object (("type", .string p.kind) :: rest)).chars := by
  have hkind := Json.within_string p.within_kind
  have hmembers := Json.within_membersChars "type" 4 (by decide) hkind hrest
  exact (Json.within_object hmembers).mono (by omega)

/-- A modest packet is far shorter than the longest datagram. -/
theorem Modest.within_chars (h : p.Modest) : Within IsAscii 4096 p.chars := by
  have hend : Within IsAscii 0 (Json.membersChars []) := Text.within_nil
  have hnonce (x : UInt64) : Within IsAscii 29 (Json.membersChars [("nonce", .nat x.toNat)]) :=
    Json.within_membersChars "nonce" 5 (by decide) (Json.within_word x) hend
  unfold chars json
  cases h with
  | ping source nonce =>
    have hsource :=
      Json.within_membersChars "from" 4 (by decide) (within_peerJson source) (hnonce nonce)
    exact (within_frame _ hsource).mono (by omega)
  | pong nonce => exact (within_frame _ (hnonce nonce)).mono (by omega)
  | findNode lookup =>
    have htarget := Json.within_membersChars "target" 6 (by decide) (within_lookup lookup) hend
    exact (within_frame _ htarget).mono (by omega)
  | neighbors hnodes =>
    have hmember := Json.within_membersChars "nodes" 5 (by decide) (within_nodes hnodes) hend
    exact (within_frame _ hmember).mono (by omega)

theorem Modest.length_datagram (h : p.Modest) : p.datagram.length ≤ maxPacketSize := by
  have hwithin := h.within_chars
  rw [datagram, Utf8.length_encode hwithin.2]
  exact Nat.le_trans hwithin.1 (by decide)

end Packet

/-! ## What is sent -/

/-- A packet that some probe or some responder sends: the ping in the beginning, what a probe answers a
datagram or the end of a wait with, and what a responder answers a datagram with. -/
inductive Sent (p : Packet) : Prop where
  | begun {self target : PeerRef} {goal : Goal} {limit : Duration} {nonce : UInt64}
      (h : p ∈ (Probe.start self target goal limit nonce).sends)
  | heard {probe : Probe} {elapsed : Duration} {source : Endpoint} {bytes : List UInt8}
      {step : ProbeStep} (hstep : probe.receive? elapsed source bytes = some step)
      (h : p ∈ step.sends)
  | expired {probe : Probe} (h : p ∈ probe.expire.sends)
  | answered {r : Responder} {now : Nat} {source : Endpoint} {bytes : List UInt8}
      {reaction : Reaction} (hreaction : r.receive? now source bytes = some reaction)
      (h : reaction.reply = some p)

variable {p : Packet}

/-- A probe answers nothing but its pong, and that with its lookup. -/
theorem Probe.modest_of_receive? {probe : Probe} {a : Probe.Arrival} {elapsed : Duration}
    {step : ProbeStep} (hstep : probe.receive? elapsed a.source a.datagram = some step)
    (h : p ∈ step.sends) : p.Modest := by
  cases heeds_of_receive? hstep with
  | ignored => cases h
  | answer => cases h
  | pong =>
    unfold onPong at h
    split at h
    · cases h
    · obtain rfl := List.mem_singleton.mp h
      exact .findNode _

theorem Probe.sends_expire (probe : Probe) : probe.expire.sends = [] := by
  rw [expire]
  split <;> rfl

/-- A responder sends nothing but pongs and the first of its nodes. -/
theorem Responder.modest_of_receive? {r : Responder} {now : Nat} {source : Endpoint}
    {bytes : List UInt8} {reaction : Reaction} (hreaction : r.receive? now source bytes = some reaction)
    (h : reaction.reply = some p) : p.Modest := by
  rw [receive?] at hreaction
  split at hreaction
  · next packet _ =>
    cases hreaction
    cases packet with
    | ping sender nonce =>
      cases h
      exact .pong nonce
    | findNode target =>
      rw [handle] at h
      split at h
      · cases h
        exact .neighbors (List.length_take_le _ _)
      · cases h
    | pong | neighbors => cases h
  · cases hreaction
    cases h
  · cases hreaction

theorem Sent.modest (h : Sent p) : p.Modest := by
  cases h with
  | begun h =>
    obtain rfl := List.mem_singleton.mp h
    exact .ping _ _
  | @heard _ _ source bytes _ hstep h =>
    exact Probe.modest_of_receive? (a := ⟨0, source, bytes⟩) hstep h
  | expired h =>
    rw [Probe.sends_expire] at h
    cases h
  | answered hreaction h => exact Responder.modest_of_receive? hreaction h

theorem Responder.receive?_datagram (h : p.Modest) (r : Responder) (now : Nat) (source : Endpoint) :
    r.receive? now source p.datagram = some (r.handle now source p) := by
  rw [receive?, p.packet_datagram h.length_datagram]

theorem Probe.receive?_datagram (h : p.Modest) (probe : Probe) (elapsed : Duration) :
    probe.receive? elapsed probe.target.udpEndpoint p.datagram = some (probe.onPacket elapsed p) := by
  unfold receive?
  split
  · next hdone => simp [onPacket, hdone]
  · rw [if_neg fun hne => hne rfl, p.packet_datagram h.length_datagram]

/-- What becomes of a datagram at a receiver with room for the longest one: it is read as the packet it
was sent for, and responders and probes act on that packet. -/
structure ArrivesWhole (p : Packet) : Prop where
  fits : p.datagram.length ≤ maxPacketSize
  read : Responder.packet (p.datagram.take maxPacketSize) = .ok p
  responder : ∀ (r : Responder) (now : Nat) (source : Endpoint),
    r.receive? now source (p.datagram.take maxPacketSize) = some (r.handle now source p)
  probe : ∀ (probe : Probe) (elapsed : Duration),
    probe.receive? elapsed probe.target.udpEndpoint (p.datagram.take maxPacketSize) =
      some (probe.onPacket elapsed p)

/-- Whatever a probe or a responder sends arrives whole. -/
theorem Sent.arrivesWhole (h : Sent p) : ArrivesWhole p := by
  have hfits := h.modest.length_datagram
  have hwhole : p.datagram.take maxPacketSize = p.datagram := List.take_of_length_le hfits
  refine ⟨hfits, ?_, fun r now source => ?_, fun probe elapsed => ?_⟩
  · rw [hwhole, p.packet_datagram hfits]
  · rw [hwhole, Responder.receive?_datagram h.modest]
  · rw [hwhole, Probe.receive?_datagram h.modest]

/-- A peer with the longest record there is. -/
def longWinded : PeerRef := ⟨.replicate 64 0xff, .v6 ⟨List.replicate 8 0xffff, rfl⟩, 65535, 65534⟩

/-- The largest answer arrives whole: sixteen of the longest records, for a guest with a bond. -/
theorem Sent.arrivesWhole_longWinded : Sent (.neighbors (List.replicate 16 longWinded)) ∧
    ArrivesWhole (.neighbors (List.replicate 16 longWinded)) := by
  have hreaction := Responder.receive?_datagram (.findNode longWinded.id)
    ⟨List.replicate 20 longWinded, ⟨1, 1, [(longWinded.udpEndpoint, 0)]⟩⟩ 0 longWinded.udpEndpoint
  have hsent : Sent (.neighbors (List.replicate 16 longWinded)) := .answered hreaction rfl
  exact ⟨hsent, Sent.arrivesWhole hsent⟩

end Discovery

end PeerProbe
