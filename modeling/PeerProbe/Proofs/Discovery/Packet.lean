import PeerProbe.Discovery.Probe
import PeerProbe.Proofs.PeerRef

/-!
# Packets that end the task that reads them

A packet names peers in two places: the sender of a ping, and the nodes of an answer. Each is read
as a record, so reading a packet crashes only where one of its texts does, and such a text in the
place of the sender always does: the sender is read first. What stands behind the packet in its
datagram cannot prevent it, since the packet is read before that.
-/

namespace PeerProbe

namespace Json

/-- A text stands somewhere in a tree. -/
inductive Tree.Holds (s : String) : Tree → Prop where
  | here : Tree.Holds s (.string (some s))
  | item {t : Tree} {items : List Tree} (hmem : t ∈ items) (h : Tree.Holds s t) :
      Tree.Holds s (.array items)
  | member {t : Tree} {key : Option String} {members : List (Option String × Tree)}
      (hmem : (key, t) ∈ members) (h : Tree.Holds s t) : Tree.Holds s (.object members)

end Json

namespace Discovery

open Json (Tree)

/-- A tree that holds a text whose reading crashes. -/
def IsFatal (t : Tree) : Prop := ∃ s, PeerRef.IsMarked s ∧ t.Holds s

/-- A fatal item makes an array fatal. -/
theorem IsFatal.array {t : Tree} {items : List Tree} (h : IsFatal t) (hmem : t ∈ items) :
    IsFatal (.array items) := by
  obtain ⟨s, hs, h⟩ := h
  exact ⟨s, hs, .item hmem h⟩

/-- A fatal member makes an object fatal. -/
theorem IsFatal.object {t : Tree} {key : Option String} {members : List (Option String × Tree)}
    (h : IsFatal t) (hmem : (key, t) ∈ members) : IsFatal (.object members) := by
  obtain ⟨s, hs, h⟩ := h
  exact ⟨s, hs, .member hmem h⟩

namespace Packet

variable {t : Tree} {names : List String} {kind name : String}

/-- Reading a peer of a packet crashes exactly if it is such a text. -/
theorem peer_eq_crash_iff :
    peer t = .error .crash ↔ ∃ s, t = .string (some s) ∧ PeerRef.IsMarked s := by
  rw [peer]
  cases t with
  | string s =>
    cases s with
    | none => simp [Tree.text?]
    | some s =>
      simp only [Tree.text?, Tree.string.injEq, Option.some.injEq, exists_eq_left',
        ← PeerRef.parse_eq_crash_iff]
      cases PeerRef.parse s with
      | ok p => simp
      | error e => cases e <;> simp
  | _ => simp [Tree.text?]

theorem isFatal_of_peer (h : peer t = .error .crash) : IsFatal t := by
  obtain ⟨s, rfl, hs⟩ := peer_eq_crash_iff.mp h
  exact ⟨s, hs, .here⟩

/-- Reading a list of peers crashes at one of them. -/
theorem exists_peer_of_peers : ∀ {items : List Tree}, peers items = .error .crash →
    ∃ t ∈ items, peer t = .error .crash
  | [], h => by cases h
  | t :: rest, h => by
    rw [peers] at h
    split at h
    next e ht => exact ⟨t, List.mem_cons_self, ht.trans (congrArg _ (Except.error.inj h))⟩
    next p hp =>
      have hrest : peers rest = .error .crash := by
        cases hrest : peers rest with
        | ok ps => rw [hrest] at h; cases h
        | error e => rw [hrest] at h; exact congrArg _ (Except.error.inj h)
      obtain ⟨u, hu, hcrash⟩ := exists_peer_of_peers hrest
      exact ⟨u, List.mem_cons_of_mem _ hu, hcrash⟩

theorem isFatal_of_peerList (h : peerList t = .error .crash) : IsFatal t := by
  cases t with
  | array items =>
    obtain ⟨u, hu, hcrash⟩ := exists_peer_of_peers h
    exact (isFatal_of_peer hcrash).array hu
  | _ => cases h

/-- Setting a field crashes only where reading what it is set to does. -/
theorem eq_crash_of_setOnce {α : Type} {old : Option α} {new : Except Fault α} {put : α → Fields}
    (h : setOnce old new put = .error .crash) : new = .error .crash := by
  rw [setOnce] at h
  split at h
  · cases h
  · cases new with
    | ok a => cases h
    | error e => exact congrArg _ (Except.error.inj h)

theorem isFatal_of_setField {f : Fields} (h : setField f name t = .error .crash) : IsFatal t := by
  unfold setField at h
  split at h
  · exact isFatal_of_peer (eq_crash_of_setOnce h)
  · have hword := eq_crash_of_setOnce h
    rw [word] at hword
    split at hword <;> cases hword
  · have htext := eq_crash_of_setOnce h
    rw [text] at htext
    split at htext <;> cases htext
  · exact isFatal_of_peerList (eq_crash_of_setOnce h)
  · cases h

/-- Reading fields crashes at one of them. -/
theorem exists_isFatal_of_setFields : ∀ {fields : List (String × Tree)} {f : Fields},
    setFields names f fields = .error .crash → ∃ name t, (name, t) ∈ fields ∧ IsFatal t
  | [], _, h => by cases h
  | (name, t) :: rest, f, h => by
    rw [setFields] at h
    split at h
    · split at h
      next e hfield =>
        exact ⟨name, t, List.mem_cons_self,
          isFatal_of_setField (hfield.trans (congrArg _ (Except.error.inj h)))⟩
      next f' hfield =>
        obtain ⟨name', t', hmem, ht⟩ := exists_isFatal_of_setFields h
        exact ⟨name', t', List.mem_cons_of_mem _ hmem, ht⟩
    · obtain ⟨name', t', hmem, ht⟩ := exists_isFatal_of_setFields h
      exact ⟨name', t', List.mem_cons_of_mem _ hmem, ht⟩

theorem exists_isFatal_of_assemble {fields : List String → List (String × Tree)}
    (h : assemble kind fields = .error .crash) :
    ∃ names name t, (name, t) ∈ fields names ∧ IsFatal t := by
  rw [assemble] at h
  split at h
  · cases h
  next names hnames =>
    split at h
    next e hset =>
      obtain ⟨name, t, hmem, ht⟩ :=
        exists_isFatal_of_setFields (hset.trans (congrArg _ (Except.error.inj h)))
      exact ⟨names, name, t, hmem, ht⟩
    · split at h <;> cases h

/-- The readable members of an object are members of it. -/
theorem mem_of_readable? : ∀ {members : List (Option String × Tree)}
    {readable : List (String × Tree)}, readable? members = some readable →
      ∀ m ∈ readable, (some m.1, m.2) ∈ members
  | [], _, h, m, hm => by cases h; cases hm
  | (k, u) :: rest, readable, h, m, hm => by
    simp only [readable?, Option.bind_eq_bind, Option.bind_eq_some_iff, Option.some.injEq] at h
    obtain ⟨key, rfl, later, hlater, rfl⟩ := h
    obtain rfl | hm := List.mem_cons.mp hm
    · exact List.mem_cons_self
    · exact List.mem_cons_of_mem _ (mem_of_readable? hlater m hm)

theorem isFatal_of_assemble_zip {first : Tree} {items : List Tree}
    (h : assemble kind (fun names => names.zip items) = .error .crash) :
    IsFatal (.array (first :: items)) := by
  obtain ⟨names, name, t, hmem, ht⟩ := exists_isFatal_of_assemble h
  exact ht.array (List.mem_cons_of_mem _ (List.of_mem_zip hmem).2)

/-- Reading a packet crashes only if reading one of its texts does. -/
theorem isFatal_of_ofTree (h : ofTree t = .error .crash) : IsFatal t := by
  unfold ofTree at h
  split at h
  · cases h
  · split at h
    next members =>
      split at h
      · cases h
      next readable hreadable =>
        split at h
        · obtain ⟨names, name, t, hmem, ht⟩ := exists_isFatal_of_assemble h
          exact ht.object (mem_of_readable? hreadable _ (List.mem_filter.mp hmem).1)
        · cases h
    next first items =>
      split at h
      next names hnames =>
        split at h
        · split at h
          next hcrash => exact isFatal_of_assemble_zip hcrash
          next => cases h
        · exact isFatal_of_assemble_zip h
      · cases h
    · cases h

/-- Reading a ping crashes as soon as reading its sender does, whatever number comes behind it. -/
theorem ofTree_ping_eq_crash {s : String} {nonce : Json.Numeral} (hs : PeerRef.IsMarked s)
    (hnonce : nonce.value?.isSome) :
    ofTree (.object [(some "type", .string (some "ping")), (some "from", .string (some s)),
      (some "nonce", .number nonce)]) = .error .crash := by
  have hpeer : peer (.string (some s)) = .error .crash := peer_eq_crash_iff.mpr ⟨s, rfl, hs⟩
  obtain ⟨v, hv⟩ := Option.isSome_iff_exists.mp hnonce
  have hfields : setFields ["from", "nonce"] {}
      [("from", .string (some s)), ("nonce", .number nonce)] = .error .crash := by
    simp [setFields, setField, setOnce, hpeer, Except.map]
  simp [ofTree, Tree.value?, Json.memberValues?, hv, readable?, assemble, fieldNames, hfields,
    Json.maxDepth]

variable {α : Type} {read : Tree → Except Fault α} {cs rest : List Char} {behind : List UInt8}

/-- A text with only blanks behind its value is read as its value is. -/
theorem readWhole_of_readValue {a : α}
    (hvalue : Json.readValue (2 * cs.length + 2) cs = some (t, rest))
    (hrest : Json.skipSpace rest = []) (hread : read t = .ok a) : readWhole read cs [] = .ok a := by
  rw [readWhole, hvalue]
  simp only [hread, hrest]
  rfl

/-- A reader crashes exactly if it does on the value that the text begins with; nothing behind the
value is looked at before. -/
theorem readWhole_eq_crash_iff :
    readWhole read cs behind = .error .crash ↔
      ∃ t rest, Json.readValue (2 * cs.length + 2) cs = some (t, rest) ∧
        read t = .error .crash := by
  rw [readWhole]
  split
  next hvalue => simp [hvalue]
  next t rest hvalue =>
    simp only [hvalue, Option.some.injEq, Prod.mk.injEq]
    split
    next e hread =>
      rw [← hread]
      exact ⟨fun h => ⟨t, rest, ⟨rfl, rfl⟩, h⟩, fun ⟨_, _, ⟨ht, _⟩, h⟩ => ht ▸ h⟩
    next a hread =>
      constructor
      · intro h
        split at h <;> cases h
      · rintro ⟨_, _, ⟨rfl, rfl⟩, h⟩
        cases hread.symm.trans h

end Packet

/-- Reading one peer crashes exactly if reading its record does, whatever follows it in the text. -/
theorem peerOfJson_eq_crash_iff {cs : List Char} :
    peerOfJson cs = .error .crash ↔ ∃ s rest, PeerRef.IsMarked s ∧
      Json.readValue (2 * cs.length + 2) cs = some (.string (some s), rest) := by
  rw [peerOfJson, Packet.readWhole_eq_crash_iff]
  constructor
  · rintro ⟨t, rest, hvalue, hpeer⟩
    obtain ⟨s, rfl, hs⟩ := Packet.peer_eq_crash_iff.mp hpeer
    exact ⟨s, rest, hs, hvalue⟩
  · rintro ⟨s, rest, hs, hvalue⟩
    exact ⟨_, rest, hvalue, Packet.peer_eq_crash_iff.mpr ⟨s, rfl, hs⟩⟩

/-- A datagram that begins with a packet whose reading crashes, be it followed by what it may. Of its
bytes only so many are looked at, and of these only what is text. -/
def IsFatalDatagram (datagram : List UInt8) : Prop :=
  let text := (Utf8.front (datagram.take maxPacketSize)).1
  ∃ t rest, Json.readValue (2 * text.length + 2) text = some (t, rest) ∧
    Packet.ofTree t = .error .crash

theorem packet_eq_crash_iff {datagram : List UInt8} :
    Responder.packet datagram = .error .crash ↔ IsFatalDatagram datagram :=
  Packet.readWhole_eq_crash_iff

/-- A responder ends on exactly such a datagram, from wherever it comes. -/
theorem Responder.receive?_eq_none_iff {r : Responder} {now : Nat} {source : Endpoint}
    {datagram : List UInt8} :
    r.receive? now source datagram = none ↔ IsFatalDatagram datagram := by
  rw [← packet_eq_crash_iff, receive?]
  split
  next hread => simp [hread]
  next hread => simp [hread]
  next hread => simp [hread]

/-- A probe ends on exactly such a datagram too, provided it waits for one and it comes from its
target. -/
theorem Probe.receive?_eq_none_iff {p : Probe} {elapsed : Duration} {source : Endpoint}
    {datagram : List UInt8} :
    p.receive? elapsed source datagram = none ↔
      (∀ result, p.phase ≠ .done result) ∧ source = p.target.udpEndpoint ∧
        IsFatalDatagram datagram := by
  rw [← packet_eq_crash_iff, receive?]
  split
  next result hdone => simp [hdone]
  next hwaits =>
    have hwaits : ∀ result, p.phase ≠ .done result := hwaits
    split
    next hsource => simp [hsource]
    next hsource =>
      rw [Decidable.not_not] at hsource
      split
      next hread => simp [hread]
      next hread => simp [hread]
      next hread => simp [hread, hwaits, hsource]

end Discovery

end PeerProbe
