import PeerProbe.Control.Dispatch
import PeerProbe.Proofs.Discovery.Packet
import PeerProbe.Proofs.Node.Frame

/-!
# What ends the task that reads it

Records reach the program as arguments of calls, in requests to the control port, in datagrams and
in documents. Wherever one is read, the reading crashes exactly on the records whose identity is
marked, and it takes the task that reads with it: a call, the responder, a probe. Nothing else that
such a task reads can end it. The first two characters of such an identity are counted as digits when
its length is compared and not as bytes when it is cut to size.
-/

namespace PeerProbe

/-! ## Requests -/

namespace Json

variable {names : List String} {s : String}

/-- The fields of an object are among its members. -/
theorem mem_of_namedFields? : ∀ {members : List (Option String × Tree)}
    {fields : List (Option Tree)}, namedFields? names members = some fields →
      ∀ t, some t ∈ fields → ∃ key, (key, t) ∈ members
  | [], fields, h, t, ht => by
    cases h
    simp at ht
  | (key, u) :: rest, fields, h, t, ht => by
    simp only [namedFields?, Option.bind_eq_bind, Option.bind_eq_some_iff] at h
    obtain ⟨key', rfl, later, hlater, h⟩ := h
    have hrest (ht : some t ∈ later) : ∃ key, (key, t) ∈ (some key', u) :: rest := by
      obtain ⟨k, hk⟩ := mem_of_namedFields? hlater t ht
      exact ⟨k, List.mem_cons_of_mem _ hk⟩
    split at h
    · cases h
      exact hrest ht
    · split at h
      · cases h
      · cases h
        obtain ht | ht := List.mem_or_eq_of_mem_set ht
        · exact hrest ht
        · cases ht
          exact ⟨_, List.mem_cons_self⟩

/-- A text in a field of a record is a text of the record. -/
theorem Tree.holds_of_fields? {t u : Tree} {fields : List (Option Tree)}
    (h : t.fields? names = some fields) (hu : some u ∈ fields) (hs : u.Holds s) : t.Holds s := by
  cases t with
  | object members =>
    obtain ⟨key, hmem⟩ := mem_of_namedFields? h u hu
    exact .member hmem hs
  | array items =>
    rw [fields?] at h
    split at h
    · cases h
    · cases h
      obtain hmem | hmem := List.mem_append.mp hu
      · exact .item (by simpa using hmem) hs
      · cases (List.mem_replicate.mp hmem).2
  | _ => cases h

/-- A text that must be there is held. -/
theorem Tree.holds_of_requiredField? {t : Option Tree}
    (h : requiredField? Tree.text? t = some s) : ∃ u, t = some u ∧ u.Holds s := by
  obtain ⟨u, rfl, hu⟩ := Option.bind_eq_some_iff.mp h
  cases u with
  | string text =>
    cases hu
    exact ⟨_, rfl, .here⟩
  | _ => cases hu

end Json

/-- The record that a call has yet to read. -/
def Call.record? : Call → Option String
  | .addPeer enode _ => some enode
  | .removePeer enode => some enode
  | _ => none

namespace Control

open Json (Tree)

theorem holds_of_addPeer {t : Tree} {p : AddPeer} (h : AddPeer.ofTree? t = some p) :
    t.Holds p.enode := by
  simp only [AddPeer.ofTree?, Option.bind_eq_bind, Option.bind_eq_some_iff] at h
  obtain ⟨fields, hfields, h⟩ := h
  split at h
  next enode timeout =>
    simp only [Option.bind_eq_some_iff, Option.some.injEq] at h
    obtain ⟨text, htext, timeout', -, rfl⟩ := h
    obtain ⟨u, rfl, hu⟩ := Tree.holds_of_requiredField? htext
    exact Tree.holds_of_fields? hfields List.mem_cons_self hu
  next => cases h

theorem holds_of_removePeer {t : Tree} {p : RemovePeer} (h : RemovePeer.ofTree? t = some p) :
    t.Holds p.enode := by
  simp only [RemovePeer.ofTree?, Option.bind_eq_bind, Option.bind_eq_some_iff] at h
  obtain ⟨fields, hfields, h⟩ := h
  split at h
  next enode =>
    simp only [Option.bind_eq_some_iff, Option.some.injEq] at h
    obtain ⟨text, htext, rfl⟩ := h
    obtain ⟨u, rfl, hu⟩ := Tree.holds_of_requiredField? htext
    exact Tree.holds_of_fields? hfields List.mem_cons_self hu
  next => cases h

/-- The record that a line has a call read is a text in the parameters of its request. -/
theorem holds_of_dispatch {line : List Char} {id : UInt64} {o : Order} {s : String}
    (h : dispatch line = .call id o) (hs : o.call.record? = some s) :
    ∃ r, Request.ofChars? line = some r ∧ r.params.tree.Holds s := by
  rw [dispatch] at h
  split at h
  · cases h
  next r hr =>
    refine ⟨r, hr, ?_⟩
    rw [dispatchRequest] at h
    split at h
    · cases h
      cases hs
    split at h
    · cases h
      cases hs
    split at h
    · split at h
      next p hp =>
        cases h
        cases hs
        exact holds_of_addPeer hp
      · cases h
    split at h
    · split at h
      next p hp =>
        cases h
        cases hs
        exact holds_of_removePeer hp
      · cases h
    · cases h

end Control

/-! ## Calls -/

namespace Node

variable {σ : Type} [Transport σ] {allowed : Act σ → Prop} {first n n' : Node σ} {i : Nat}
  {c c' : Call}

/-- A step of a call leaves no record to read, and the call crashes exactly if the record it reads is
marked. -/
theorem exists_record?_of_callStep? (h : n.callStep? i c = some n') :
    ∃ c', n'.calls = n.calls.set i c' ∧ c'.record? = none ∧
      (c' = .crashed ↔ ∃ s, c.record? = some s ∧ PeerRef.IsMarked s) := by
  cases callStepped_of_callStep? h with
  | @addRead enode timeout peer hread | @removed enode peer hread =>
    refine ⟨_, rfl, rfl, ?_⟩
    simp [Call.record?, ← PeerRef.parse_eq_crash_iff, hread]
  | @addRefused enode timeout e hread | @removeRefused enode e hread =>
    refine ⟨_, rfl, rfl, ?_⟩
    simp [Call.record?, ← PeerRef.parse_eq_crash_iff, hread]
  | @addCrashed enode timeout hread | @removeCrashed enode hread =>
    refine ⟨_, rfl, rfl, ?_⟩
    simp [Call.record?, ← PeerRef.parse_eq_crash_iff, hread]
  | @joined purpose => cases purpose <;> exact ⟨_, rfl, rfl, by simp [Call.record?]⟩
  | @subscribed purpose slot peer timeout =>
    cases purpose <;> exact ⟨_, rfl, rfl, by simp [Call.record?]⟩
  | _ => exact ⟨_, rfl, rfl, by simp [Call.record?]⟩

/-- A call with a record to read can always take its step. -/
theorem exists_callStep?_of_record? {s : String} (h : c.record? = some s) :
    ∃ n', n.callStep? i c = some n' := by
  cases c with
  | addPeer | removePeer => exact ⟨_, rfl⟩
  | _ => cases h

/-- Where a call came from that has a record to read, or that has crashed: from an order with that
record, or from one with a marked record. -/
def FromOrder (allowed : Act σ → Prop) (c : Call) : Prop :=
  (∀ s, c.record? = some s → ∃ o, allowed (.order o) ∧ o.call.record? = some s) ∧
    (c = .crashed → ∃ o s, allowed (.order o) ∧ o.call.record? = some s ∧ PeerRef.IsMarked s)

/-- What is said of calls is kept by whatever happens. -/
theorem fromOrder_of_happens (h : Happens allowed n n')
    (hn : ∀ (i : Nat) (c : Call), n.calls[i]? = some c → FromOrder allowed c) :
    ∀ (i : Nat) (c : Call), n'.calls[i]? = some c → FromOrder allowed c := by
  intro i c' hc'
  obtain ⟨c, hc, rfl | hstep⟩ | ⟨o, ho, rfl⟩ := call_origin h hc'
  · exact hn i c' hc
  · obtain ⟨d, hcalls, hnone, hcrash⟩ := exists_record?_of_callStep? hstep
    obtain rfl := eq_of_calls_set hcalls hc'
    refine ⟨fun s hs => ?_, fun heq => ?_⟩
    · rw [hnone] at hs
      cases hs
    · obtain ⟨s, hs, hmarked⟩ := hcrash.mp heq
      obtain ⟨o, ho, hrecord⟩ := (hn i c hc).1 s hs
      exact ⟨o, s, ho, hrecord, hmarked⟩
  · exact ⟨fun s hs => ⟨o, ho, hs⟩, fun heq => by cases o <;> cases heq⟩

theorem fromOrder_of_reachable (hfirst : first.calls = []) (h : Reachable allowed first n) :
    ∀ (i : Nat) (c : Call), n.calls[i]? = some c → FromOrder allowed c := by
  induction h with
  | first =>
    intro i c hc
    rw [hfirst] at hc
    cases hc
  | next _ hstep ih => exact fromOrder_of_happens hstep ih

end Node

/-! ## Everything that reads records -/

open Json (Tree)

variable {σ : Type} [Transport σ] (settings : Settings) (responder : Discovery.Responder)
  (allowed : Node.Act σ → Prop) (first : Node σ)

/-- When reading crashes in a program with these settings, this responder and a node that begins in
`first`, for all that it reads: records, the setting of the own identity, documents, packets,
datagrams at the responder and at a probe, lines of the control port and the arguments of calls. -/
structure OnlyMarkedCrash : Prop where
  record (s : String) : PeerRef.parse s = .error .crash ↔ PeerRef.IsMarked s
  digits (s : String) (p : PeerRef) : PeerRef.parse s = .ok p →
    ∃ id location, PeerRef.HasParts s id location ∧ Hex.AreDigits 128 id ∧
      Hex.bytes? id = some p.id.bytes
  setting :
    settings.identity = .error .crash ↔
      ∃ text, settings.nodeId = some text ∧ Settings.IsMarked text
  document (cs : List Char) :
    Discovery.peerOfJson cs = .error .crash ↔ ∃ s rest, PeerRef.IsMarked s ∧
      Json.readValue (2 * cs.length + 2) cs = some (.string (some s), rest)
  packet (t : Tree) :
    Discovery.Packet.ofTree t = .error .crash → ∃ s, t.Holds s ∧ PeerRef.IsMarked s
  datagram (now : Nat) (source : Endpoint) (bytes : List UInt8) :
    responder.receive? now source bytes = none ↔ Discovery.IsFatalDatagram bytes
  probed (probe : Discovery.Probe) (elapsed : Duration) (source : Endpoint) (bytes : List UInt8) :
    probe.receive? elapsed source bytes = none ↔
      (∀ result, probe.phase ≠ .done result) ∧ source = probe.target.udpEndpoint ∧
        Discovery.IsFatalDatagram bytes
  ping (s : String) (nonce : Json.Numeral) : PeerRef.IsMarked s → nonce.value?.isSome →
    Discovery.Packet.ofTree (.object [(some "type", .string (some "ping")),
      (some "from", .string (some s)), (some "nonce", .number nonce)]) = .error .crash
  line (line : List Char) (id : UInt64) (o : Order) (s : String) :
    Control.dispatch line = .call id o → o.call.record? = some s →
      ∃ r, Control.Request.ofChars? line = some r ∧ r.params.tree.Holds s
  call (n : Node σ) (i : Nat) (c : Call) (s : String) :
    n.calls[i]? = some c → c.record? = some s →
      ∃ n', n.step? (.call i) = some n' ∧
        (n'.calls[i]? = some .crashed ↔ PeerRef.IsMarked s)
  run (n : Node σ) (i : Nat) :
    first.calls = [] → Node.Reachable allowed first n → n.calls[i]? = some .crashed →
      ∃ o s, allowed (.order o) ∧ o.call.record? = some s ∧ PeerRef.IsMarked s

/-- Reading crashes on the records with a marked identity and on nothing else. -/
theorem onlyMarkedCrash : OnlyMarkedCrash settings responder allowed first where
  record _ := PeerRef.parse_eq_crash_iff
  digits _ _ := PeerRef.digits_of_parse
  setting := Settings.identity_eq_crash_iff
  document _ := Discovery.peerOfJson_eq_crash_iff
  packet _ h := by
    obtain ⟨s, hs, hholds⟩ := Discovery.Packet.isFatal_of_ofTree h
    exact ⟨s, hholds, hs⟩
  datagram _ _ _ := Discovery.Responder.receive?_eq_none_iff
  probed _ _ _ _ := Discovery.Probe.receive?_eq_none_iff
  ping _ _ hs hnonce := Discovery.Packet.ofTree_ping_eq_crash hs hnonce
  line _ _ _ _ h hs := Control.holds_of_dispatch h hs
  call n i c s hc hs := by
    obtain ⟨n', hstep⟩ := Node.exists_callStep?_of_record? (n := n) (i := i) hs
    refine ⟨n', (congrArg (·.bind (n.callStep? i)) hc).trans hstep, ?_⟩
    obtain ⟨c', hcalls, -, hcrash⟩ := Node.exists_record?_of_callStep? hstep
    rw [hcalls, List.getElem?_set_self (List.getElem?_eq_some_iff.mp hc).1, Option.some.injEq,
      hcrash]
    simp [hs]
  run _ i hfirst h hc := (Node.fromOrder_of_reachable hfirst h i _ hc).2 rfl

/-- A record whose identity is 126 digits behind a marker. -/
def markedRecord : String :=
  "enode://0x" ++ String.ofList (List.replicate 126 '1') ++ "@127.0.0.1:30303"

/-- Not every text is a record or refused. -/
theorem not_read_markedRecord :
    ¬ ∀ s, (∃ p, PeerRef.parse s = .ok p) ∨ ∃ e, PeerRef.parse s = .error (.refused e) := by
  intro h
  have hparts : PeerRef.HasParts markedRecord ('0' :: 'x' :: List.replicate 126 '1')
      "127.0.0.1:30303".toList := ⟨by decide +kernel, by decide⟩
  have hcrash : PeerRef.parse markedRecord = .error .crash :=
    PeerRef.parse_eq_crash_iff.mpr
      ⟨_, _, hparts, _, Hex.areDigits_replicate (by decide), .inl rfl⟩
  obtain ⟨p, hp⟩ | ⟨e, he⟩ := h markedRecord
  · rw [hcrash] at hp
    cases hp
  · rw [hcrash] at he
    cases he

end PeerProbe
