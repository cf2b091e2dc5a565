import PeerProbe.Proofs.PeerRef
import PeerProbe.Proofs.Text.Blank

/-!
# What a record must say

A record has an identity up to the first `@`, an endpoint up to the first `?` or the end, and a query
between `&`s. It names a peer exactly if every part is in order; otherwise it is refused for the first
one that is not. Of the query only the UDP ports count, in the order in which they are given: each has
to be a port, and the last one is taken.

Identities with a marker in front are left out, since reading such a record may crash.
-/

namespace PeerProbe.PeerRef

variable {s : String} {p : PeerRef} {id hostPort location v : List Char}
  {query before after : List (List Char)} {tcp udp : UInt16}

/-! ## Queries -/

/-- A text that can be read as a port. -/
def IsPort (cs : List Char) : Prop := (Text.unsigned? 65536 cs).isSome

instance (cs : List Char) : Decidable (IsPort cs) := inferInstanceAs (Decidable (_ = true))

/-- What a query gives as UDP ports, piece by piece: all that stands behind `discport=`. -/
def givenPorts (query : List (List Char)) : List (List Char) :=
  query.filterMap (Text.after? discPortKey)

/-- A query gives its last UDP port, and without any the TCP port stands for it. -/
def Gives (query : List (List Char)) (tcp udp : UInt16) : Prop :=
  match (givenPorts query).getLast? with
  | none => udp = tcp
  | some v => Text.unsigned? 65536 v = some udp.toNat

/-- A query gives one port. -/
theorem Gives.unique {udp' : UInt16} (h : Gives query tcp udp) (h' : Gives query tcp udp') :
    udp = udp' := by
  unfold Gives at h h'
  split at h
  next hnone => rw [hnone] at h'; exact h.trans h'.symm
  next v hsome =>
    rw [hsome] at h'
    exact UInt16.toNat_inj.mp (Option.some.inj (h.symm.trans h'))

/-- A piece that gives a port. -/
theorem givenPorts_cons_of_some {piece : List Char} (h : Text.after? discPortKey piece = some v) :
    givenPorts (piece :: query) = v :: givenPorts query :=
  List.filterMap_cons_some h

/-- A piece that gives none. -/
theorem givenPorts_cons_of_none {piece : List Char} (h : Text.after? discPortKey piece = none) :
    givenPorts (piece :: query) = givenPorts query :=
  List.filterMap_cons_none h

/-- A port that is read fits into its bits. -/
theorem toNat_ofNat_of_unsigned? {n : Nat} (h : Text.unsigned? 65536 v = some n) :
    (UInt16.ofNat n).toNat = n := by
  have hlt : n < 65536 := by
    obtain ⟨-, h⟩ := Option.ite_none_left_eq_some.mp h
    exact of_decide_eq_true (Option.filter_eq_some_iff.mp h).2
  exact UInt16.toNat_ofNat_of_lt' hlt

/-- Ports that can all be read give one. -/
theorem discPort_of_isPort (h : ∀ v ∈ givenPorts query, IsPort v) (tcp : UInt16) :
    ∃ udp, discPort tcp query = .ok udp ∧ Gives query tcp udp := by
  induction query generalizing tcp with
  | nil => exact ⟨tcp, rfl, rfl⟩
  | cons piece query ih =>
    cases hpiece : Text.after? discPortKey piece with
    | none =>
      rw [givenPorts_cons_of_none hpiece] at h
      obtain ⟨udp, hread, hgives⟩ := ih h tcp
      rw [discPort, hpiece]
      exact ⟨udp, hread, by rwa [Gives, givenPorts_cons_of_none hpiece]⟩
    | some v =>
      rw [givenPorts_cons_of_some hpiece, List.forall_mem_cons] at h
      obtain ⟨n, hn⟩ := Option.isSome_iff_exists.mp h.1
      obtain ⟨udp, hread, hgives⟩ := ih h.2 (UInt16.ofNat n)
      have hstep : discPort tcp (piece :: query) = discPort (UInt16.ofNat n) query := by
        simp only [discPort, hpiece, hn]
      refine ⟨udp, hstep.trans hread, ?_⟩
      rw [Gives, givenPorts_cons_of_some hpiece]
      unfold Gives at hgives
      -- The port of this piece is what the rest of the query falls back on.
      cases hrest : givenPorts query with
      | nil =>
        rw [hrest] at hgives
        have hudp : udp = UInt16.ofNat n := hgives
        rw [hudp]
        exact hn.trans (congrArg some (toNat_ofNat_of_unsigned? hn).symm)
      | cons w ws =>
        rw [hrest] at hgives
        rwa [List.getLast?_cons_cons]

/-- A query is refused for the first port that cannot be read. -/
theorem discPort_of_not_isPort (hquery : givenPorts query = before ++ v :: after)
    (hbefore : ∀ w ∈ before, IsPort w) (hv : ¬ IsPort v) :
    discPort tcp query = .error (.invalidDiscPort (String.ofList v)) := by
  induction query generalizing tcp before with
  | nil => simp [givenPorts] at hquery
  | cons piece query ih =>
    cases hpiece : Text.after? discPortKey piece with
    | none =>
      rw [givenPorts_cons_of_none hpiece] at hquery
      rw [discPort, hpiece]
      exact ih hquery hbefore
    | some w =>
      rw [givenPorts_cons_of_some hpiece] at hquery
      rw [discPort, hpiece]
      cases before with
      | nil =>
        obtain ⟨rfl, -⟩ := List.cons.inj hquery
        have hnone : Text.unsigned? 65536 w = none := Option.not_isSome_iff_eq_none.mp hv
        simp only [hnone]
      | cons w' before =>
        obtain ⟨rfl, hrest⟩ := List.cons.inj hquery
        obtain ⟨n, hn⟩ := Option.isSome_iff_exists.mp (hbefore w List.mem_cons_self)
        simp only [hn]
        exact ih hrest fun u hu => hbefore u (List.mem_cons_of_mem _ hu)

/-- Texts are all ports, or one of them is the first that is none. -/
theorem isPort_or_first (vs : List (List Char)) : (∀ v ∈ vs, IsPort v) ∨
    ∃ before v after, vs = before ++ v :: after ∧ (∀ w ∈ before, IsPort w) ∧ ¬ IsPort v := by
  by_cases h : ∀ v ∈ vs, IsPort v
  · exact .inl h
  · obtain ⟨v, hv⟩ := Option.isSome_iff_exists.mp
      (List.find?_isSome (p := fun v => !decide (IsPort v)) |>.mpr (by simpa using h))
    obtain ⟨hnot, before, after, hvs, hbefore⟩ := List.find?_eq_some_iff_append.mp hv
    exact .inr ⟨before, v, after, hvs, by simpa using hbefore, by simpa using hnot⟩

/-- Only the ports that are given matter. -/
theorem discPort_congr {query' : List (List Char)} (h : givenPorts query' = givenPorts query) :
    discPort tcp query' = discPort tcp query := by
  obtain hports | ⟨before, v, after, hquery, hbefore, hv⟩ := isPort_or_first (givenPorts query)
  · obtain ⟨udp, hread, hgives⟩ := discPort_of_isPort hports tcp
    obtain ⟨udp', hread', hgives'⟩ := discPort_of_isPort (h ▸ hports) tcp
    rw [Gives, h] at hgives'
    rw [hread, hread', hgives.unique hgives']
  · rw [discPort_of_not_isPort hquery hbefore hv,
      discPort_of_not_isPort (h.trans hquery) hbefore hv]

/-! ## Locations -/

/-- Behind the `@` stands an endpoint, up to the first `?` or the end, and behind the `?` the query,
with `&`s between its pieces. -/
def HasQuery (location hostPort : List Char) (query : List (List Char)) : Prop :=
  '?' ∉ hostPort ∧ (location = hostPort ∧ query = [] ∨
    ∃ text, location = hostPort ++ '?' :: text ∧ query = text.splitOn '&')

/-- Every location is split in this one way. -/
theorem hasQuery_iff : HasQuery location hostPort query ↔ splitQuery location = (hostPort, query) := by
  constructor
  · rintro ⟨hnot, ⟨rfl, rfl⟩ | ⟨text, rfl, rfl⟩⟩
    · rw [splitQuery, Text.cut?_eq_none_iff.mpr hnot]
    · rw [splitQuery, Text.cut?_eq_some_iff.mpr ⟨rfl, hnot⟩, ← Text.pieces_eq_splitOn]
  · intro h
    unfold splitQuery at h
    split at h
    next before text hcut =>
      obtain ⟨hlocation, hnot⟩ := Text.cut?_eq_some_iff.mp hcut
      obtain ⟨rfl, rfl⟩ := Prod.mk.inj h
      exact ⟨hnot, .inr ⟨text, hlocation, Text.pieces_eq_splitOn '&' text⟩⟩
    next hnone =>
      obtain ⟨rfl, rfl⟩ := Prod.mk.inj h
      exact ⟨Text.cut?_eq_none_iff.mp hnone, .inl ⟨rfl, rfl⟩⟩

/-- A location in parts is read part by part. -/
theorem parseLocation_of_hasQuery (h : HasQuery location hostPort query) :
    parseLocation location =
      if hostPort = [] then .error .missingAddress
      else match Endpoint.parse? hostPort with
        | none => .error (.invalidAddress (String.ofList hostPort))
        | some e => (discPort e.port query).map fun udp => (e, udp) := by
  rw [parseLocation, hasQuery_iff.mp h]
  cases hostPort <;> rfl

/-- No endpoint is written as nothing. -/
theorem ne_nil_of_parse? {e : Endpoint} (h : Endpoint.parse? hostPort = some e) : hostPort ≠ [] := by
  rintro rfl
  contradiction

/-! ## Records -/

/-- The parts of a text, blanks around it aside: what stands between the scheme and the first `@`, the
endpoint behind it, and the pieces of the query. -/
def Splits (s : String) (id hostPort : List Char) (query : List (List Char)) : Prop :=
  ∃ location, HasParts s id location ∧ HasQuery location hostPort query

/-- A text that names a peer: an identity of 128 digits, an endpoint, and a query whose ports can all
be read. -/
inductive Names (s : String) (p : PeerRef) : Prop where
  | intro {id hostPort : List Char} {query : List (List Char)} (hs : Splits s id hostPort query)
      (hid : Hex.AreDigits 128 id) (hbytes : Hex.bytes? id = some p.id.bytes)
      (haddress : Endpoint.parse? hostPort = some ⟨p.ip, p.tcp⟩)
      (hports : ∀ v ∈ givenPorts query, IsPort v) (hudp : Gives query p.tcp p.udp)

/-- The first condition that a text violates, in the order in which they are looked at. -/
inductive FirstViolated (s : String) : Error → Prop where
  | noScheme (hscheme : ¬ scheme <+: Text.trim s.toList) : FirstViolated s .missingScheme
  | noSeparator {rest : List Char} (hs : Text.trim s.toList = scheme ++ rest) (hat : '@' ∉ rest) :
      FirstViolated s .missingAddress
  | badIdentity {id hostPort : List Char} {query : List (List Char)} (hs : Splits s id hostPort query)
      (hid : ¬ Hex.AreDigits 128 id) : FirstViolated s .invalidId
  | noAddress {id : List Char} {query : List (List Char)} (hs : Splits s id [] query)
      (hid : Hex.AreDigits 128 id) : FirstViolated s .missingAddress
  | badAddress {id hostPort : List Char} {query : List (List Char)} (hs : Splits s id hostPort query)
      (hid : Hex.AreDigits 128 id) (hne : hostPort ≠ []) (haddress : Endpoint.parse? hostPort = none) :
      FirstViolated s (.invalidAddress (String.ofList hostPort))
  | badPort {id hostPort v : List Char} {query before after : List (List Char)} {e : Endpoint}
      (hs : Splits s id hostPort query) (hid : Hex.AreDigits 128 id)
      (haddress : Endpoint.parse? hostPort = some e) (hquery : givenPorts query = before ++ v :: after)
      (hbefore : ∀ w ∈ before, IsPort w) (hv : ¬ IsPort v) :
      FirstViolated s (.invalidDiscPort (String.ofList v))

/-- A text with all its parts, some violated condition, or a peer that is named: there is no fourth
kind of text. -/
theorem names_or_firstViolated (s : String) : (∃ p, Names s p) ∨ ∃ e, FirstViolated s e := by
  by_cases hscheme : scheme <+: Text.trim s.toList
  case neg => exact .inr ⟨_, .noScheme hscheme⟩
  obtain ⟨rest, hrest⟩ := hscheme
  by_cases hat : '@' ∈ rest
  case neg => exact .inr ⟨_, .noSeparator hrest.symm hat⟩
  obtain ⟨id, location, rfl, hnot⟩ := List.eq_append_cons_of_mem hat
  cases hsplit : splitQuery location with | mk hostPort query =>
  have hs : Splits s id hostPort query := ⟨location, ⟨hrest.symm, hnot⟩, hasQuery_iff.mpr hsplit⟩
  by_cases hid : Hex.AreDigits 128 id
  case neg => exact .inr ⟨_, .badIdentity hs hid⟩
  by_cases hne : hostPort = []
  · subst hne
    exact .inr ⟨_, .noAddress hs hid⟩
  cases haddress : Endpoint.parse? hostPort with
  | none => exact .inr ⟨_, .badAddress hs hid hne haddress⟩
  | some e =>
    obtain hports | ⟨before, v, after, hquery, hbefore, hv⟩ := isPort_or_first (givenPorts query)
    · obtain ⟨bytes, hbytes, hlength⟩ := Hex.exists_bytes? (n := 64) hid
      obtain ⟨udp, -, hudp⟩ := discPort_of_isPort hports e.port
      exact .inl ⟨⟨⟨bytes, hlength⟩, e.address, e.port, udp⟩,
        .intro hs hid hbytes haddress hports hudp⟩
    · exact .inr ⟨_, .badPort hs hid haddress hquery hbefore hv⟩

/-- An identity of 128 digits is read, and the location behind it decides. -/
theorem parse_of_areDigits (hs : HasParts s id location) (hid : Hex.AreDigits 128 id) :
    ∃ id' : NodeId, Hex.bytes? id = some id'.bytes ∧
      parse s = match parseLocation location with
        | .error e => .error (.refused e)
        | .ok (e, udp) => .ok ⟨id', e.address, e.port, udp⟩ := by
  obtain ⟨bytes, hbytes, hlength⟩ := Hex.exists_bytes? (n := 64) hid
  have hread : parseId id = .ok ⟨bytes, hlength⟩ := parseId_eq_ok_iff.mpr ⟨hid, hbytes⟩
  refine ⟨⟨bytes, hlength⟩, hbytes, ?_⟩
  rcases hlocation : parseLocation location with e | ⟨e, udp⟩ <;>
    simp only [parse_of_hasParts hs, hread, hlocation]

/-- What is neither 128 digits nor marked is no identity. -/
theorem parseId_eq_invalidId (hdigits : ¬ Hex.AreDigits 128 id) (hmarked : ¬ Hex.IsMarked 126 id) :
    parseId id = .error (.refused .invalidId) := by
  cases hread : parseId id with
  | ok id' => exact absurd (parseId_eq_ok_iff.mp hread).1 hdigits
  | error e =>
    cases e with
    | crash => exact absurd (parseId_eq_crash_iff.mp hread) hmarked
    | refused e =>
      unfold parseId at hread
      split at hread
      · exact hread.symm
      split at hread
      · exact hread.symm
      · split at hread <;> cases hread

/-- A text is read as the peer that it names. -/
theorem Names.parse_eq (h : Names s p) : parse s = .ok p := by
  obtain ⟨hsplits, hid, hbytes, haddress, hports, hudp⟩ := h
  obtain ⟨location, hparts, hquery⟩ := hsplits
  obtain ⟨id', hbytes', hparse⟩ := parse_of_areDigits hparts hid
  obtain ⟨udp, hread, hgives⟩ := discPort_of_isPort hports p.tcp
  have hsame : id' = p.id := Block.ext_bytes (Option.some.inj (hbytes'.symm.trans hbytes))
  have hlocation : parseLocation location = .ok (⟨p.ip, p.tcp⟩, p.udp) := by
    rw [parseLocation_of_hasQuery hquery, if_neg (ne_nil_of_parse? haddress), haddress]
    simp only [hread, Except.map, hgives.unique hudp]
  rw [hparse, hlocation, hsame]

/-- A text is refused for the first condition that it violates. -/
theorem FirstViolated.parse_eq {e : Error} (h : FirstViolated s e) (hs : ¬ IsMarked s) :
    parse s = .error (.refused e) := by
  cases h with
  | noScheme hscheme =>
    have hnone : Text.after? scheme (Text.trim s.toList) = none := by
      cases hafter : Text.after? scheme (Text.trim s.toList) with
      | none => rfl
      | some rest => exact absurd ⟨rest, (Text.after?_eq_some_iff.mp hafter).symm⟩ hscheme
    simp only [parse, parseChars, hnone]
  | noSeparator hrest hat =>
    simp only [parse, parseChars, Text.after?_eq_some_iff.mpr hrest, Text.cut?_eq_none_iff.mpr hat]
  | badIdentity hsplits hid =>
    obtain ⟨location, hparts, -⟩ := hsplits
    have hmarked : ¬ Hex.IsMarked 126 _ := fun hmarked => hs ⟨_, location, hparts, hmarked⟩
    rw [parse_of_hasParts hparts, parseId_eq_invalidId hid hmarked]
  | noAddress hsplits hid =>
    obtain ⟨location, hparts, hquery⟩ := hsplits
    obtain ⟨id', -, hparse⟩ := parse_of_areDigits hparts hid
    rw [hparse, parseLocation_of_hasQuery hquery, if_pos rfl]
  | badAddress hsplits hid hne haddress =>
    obtain ⟨location, hparts, hquery⟩ := hsplits
    obtain ⟨id', -, hparse⟩ := parse_of_areDigits hparts hid
    rw [hparse, parseLocation_of_hasQuery hquery, if_neg hne, haddress]
  | badPort hsplits hid haddress hports hbefore hv =>
    obtain ⟨location, hparts, hquery⟩ := hsplits
    obtain ⟨id', -, hparse⟩ := parse_of_areDigits hparts hid
    rw [hparse, parseLocation_of_hasQuery hquery, if_neg (ne_nil_of_parse? haddress), haddress]
    simp only [discPort_of_not_isPort hports hbefore hv, Except.map]

/-- How a text is read as a record. -/
structure ReadByParts (s : String) : Prop where
  /-- It is read as a peer exactly if it names that peer. -/
  accepted : ∀ p, parse s = .ok p ↔ Names s p
  /-- It is refused exactly for the first condition that it violates. -/
  refused : ∀ e, parse s = .error (.refused e) ↔ FirstViolated s e
  /-- There is always a verdict. -/
  settled : parse s ≠ .error .crash
  /-- Pieces of the query that give no port change nothing, wherever and however often they stand. -/
  others : ∀ s' id hostPort query query', Splits s id hostPort query → Splits s' id hostPort query' →
    givenPorts query' = givenPorts query → parse s' = parse s

/-- The location decides only by its endpoint and the ports that its query gives. -/
theorem parse_congr {s' : String} {query' : List (List Char)} (hs : Splits s id hostPort query)
    (hs' : Splits s' id hostPort query') (hports : givenPorts query' = givenPorts query) :
    parse s' = parse s := by
  obtain ⟨location, hparts, hquery⟩ := hs
  obtain ⟨location', hparts', hquery'⟩ := hs'
  have hlocation : parseLocation location' = parseLocation location := by
    simp only [parseLocation_of_hasQuery hquery, parseLocation_of_hasQuery hquery',
      discPort_congr hports]
  rw [parse_of_hasParts hparts, parse_of_hasParts hparts', hlocation]

/-- A record whose identity has no marker in front is read by its parts. -/
theorem read_by_parts (s : String) (hunmarked : ∀ id location, HasParts s id location →
    ¬ ['0', 'x'] <+: id ∧ ¬ ['0', 'X'] <+: id) : ReadByParts s := by
  have hs : ¬ IsMarked s := by
    rintro ⟨id, location, hparts, ds, -, rfl | rfl⟩
    · exact (hunmarked _ location hparts).1 ⟨ds, rfl⟩
    · exact (hunmarked _ location hparts).2 ⟨ds, rfl⟩
  refine ⟨fun p => ⟨fun h => ?_, Names.parse_eq⟩, fun e => ⟨fun h => ?_, fun h => h.parse_eq hs⟩,
    mt parse_eq_crash_iff.mp hs, fun _ _ _ _ _ => parse_congr⟩
  · obtain ⟨q, hq⟩ | ⟨e, he⟩ := names_or_firstViolated s
    · obtain rfl := Except.ok.inj (h.symm.trans hq.parse_eq)
      exact hq
    · exact absurd (h.symm.trans (he.parse_eq hs)) nofun
  · obtain ⟨q, hq⟩ | ⟨e', he'⟩ := names_or_firstViolated s
    · exact absurd (h.symm.trans hq.parse_eq) nofun
    · have heq := Except.error.inj (h.symm.trans (he'.parse_eq hs))
      exact Fault.refused.inj heq ▸ he'

/-- The parts of a text are found by cutting it. -/
theorem cut?_of_hasParts (h : HasParts s id location) :
    (Text.after? scheme (Text.trim s.toList)).bind (Text.cut? '@') = some (id, location) := by
  rw [Text.after?_eq_some_iff.mpr h.1]
  exact Text.cut?_eq_some_iff.mpr ⟨rfl, h.2⟩

/-- A record with blanks around it, digits of either case, and two ports among other pieces. -/
def twoPorts : String :=
  "\t enode://" ++ String.ofList (List.replicate 64 ['a', 'B']).flatten ++
    "@[::1]:30303?v=@&discport=+7&discport=0080&discport ?\n"

theorem read_by_parts_twoPorts :
    (∀ id location, HasParts twoPorts id location →
      ¬ ['0', 'x'] <+: id ∧ ¬ ['0', 'X'] <+: id) ∧ ReadByParts twoPorts ∧
      (parse twoPorts).toOption = some ⟨.replicate 64 0xab, .v6 .loopback, 30303, 80⟩ := by
  have hunmarked : ∀ id location, HasParts twoPorts id location →
      ¬ ['0', 'x'] <+: id ∧ ¬ ['0', 'X'] <+: id := by
    intro id location hparts
    have hfront : ((Text.after? scheme (Text.trim twoPorts.toList)).bind (Text.cut? '@')).map
        (·.1.take 2) = some ['a', 'B'] := by
      decide +kernel
    rw [cut?_of_hasParts hparts, Option.map_some, Option.some.injEq] at hfront
    constructor <;>
    · intro hmarker
      have hmarked := (List.prefix_iff_eq_take.mp hmarker).trans hfront
      contradiction
  exact ⟨hunmarked, read_by_parts twoPorts hunmarked, by decide +kernel⟩

end PeerProbe.PeerRef
