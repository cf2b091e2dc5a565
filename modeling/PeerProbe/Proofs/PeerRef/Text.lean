import PeerProbe.Proofs.Discovery.Packet
import PeerProbe.Proofs.Json.Strings
import PeerProbe.Proofs.Net.Addresses
import PeerProbe.Proofs.PeerRef
import PeerProbe.Proofs.Text.Blank

/-!
# Records as they are written

A record is cut at its first `@` and behind it at the first `?`. Neither character stands in what is
printed in front of it: an identity is digits, and an endpoint is digits, dots, colons and brackets. So
each part is handed to the reader of what it was printed from. The UDP port is left out exactly if it is
the port that a reader takes without a query.

A record begins with a letter and ends with a digit, so blanks around it are trimmed and nothing else.
-/

namespace PeerProbe

namespace Text

theorem isBlank_digitChar {d : Nat} (hd : d < 10) : isBlank (Nat.digitChar d) = false := by
  have hall : ∀ d < 10, isBlank (Nat.digitChar d) = false := by decide
  exact hall d hd

/-- A number ends with a character that is not blank. -/
theorem exists_last_decimal (n : Nat) :
    ∃ front last, decimal n = front ++ [last] ∧ isBlank last = false := by
  rw [decimal, Nat.toDigits_eq_if (by decide)]
  split
  · next hsmall => exact ⟨[], _, rfl, isBlank_digitChar hsmall⟩
  · exact ⟨_, _, rfl, isBlank_digitChar (Nat.mod_lt n (by decide))⟩

end Text

/-! ## Characters of an endpoint -/

theorem not_mem_decimal {n : Nat} {c : Char} (hc : Text.digit? 10 c = none) : c ∉ Text.decimal n :=
  Text.not_mem_toDigits (by decide) (by decide) hc

theorem IPv4.query_not_mem (x : IPv4) : '?' ∉ x.chars := by
  simp [IPv4.chars, not_mem_decimal (rfl : Text.digit? 10 '?' = none)]

theorem IPv6.query_not_mem_joined (gs : List UInt16) : '?' ∉ IPv6.joined gs := by
  have hgroup (g : UInt16) : '?' ∉ Text.hexadecimal g.toNat :=
    Text.not_mem_toDigits (by decide) (by decide) rfl
  cases gs with
  | nil => exact List.not_mem_nil
  | cons g gs => simp [AddressReader.joined_cons, AddressReader.spelled, hgroup]

theorem IPv6.query_not_mem (x : IPv6) : '?' ∉ x.chars := by
  unfold IPv6.chars
  split
  · next v4 _ => simp [v4.query_not_mem]
  · dsimp only
    split <;> simp [query_not_mem_joined]

theorem Endpoint.query_not_mem (e : Endpoint) : '?' ∉ e.chars := by
  have hport : '?' ∉ Text.decimal e.port.toNat := not_mem_decimal rfl
  unfold Endpoint.chars
  split
  · next x _ => simp [x.query_not_mem, hport]
  · next x _ => simp [x.query_not_mem, hport]

/-- An endpoint ends with its port. -/
theorem Endpoint.exists_chars (e : Endpoint) :
    ∃ front, e.chars = front ++ Text.decimal e.port.toNat ∧ front ≠ [] := by
  unfold Endpoint.chars
  split
  · next x _ => exact ⟨x.chars ++ [':'], by simp, by simp⟩
  · next x _ => exact ⟨'[' :: (x.chars ++ [']', ':']), by simp, by simp⟩

/-! ## Records -/

namespace PeerRef

/-- What is printed behind the `@`. -/
def location (p : PeerRef) : List Char :=
  p.tcpEndpoint.chars ++ if p.udp = p.tcp then [] else '?' :: (discPortKey ++ Text.decimal p.udp.toNat)

theorem chars_eq (p : PeerRef) : p.chars = scheme ++ (Hex.digits p.id.bytes ++ '@' :: p.location) := by
  rw [chars, location, List.append_assoc]

/-- A record ends with a port. -/
theorem exists_location (p : PeerRef) : ∃ front n, p.location = front ++ Text.decimal n := by
  obtain ⟨front, hchars, -⟩ := p.tcpEndpoint.exists_chars
  unfold location
  split
  · exact ⟨front, p.tcpEndpoint.port.toNat, by rw [hchars, List.append_nil]⟩
  · exact ⟨p.tcpEndpoint.chars ++ '?' :: discPortKey, p.udp.toNat, by simp⟩

/-- Blanks around a record are trimmed, and nothing else. -/
theorem trim_chars (p : PeerRef) {before behind : List Char} (hbefore : ∀ c ∈ before, Text.isBlank c)
    (hbehind : ∀ c ∈ behind, Text.isBlank c) : Text.trim (before ++ (p.chars ++ behind)) = p.chars := by
  obtain ⟨front, n, hlocation⟩ := p.exists_location
  obtain ⟨digits, last, hdecimal, hlast⟩ := Text.exists_last_decimal n
  have hchars : p.chars = 'e' ::
      (scheme.tail ++ (Hex.digits p.id.bytes ++ '@' :: (front ++ digits)) ++ [last]) := by
    rw [chars_eq, hlocation, hdecimal]
    simp [scheme]
  rw [hchars]
  exact Text.trim_append hbefore hbehind rfl hlast

theorem parseId_digits (id : NodeId) : parseId (Hex.digits id.bytes) = .ok id := by
  have hbytes := Hex.bytes?_digits id.bytes
  have hdigits := Hex.areDigits_of_bytes? hbytes
  rw [id.length_eq] at hdigits
  exact parseId_eq_ok_iff.mpr ⟨hdigits, hbytes⟩

theorem at_not_mem_digits (id : NodeId) : '@' ∉ Hex.digits id.bytes := fun hmem => by
  have hdigit := (Hex.areDigits_of_bytes? (Hex.bytes?_digits id.bytes)).2 '@' hmem
  contradiction

/-- The endpoint and the UDP port are read as they were written. -/
theorem parseLocation_location (p : PeerRef) :
    parseLocation p.location = .ok (p.tcpEndpoint, p.udp) := by
  have hquery := p.tcpEndpoint.query_not_mem
  have hparse := p.tcpEndpoint.parse?_chars
  have hempty : p.tcpEndpoint.chars.isEmpty = false := by
    obtain ⟨front, hchars, hfront⟩ := p.tcpEndpoint.exists_chars
    simp [hchars, hfront]
  unfold location
  split
  · next hsame =>
    rw [List.append_nil, parseLocation, splitQuery, Text.cut?_eq_none_iff.mpr hquery]
    have hport : p.tcpEndpoint.port = p.udp := hsame.symm
    simp [hempty, hparse, discPort, Except.map, hport]
  · have hcut := Text.cut?_eq_some_iff.mpr
      ⟨(rfl : p.tcpEndpoint.chars ++ '?' :: (discPortKey ++ Text.decimal p.udp.toNat) = _), hquery⟩
    have hpiece : '&' ∉ discPortKey ++ Text.decimal p.udp.toNat := by
      simp [discPortKey, not_mem_decimal (rfl : Text.digit? 10 '&' = none)]
    have hvalue : Text.after? discPortKey (discPortKey ++ Text.decimal p.udp.toNat) =
        some (Text.decimal p.udp.toNat) := Text.after?_eq_some_iff.mpr rfl
    have hudp : Text.unsigned? 65536 (Text.decimal p.udp.toNat) = some p.udp.toNat :=
      Text.unsigned?_decimal p.udp.toNat_lt
    rw [parseLocation, splitQuery, hcut]
    simp [hempty, hparse, Text.pieces_of_not_mem hpiece, discPort, hvalue, hudp, Except.map]

/-- How a record is read: with blanks around it or in a document, it is the peer that it was printed
for. -/
structure Legible (p : PeerRef) : Prop where
  /-- The text as it was printed. -/
  text : parse p.text = .ok p
  /-- The text with blanks around it. -/
  padded : ∀ before behind : String, (∀ c ∈ before.toList, Text.isBlank c) →
    (∀ c ∈ behind.toList, Text.isBlank c) → parse (before ++ p.text ++ behind) = .ok p
  /-- The JSON string of the text, with blanks around it. -/
  json : ∀ before behind : List Char, (∀ c ∈ before, Json.isSpace c) →
    (∀ c ∈ behind, Json.isSpace c) →
      Discovery.peerOfJson (before ++ ((Discovery.Packet.peerJson p).chars ++ behind)) = .ok p
  /-- No other peer has the text. -/
  distinct : ∀ q : PeerRef, q.text = p.text → q = p

theorem parse_padded (p : PeerRef) {before behind : String}
    (hbefore : ∀ c ∈ before.toList, Text.isBlank c) (hbehind : ∀ c ∈ behind.toList, Text.isBlank c) :
    parse (before ++ p.text ++ behind) = .ok p := by
  have hparts : HasParts (before ++ p.text ++ behind) (Hex.digits p.id.bytes) p.location := by
    refine ⟨?_, at_not_mem_digits p.id⟩
    rw [String.toList_append, String.toList_append, text, String.toList_ofList, List.append_assoc,
      p.trim_chars hbefore hbehind, chars_eq]
  rw [parse_of_hasParts hparts, parseId_digits, parseLocation_location]
  rfl

theorem parse_text (p : PeerRef) : parse p.text = .ok p := by
  have hparse : parse ("" ++ p.text ++ "") = .ok p := p.parse_padded (by simp) (by simp)
  simpa using hparse

theorem peerOfJson_peerJson (p : PeerRef) {before behind : List Char}
    (hbefore : ∀ c ∈ before, Json.isSpace c) (hbehind : ∀ c ∈ behind, Json.isSpace c) :
    Discovery.peerOfJson (before ++ ((Discovery.Packet.peerJson p).chars ++ behind)) = .ok p := by
  have hread := Json.readValue_string hbefore p.text behind
  have hrest : Json.skipSpace behind = [] := by
    have hall : Json.skipSpace (behind ++ []) = [] := List.dropWhile_append_of_pos hbehind
    rwa [List.append_nil] at hall
  have hpeer : Discovery.Packet.peer (.string (some p.text)) = .ok p := by
    simp [Discovery.Packet.peer, Json.Tree.text?, parse_text]
  exact Discovery.Packet.readWhole_of_readValue (hread _) hrest hpeer

/-- Every record is read as the peer that it was printed for. -/
theorem legible (p : PeerRef) : Legible p where
  text := p.parse_text
  padded _ _ := p.parse_padded
  json _ _ := p.peerOfJson_peerJson
  distinct q heq := by
    have hq := q.parse_text
    rw [heq, p.parse_text] at hq
    exact (Except.ok.inj hq).symm

end PeerRef

end PeerProbe
