import PeerProbe.Proofs.Bytes.Hex
import PeerProbe.PeerRef
import PeerProbe.Settings.Resolve

/-!
# Reading identities

An identity is 64 bytes, so its text is 128 digits. Both readers of identities compare the length
of the text with 128 and leave the digits to `Hex.read`, which passes over a marker in front. A
marked text of the right length therefore gets past the check with only 63 bytes behind it. Such a
text, `0x` or `0X` and 126 digits, is the one thing whose reading crashes, wherever it stands, and
whichever task reads it ends; everything else is an identity or is refused.

The settings strip every `0x` by themselves before they compare, so there only the other marker is
left to be passed over.
-/

namespace PeerProbe

/-! ## Parts of a text -/

namespace Text

variable {sep : Char} {p cs rest before behind : List Char}

/-- What stands behind a given beginning. -/
theorem after?_eq_some_iff : after? p cs = some rest ↔ cs = p ++ rest := by
  induction p generalizing cs with
  | nil => simp [after?]
  | cons c p ih =>
    cases cs with
    | nil => simp [after?]
    | cons d cs =>
      rw [after?]
      split
      next h => rw [ih, h, List.cons_append, List.cons.injEq, and_iff_right rfl]
      next h =>
        refine ⟨fun hn => (by cases hn), fun heq => absurd ?_ h⟩
        exact (List.cons.inj heq).1.symm

/-- A cut is at the first occurrence. -/
theorem cut?_eq_some_iff :
    cut? sep cs = some (before, behind) ↔ cs = before ++ sep :: behind ∧ sep ∉ before := by
  induction cs generalizing before with
  | nil => simp [cut?]
  | cons c cs ih =>
    rw [cut?]
    split
    next h =>
      cases before with
      | nil => simp [h]
      | cons d before => grind
    next h =>
      cases before with
      | nil => simp [h]
      | cons d before => simp [ih]; grind

/-- A text is not cut exactly if the separator is not in it. -/
theorem cut?_eq_none_iff : cut? sep cs = none ↔ sep ∉ cs := by
  constructor
  · intro hnone hmem
    obtain ⟨before, behind, hcs, hbefore⟩ := List.eq_append_cons_of_mem hmem
    rw [cut?_eq_some_iff.mpr ⟨hcs, hbefore⟩] at hnone
    contradiction
  · intro hnot
    cases hcut : cut? sep cs with
    | none => rfl
    | some r =>
      obtain ⟨hcs, -⟩ := cut?_eq_some_iff.mp hcut
      exact absurd (hcs ▸ List.mem_append_right _ List.mem_cons_self) hnot

end Text

/-! ## Records -/

namespace PeerRef

variable {cs : List Char} {s : String}

/-- Reading the part in front of the `@` crashes exactly if it is 126 marked digits. -/
theorem parseId_eq_crash_iff : parseId cs = .error .crash ↔ Hex.IsMarked 126 cs := by
  constructor
  · intro h
    rw [parseId] at h
    split at h
    · cases h
    next hlen =>
      split at h
      · cases h
      next bytes hread =>
        split at h
        · cases h
        next hnone =>
          exact Hex.exists_ofBytes?_eq_none_iff.mp ⟨Classical.not_not.mp hlen, bytes, hread, hnone⟩
  · intro h
    obtain ⟨hlen, bytes, hread, hnone⟩ := Hex.exists_ofBytes?_eq_none_iff.mpr h
    rw [parseId, if_neg (Classical.not_not.mpr hlen), hread]
    simp only [hnone]

/-- The part in front of the `@` is an identity exactly if it is 128 digits, and then it has their
bytes. -/
theorem parseId_eq_ok_iff {id : NodeId} :
    parseId cs = .ok id ↔ Hex.AreDigits 128 cs ∧ Hex.bytes? cs = some id.bytes := by
  constructor
  · intro h
    rw [parseId] at h
    split at h
    · cases h
    next hlen =>
      split at h
      · cases h
      next bytes hread =>
        split at h
        next id' hid =>
          cases h
          obtain rfl := Block.ofBytes?_eq_some_iff.mp hid
          obtain ⟨hdigits, -⟩ | ⟨-, hsize⟩ := Hex.read_cases 63 (Classical.not_not.mp hlen) hread
          · refine ⟨hdigits, ?_⟩
            rw [← Hex.read_eq_ok_iff.mp hread, Hex.stripMarker_of_areDigits hdigits]
          · exact absurd (id.length_eq.symm.trans hsize) (by decide)
        · cases h
  · rintro ⟨hdigits, hbytes⟩
    have hread : Hex.read cs none = .ok id.bytes :=
      Hex.read_eq_ok_iff.mpr (by rwa [Hex.stripMarker_of_areDigits hdigits])
    have hid : Block.ofBytes? 64 id.bytes = some id := Block.ofBytes?_eq_some_iff.mpr rfl
    rw [parseId, if_neg (Classical.not_not.mpr (Hex.utf8Length_of_areDigits hdigits)), hread]
    simp only [hid]

/-- The text of a record, blanks around it aside: what stands in front of the first `@`, and what
stands behind it. -/
def HasParts (s : String) (id location : List Char) : Prop :=
  Text.trim s.toList = scheme ++ (id ++ '@' :: location) ∧ '@' ∉ id

/-- A record whose identity is 126 marked digits, whatever stands behind it. -/
def IsMarked (s : String) : Prop :=
  ∃ id location, HasParts s id location ∧ Hex.IsMarked 126 id

/-- A text in parts is read part by part. -/
theorem parse_of_hasParts {id location : List Char} (h : HasParts s id location) :
    parse s = match parseId id with
      | .error e => .error e
      | .ok id =>
        match parseLocation location with
        | .error e => .error (.refused e)
        | .ok (e, udp) => .ok ⟨id, e.address, e.port, udp⟩ := by
  have hscheme := Text.after?_eq_some_iff.mpr h.1
  have hcut : Text.cut? '@' (id ++ '@' :: location) = some (id, location) :=
    Text.cut?_eq_some_iff.mpr ⟨rfl, h.2⟩
  cases hid : parseId id with
  | error e => simp only [parse, parseChars, hscheme, hcut, hid]
  | ok id' =>
    cases hlocation : parseLocation location with
    | error e => simp only [parse, parseChars, hscheme, hcut, hid, hlocation]
    | ok at' => simp only [parse, parseChars, hscheme, hcut, hid, hlocation]

/-- A text in which a part is missing is refused. -/
theorem exists_refused_of_not_hasParts (h : ∀ id location, ¬ HasParts s id location) :
    ∃ e, parse s = .error (.refused e) := by
  rw [parse, parseChars]
  split
  · exact ⟨_, rfl⟩
  next rest hscheme =>
    split
    · exact ⟨_, rfl⟩
    next id location hcut =>
      obtain ⟨hrest, hid⟩ := Text.cut?_eq_some_iff.mp hcut
      exact absurd ⟨hrest ▸ Text.after?_eq_some_iff.mp hscheme, hid⟩ (h id location)

/-- Reading a text as a record crashes exactly if its identity is 126 marked digits. -/
theorem parse_eq_crash_iff : parse s = .error .crash ↔ IsMarked s := by
  constructor
  · intro h
    by_cases hparts : ∃ id location, HasParts s id location
    · obtain ⟨id, location, hparts⟩ := hparts
      refine ⟨id, location, hparts, parseId_eq_crash_iff.mp ?_⟩
      rw [parse_of_hasParts hparts] at h
      split at h
      next e hid => rw [hid, Except.error.inj h]
      next => split at h <;> cases h
    · obtain ⟨e, he⟩ := exists_refused_of_not_hasParts fun id l h => hparts ⟨id, l, h⟩
      rw [he] at h
      cases h
  · rintro ⟨id, location, hparts, hmarked⟩
    rw [parse_of_hasParts hparts, parseId_eq_crash_iff.mpr hmarked]

/-- A record that is read has an identity of 128 digits, and the peer has their bytes. -/
theorem digits_of_parse {p : PeerRef} (h : parse s = .ok p) :
    ∃ id location, HasParts s id location ∧ Hex.AreDigits 128 id ∧
      Hex.bytes? id = some p.id.bytes := by
  by_cases hparts : ∃ id location, HasParts s id location
  · obtain ⟨id, location, hparts⟩ := hparts
    rw [parse_of_hasParts hparts] at h
    split at h
    · cases h
    next hid =>
      split at h
      · cases h
      · cases h
        exact ⟨id, location, hparts, parseId_eq_ok_iff.mp hid⟩
  · obtain ⟨e, he⟩ := exists_refused_of_not_hasParts fun id l h => hparts ⟨id, l, h⟩
    rw [he] at h
    cases h

end PeerRef

/-! ## The setting -/

namespace Settings

variable {cs : List Char}

/-- A text of the setting whose reading crashes: blanks around it aside, `0x` any number of times, and
then 126 digits marked by `0X`. -/
def IsMarked (text : String) : Prop :=
  ∃ k ds, Hex.AreDigits 126 ds ∧
    Text.trim text.toList = (List.replicate k ['0', 'x']).flatten ++ '0' :: 'X' :: ds

/-- What is left has no more `0x` in front. -/
theorem stripMarkers_ne (cs rest : List Char) : stripMarkers cs ≠ '0' :: 'x' :: rest := by
  fun_induction stripMarkers cs with
  | case1 cs ih => exact ih
  | case2 cs h => exact h rest

/-- What is stripped is `0x` a number of times. -/
theorem exists_stripMarkers (cs : List Char) :
    ∃ k, cs = (List.replicate k ['0', 'x']).flatten ++ stripMarkers cs := by
  fun_induction stripMarkers cs with
  | case1 cs ih =>
    obtain ⟨k, hk⟩ := ih
    exact ⟨k + 1, by rw [List.replicate_succ, List.flatten_cons, List.append_assoc, ← hk]; rfl⟩
  | case2 cs h => exact ⟨0, rfl⟩

/-- However often `0x` stands in front, all of it is stripped. -/
theorem stripMarkers_replicate (k : Nat) (cs : List Char) :
    stripMarkers ((List.replicate k ['0', 'x']).flatten ++ cs) = stripMarkers cs := by
  induction k with
  | zero => rfl
  | succ k ih =>
    rw [List.replicate_succ, List.flatten_cons, List.append_assoc]
    exact ih

/-- Reading a text as the setting crashes exactly if 126 digits behind `0X` are left of it. -/
theorem readNodeId_eq_crash_iff {text : String} :
    readNodeId text = .error .crash ↔ IsMarked text := by
  constructor
  · intro h
    rw [readNodeId] at h
    split at h
    · cases h
    next hlen =>
      split at h
      · cases h
      next bytes hread =>
        split at h
        · cases h
        next hnone =>
          obtain ⟨ds, hds, hcs | hcs⟩ := Hex.exists_ofBytes?_eq_none_iff.mp
            ⟨Classical.not_not.mp hlen, bytes, hread, hnone⟩
          · exact absurd hcs (stripMarkers_ne _ ds)
          · obtain ⟨k, hk⟩ := exists_stripMarkers (Text.trim text.toList)
            exact ⟨k, ds, hds, hcs ▸ hk⟩
  · rintro ⟨k, ds, hds, htext⟩
    have hcs : stripMarkers (Text.trim text.toList) = '0' :: 'X' :: ds := by
      rw [htext, stripMarkers_replicate]
      rfl
    obtain ⟨hlen, bytes, hread, hnone⟩ :=
      Hex.exists_ofBytes?_eq_none_iff.mpr ⟨ds, hds, .inr (rfl : '0' :: 'X' :: ds = _)⟩
    rw [readNodeId, hcs, if_neg (Classical.not_not.mpr hlen), hread]
    simp only [hnone]

/-- Reading the setting crashes exactly if it is set to such a text. -/
theorem identity_eq_crash_iff {s : Settings} :
    s.identity = .error .crash ↔ ∃ text, s.nodeId = some text ∧ IsMarked text := by
  rw [identity]
  cases s.nodeId with
  | none => simp
  | some text =>
    simp only [Option.some.injEq, exists_eq_left', ← readNodeId_eq_crash_iff]
    cases readNodeId text <;> simp [Except.map]

end Settings

end PeerProbe
