import PeerProbe.Proofs.Eth.Canonical
import PeerProbe.Proofs.Eth.Exchange

/-!
# The verdict on the first thing that comes

An exchange takes one item off its connection and comes to a verdict on it. A status is accepted in
its one written form only. The checks in front of the reading overlap, so their order shows: an empty
frame is empty whatever its code, and a frame with another code is refused for that before its size is
looked at. On frames with the code of a status the verdict is that of decoding any message.
-/

namespace PeerProbe.Eth

/-! ## Statuses have one written form, and it is short -/

section Lengths

variable {bytes : List UInt8} {n count : Nat}

theorem length_number_le (h : n < 256 ^ count) (hcount : count < 56) :
    (Rlp.ofNat n).length ≤ count + 1 := by
  have hwidth : (BigEndian.shortest n).length ≤ count := by
    rwa [BigEndian.length_shortest, BigEndian.width_le_iff]
  exact (Rlp.length_ofString_le (by omega)).trans (by omega)

/-- The written form of a status is far below every limit of the item format. -/
theorem length_status_lt (s : Status) : (rlpBytes s).length < Rlp.sizeLimit := by
  have hversion : (Rlp.Item.write s.protocolVersion).length ≤ 5 :=
    length_number_le s.protocolVersion.toNat_lt (by omega)
  have hnetwork : (Rlp.Item.write s.networkId).length ≤ 9 :=
    length_number_le s.networkId.toNat_lt (by omega)
  have hdifficulty : (Rlp.Item.write s.totalDifficulty).length ≤ 33 :=
    length_number_le s.totalDifficulty.isLt (by omega)
  have hblock (b : Hash) : (Rlp.Item.write b).length ≤ 33 := by
    have hlength := b.length_eq
    exact (Rlp.length_ofString_le (by omega)).trans (by omega)
  have hcurrent := hblock s.currentBlock
  have hgenesis := hblock s.genesisBlock
  refine (Rlp.length_ofItems_le ?_).trans_lt ?_
  all_goals simp only [List.length_append, Rlp.sizeLimit]; omega

end Lengths

/-- A payload is accepted as a status exactly if it is written as that status. -/
theorem decodeExact_status_iff {code : UInt64} {payload : List UInt8} {s : Status} :
    decodeExact Rlp.Item.read code payload = .ok s ↔ payload = rlpBytes s := by
  constructor
  · intro h
    exact ((canonical_of_exact Rlp.ExactItem.exact).written h).symm
  · rintro rfl
    exact decodeExact_of_exact Rlp.ExactItem.exact code (length_status_lt s)

/-- An item is a frame that carries a status: it is not empty, has the code of a status and a size
within the limit, and its payload is the status as it is written. -/
def Carries (max : UInt32) (item : Except TransportError Frame) (s : Status) : Prop :=
  ∃ f, item = .ok f ∧ f.isEmpty = false ∧ f.code = Code.status ∧ f.size ≤ max ∧
    f.payload = rlpBytes s

variable {max : UInt32} {item : Except TransportError Frame} {f : Frame} {s mine theirs : Status}
  {policy : Policy}

/-- The status of an item is the one that it carries. -/
theorem readStatus_eq_ok_iff : readStatus max item = .ok s ↔ Carries max item s := by
  constructor
  · intro h
    obtain ⟨f, rfl, hcode, hdecode⟩ := readStatus_eq_ok h
    unfold readStatus at h
    dsimp only at h
    split at h
    · contradiction
    next hempty =>
      split at h
      · contradiction
      · split at h
        · contradiction
        next hsize =>
          exact ⟨f, rfl, by simpa using hempty, hcode, UInt32.not_lt.mp hsize,
            decodeExact_status_iff.mp hdecode⟩
  · rintro ⟨f, rfl, hempty, hcode, hsize, hpayload⟩
    unfold readStatus
    dsimp only
    rw [if_neg (by simp [hempty]), if_neg (not_not_intro hcode), if_neg (UInt32.not_lt.mpr hsize),
      decodeExact_status_iff.mpr hpayload]

/-- An item carries one status at most. -/
theorem Carries.unique (h : Carries max item s) (h' : Carries max item theirs) : theirs = s := by
  rw [← readStatus_eq_ok_iff] at h h'
  exact Except.ok.inj (h'.symm.trans h)

/-- On a frame with the code of a status, decoding any message comes to the same. -/
theorem decodeMessage_of_code (max : UInt32) (hcode : f.code = Code.status) :
    (decodeMessage f max).mapError .protocol = (readStatus max (.ok f)).map .status := by
  unfold decodeMessage readStatus
  dsimp only
  split
  · rfl
  · rw [if_neg (not_not_intro hcode)]
    split
    · rfl
    · rw [Payload.ofCode, if_pos hcode]
      cases decodeExact (Rlp.Item.read : Rlp.Reader Status) f.code f.payload <;> rfl

/-- Decoding any message finds the status that is read. -/
theorem decodeMessage_of_readStatus (hcode : f.code = Code.status)
    (h : readStatus max (.ok f) = .ok s) : decodeMessage f max = .ok (.status s) := by
  have hsame := decodeMessage_of_code max hcode
  rw [h] at hsame
  cases hdecode : decodeMessage f max with
  | error e => rw [hdecode] at hsame; contradiction
  | ok p => rw [hdecode] at hsame; exact congrArg _ (Except.ok.inj hsame)

/-- Decoding any message fails where the reading fails, and for the same reason. -/
theorem decodeMessage_of_not_read {e : ExchangeError} (hcode : f.code = Code.status)
    (h : readStatus max (.ok f) = .error e) :
    ∃ e', decodeMessage f max = .error e' ∧ e = .protocol e' := by
  have hsame := decodeMessage_of_code max hcode
  rw [h] at hsame
  cases hdecode : decodeMessage f max with
  | error e' => rw [hdecode] at hsame; exact ⟨e', rfl, (Except.error.inj hsame).symm⟩
  | ok p => rw [hdecode] at hsame; contradiction

/-! ## What a policy makes of a status -/

/-- A policy admits a remote status: it is not strict, or the two agree in what is compared. -/
def Policy.Admits (policy : Policy) (mine theirs : Status) : Prop :=
  policy ≠ .strict ∨ theirs.protocolVersion = mine.protocolVersion ∧
    theirs.networkId = mine.networkId ∧ theirs.genesisBlock = mine.genesisBlock

/-- What is admitted is reported. -/
theorem judge_of_admits (h : policy.Admits mine theirs) :
    ∃ report, judge policy mine theirs = .ok report ∧ report.remote = theirs := by
  cases policy with
  | off | annotate => exact ⟨_, rfl, rfl⟩
  | strict =>
    obtain hne | hagree := h
    · exact absurd rfl hne
    · refine ⟨⟨theirs, []⟩, ?_, rfl⟩
      rw [judge, validate_eq_nil_iff.mpr hagree]

/-- What is not admitted is refused for the first disagreement. -/
theorem judge_of_not_admits (h : ¬policy.Admits mine theirs) :
    ∃ first rest, validate mine theirs = first :: rest ∧
      judge policy mine theirs = .error (.protocol first) := by
  obtain ⟨hstrict, hdiffer⟩ := not_or.mp h
  obtain rfl := Decidable.of_not_not hstrict
  cases hvalid : validate mine theirs with
  | nil => exact absurd (validate_eq_nil_iff.mp hvalid) hdiffer
  | cons first rest => exact ⟨first, rest, rfl, by rw [judge, hvalid]⟩

/-! ## The verdict -/

/-- What an exchange makes of the first item: a report of the status that it carries and the policy
admits, and for everything else the error of the first check that fails. -/
structure Verdict (cfg : ExchangeConfig) (mine : Status) (item : Except TransportError Frame)
    (result : Except ExchangeError ExchangeReport) : Prop where
  /-- It succeeds for a status that the policy admits, and for nothing else. -/
  succeeds : (∃ report, result = .ok report) ↔
    ∃ s, Carries cfg.maxMessage item s ∧ cfg.policy.Admits mine s
  /-- The report is about the one status that came. -/
  reports : ∀ report, result = .ok report →
    ∀ s, Carries cfg.maxMessage item s ↔ s = report.remote
  hungUp : ∀ e, item = .error e → e.isEof = true → result = .error (.protocol (.nonConformant none))
  failed : ∀ e, item = .error e → e.isEof = false → result = .error (.transport e)
  empty : ∀ f, item = .ok f → f.isEmpty = true →
    result = .error (.protocol (.nonConformant (some f.code)))
  otherCode : ∀ f, item = .ok f → f.isEmpty = false → f.code ≠ Code.status →
    result = .error (.protocol (.unexpectedCode f.code Code.status))
  /-- A frame with the code of a status is classified like any other message. -/
  classified : ∀ f, item = .ok f → f.code = Code.status →
    (∃ e, decodeMessage f cfg.maxMessage = .error e ∧ result = .error (.protocol e)) ∨
      ∃ s, decodeMessage f cfg.maxMessage = .ok (.status s) ∧ Carries cfg.maxMessage item s ∧
        (cfg.policy.Admits mine s ∨ ∃ first rest, validate mine s = first :: rest ∧
          result = .error (.protocol first))

/-- The status read from the first item, judged by the policy, is its verdict. -/
theorem verdict_of_readStatus (cfg : ExchangeConfig) (mine : Status)
    (item : Except TransportError Frame) :
    Verdict cfg mine item ((readStatus cfg.maxMessage item).bind (judge cfg.policy mine)) where
  succeeds := by
    constructor
    · rintro ⟨report, hresult⟩
      cases hread : readStatus cfg.maxMessage item with
      | error e => rw [hread] at hresult; contradiction
      | ok s =>
        rw [hread] at hresult
        refine ⟨s, readStatus_eq_ok_iff.mp hread, ?_⟩
        by_contra hnot
        obtain ⟨first, rest, -, hjudge⟩ := judge_of_not_admits hnot
        cases hresult.symm.trans hjudge
    · rintro ⟨s, hcarries, hadmits⟩
      obtain ⟨report, hjudge, -⟩ := judge_of_admits hadmits
      refine ⟨report, ?_⟩
      rw [readStatus_eq_ok_iff.mpr hcarries]
      exact hjudge
  reports report hresult := by
    cases hread : readStatus cfg.maxMessage item with
    | error e => rw [hread] at hresult; contradiction
    | ok s =>
      rw [hread] at hresult
      obtain ⟨rfl, -⟩ := judge_eq_ok hresult
      have hcarries := readStatus_eq_ok_iff.mp hread
      exact fun theirs => ⟨hcarries.unique, fun h => h ▸ hcarries⟩
  hungUp := by
    rintro e rfl heof
    rw [readStatus, if_pos heof]
    rfl
  failed := by
    rintro e rfl heof
    rw [readStatus, if_neg (by simp [heof])]
    rfl
  empty := by
    rintro f rfl hempty
    rw [readStatus, if_pos hempty]
    rfl
  otherCode := by
    rintro f rfl hempty hcode
    rw [readStatus, if_neg (by simp [hempty]), if_pos hcode]
    rfl
  classified := by
    rintro f rfl hcode
    cases hread : readStatus cfg.maxMessage (.ok f) with
    | error e =>
      obtain ⟨e', hdecode, rfl⟩ := decodeMessage_of_not_read hcode hread
      exact .inl ⟨e', hdecode, rfl⟩
    | ok s =>
      refine .inr ⟨s, decodeMessage_of_readStatus hcode hread, readStatus_eq_ok_iff.mp hread, ?_⟩
      exact (Classical.em _).imp_right fun hnot => judge_of_not_admits hnot

/-! ## One item is taken -/

/-- How the legs of an exchange come to an end in which sending does not fail and no timer fires: the
items that the receive leg takes on the way, and what they come to. -/
inductive Legs.Ends (max : UInt32) :
    Legs → List (Except TransportError Frame) → Except ExchangeError Status → Prop where
  | finished {l : Legs} {s : Status} (hdone : l.finished? = some s) : Ends max l [] (.ok s)
  | sends {l : Legs} {items : List (Except TransportError Frame)}
      {outcome : Except ExchangeError Status} (hunsent : l.sent = false)
      (h : Ends max { l with sent := true } items outcome) : Ends max l items outcome
  | takes {l l' : Legs} {items : List (Except TransportError Frame)}
      {outcome : Except ExchangeError Status} (item : Except TransportError Frame)
      (hwaits : l.received = none) (hitem : l.onItem max item = .ok l')
      (h : Ends max l' items outcome) : Ends max l (item :: items) outcome
  | refuses {l : Legs} {e : ExchangeError} (item : Except TransportError Frame)
      (hwaits : l.received = none) (hitem : l.onItem max item = .error e) :
      Ends max l [item] (.error e)

/-- Legs that wait for an item take one and come to its status; legs that have one take no more. -/
theorem Legs.Ends.one {l : Legs} {items : List (Except TransportError Frame)}
    {outcome : Except ExchangeError Status} (h : l.Ends max items outcome) :
    (l.received = none → ∃ item, items = [item] ∧ outcome = readStatus max item) ∧
      ∀ s, l.received = some s → items = [] ∧ outcome = .ok s := by
  induction h with
  | @finished l s hdone =>
    obtain ⟨-, hreceived⟩ := Option.ite_none_right_eq_some.mp hdone
    refine ⟨fun hnone => ?_, fun s' hs' => ?_⟩
    · cases hreceived.symm.trans hnone
    · obtain rfl := Option.some.inj (hreceived.symm.trans hs')
      exact ⟨rfl, rfl⟩
  | sends _ _ ih => exact ih
  | takes item hwaits hitem _ ih =>
    refine ⟨fun _ => ⟨item, ?_⟩, fun s hs => by cases hs.symm.trans hwaits⟩
    unfold Legs.onItem at hitem
    cases hread : readStatus max item with
    | error e => rw [hread] at hitem; cases hitem
    | ok s =>
      rw [hread] at hitem
      obtain rfl := Except.ok.inj hitem
      obtain ⟨rfl, rfl⟩ := ih.2 s rfl
      exact ⟨rfl, rfl⟩
  | refuses item hwaits hitem =>
    refine ⟨fun _ => ⟨item, rfl, ?_⟩, fun s hs => by cases hs.symm.trans hwaits⟩
    unfold Legs.onItem at hitem
    cases hread : readStatus max item with
    | error e =>
      rw [hread] at hitem
      obtain rfl := Except.error.inj hitem
      rfl
    | ok s => rw [hread] at hitem; cases hitem

/-- The legs of an exchange take one item, and it is concluded with the verdict on it. -/
theorem Legs.Ends.verdict {items : List (Except TransportError Frame)}
    {outcome : Except ExchangeError Status} {cfg : ExchangeConfig}
    (h : Legs.start.Ends cfg.maxMessage items outcome) (peer : String) (mine : Status) :
    ∃ item, items = [item] ∧ Verdict cfg mine item (concludeExchange peer cfg mine outcome).1 := by
  obtain ⟨item, rfl, rfl⟩ := h.one.1 rfl
  have hverdict := verdict_of_readStatus cfg mine item
  refine ⟨item, rfl, ?_⟩
  cases hread : readStatus cfg.maxMessage item <;> rwa [hread] at hverdict

end PeerProbe.Eth
