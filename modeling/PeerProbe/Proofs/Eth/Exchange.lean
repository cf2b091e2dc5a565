import PeerProbe.Eth.Exchange

/-!
# What an exchange of statuses establishes

A status is read from a frame with its own code only. A policy that is content with it reports it
unchanged, with the mismatches if these are to be noted; the strict policy is content with no mismatch
at all.
-/

namespace PeerProbe.Eth

/-- A status is read from a frame with the code of a status. -/
theorem readStatus_eq_ok {max : UInt32} {item : Except TransportError Frame} {theirs : Status}
    (h : readStatus max item = .ok theirs) :
    ∃ f, item = .ok f ∧ f.code = Code.status ∧
      decodeExact Rlp.Item.read f.code f.payload = .ok theirs := by
  unfold readStatus at h
  cases item with
  | error e => dsimp only at h; split at h <;> contradiction
  | ok f =>
    dsimp only at h
    split at h
    · contradiction
    · split at h
      · contradiction
      · next hcode =>
        split at h
        · contradiction
        · split at h
          · next hdecode =>
            obtain rfl := Except.ok.inj h
            exact ⟨f, rfl, Decidable.of_not_not hcode, hdecode⟩
          · contradiction

/-- A report of a policy is about the remote status, and notes the mismatches if it is to. -/
theorem judge_eq_ok {policy : Policy} {mine theirs : Status} {report : ExchangeReport}
    (h : judge policy mine theirs = .ok report) :
    report.remote = theirs ∧
      report.mismatches = if policy = .annotate then validate mine theirs else [] := by
  unfold judge at h
  cases policy with
  | off | annotate =>
    obtain rfl := Except.ok.inj h
    exact ⟨rfl, rfl⟩
  | strict =>
    dsimp only at h
    split at h
    · obtain rfl := Except.ok.inj h
      exact ⟨rfl, rfl⟩
    · contradiction

/-- Validation finds nothing in statuses that are equal as far as they are compared. -/
theorem validate_eq_nil_iff {mine theirs : Status} : validate mine theirs = [] ↔
    theirs.protocolVersion = mine.protocolVersion ∧ theirs.networkId = mine.networkId ∧
      theirs.genesisBlock = mine.genesisBlock := by
  simp only [validate, List.append_eq_nil_iff, ite_eq_left_iff, List.cons_ne_nil, imp_false,
    Decidable.not_not, and_assoc]
  rw [eq_comm, @eq_comm _ mine.networkId, @eq_comm _ mine.genesisBlock]

/-- The strict policy is content with equal statuses only, as far as they are compared. -/
theorem eq_of_judge_strict {mine theirs : Status} {report : ExchangeReport}
    (h : judge .strict mine theirs = .ok report) :
    theirs.protocolVersion = mine.protocolVersion ∧ theirs.networkId = mine.networkId ∧
      theirs.genesisBlock = mine.genesisBlock := by
  unfold judge at h
  dsimp only at h
  split at h
  next hvalid => exact validate_eq_nil_iff.mp hvalid
  · contradiction

end PeerProbe.Eth
