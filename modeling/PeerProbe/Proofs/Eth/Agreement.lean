import PeerProbe.Eth.Duplex
import PeerProbe.Proofs.Eth.Canonical

/-!
# The two ends of an exchange agree

The two ends of a pipe move in any order: each sends its status, takes the status across out of its
inbox, and may drop its connection once it is done. As long as no timer fires and the limits leave room
for the statuses, no move can fail. An end that is gone was done, so it had taken the status across,
so the other end has nothing left to send to it; and what it sent itself is still in the inbox across.

The verdicts of the two ends come from the same fields, compared in the same order. So the
differences that one end sees are those of the other with the two values exchanged.
-/

namespace PeerProbe.Eth

/-! ## Fields that are compared -/

/-- The fields in which two statuses are compared. -/
inductive Compared where
  | version
  | network
  | genesis
  deriving DecidableEq, Repr

namespace Compared

/-- The fields in the order of their comparison. -/
def inOrder : List Compared := [.version, .network, .genesis]

/-- Two statuses have the same value in a field. -/
def Same (mine theirs : Status) : Compared → Prop
  | .version => mine.protocolVersion = theirs.protocolVersion
  | .network => mine.networkId = theirs.networkId
  | .genesis => mine.genesisBlock = theirs.genesisBlock

instance (mine theirs : Status) : DecidablePred (Same mine theirs) := fun field =>
  match field with
  | .version => inferInstanceAs (Decidable (mine.protocolVersion = theirs.protocolVersion))
  | .network => inferInstanceAs (Decidable (mine.networkId = theirs.networkId))
  | .genesis => inferInstanceAs (Decidable (mine.genesisBlock = theirs.genesisBlock))

/-- The disagreement about a field. -/
def mismatch (mine theirs : Status) : Compared → MessageError
  | .version => .versionMismatch mine.protocolVersion theirs.protocolVersion
  | .network => .networkMismatch mine.networkId theirs.networkId
  | .genesis => .genesisMismatch mine.genesisBlock theirs.genesisBlock

/-- The fields in which two statuses differ. -/
def differences (mine theirs : Status) : List Compared :=
  inOrder.filter fun field => ¬Same mine theirs field

theorem same_comm {mine theirs : Status} (field : Compared) :
    Same mine theirs field ↔ Same theirs mine field := by
  cases field <;> exact eq_comm

theorem mem_differences {mine theirs : Status} {field : Compared} :
    field ∈ differences mine theirs ↔ ¬Same mine theirs field := by
  have hall : field ∈ inOrder := by cases field <;> decide
  simp [differences, hall]

theorem differences_comm (mine theirs : Status) :
    differences mine theirs = differences theirs mine := by
  simp only [differences, same_comm]

end Compared

open Compared (differences mismatch)

/-- A disagreement as the other end sees it. -/
def MessageError.exchanged : MessageError → MessageError
  | .versionMismatch mine theirs => .versionMismatch theirs mine
  | .networkMismatch mine theirs => .networkMismatch theirs mine
  | .genesisMismatch mine theirs => .genesisMismatch theirs mine
  | e => e

theorem exchanged_mismatch (mine theirs : Status) (field : Compared) :
    (mismatch mine theirs field).exchanged = mismatch theirs mine field := by
  cases field <;> rfl

/-- Validation goes through the fields that differ. -/
theorem validate_eq_map (mine theirs : Status) :
    validate mine theirs = (differences mine theirs).map (mismatch mine theirs) := by
  have hone (field : Compared) : ([field].filter fun field => ¬Compared.Same mine theirs field).map
      (mismatch mine theirs) =
        if Compared.Same mine theirs field then [] else [mismatch mine theirs field] := by
    by_cases h : Compared.Same mine theirs field <;> simp [h]
  have hsplit : Compared.inOrder = [.version] ++ [.network] ++ [.genesis] := rfl
  rw [differences, hsplit, List.filter_append, List.filter_append, List.map_append, List.map_append,
    hone, hone, hone]
  rfl

/-- What the other end sees are the same disagreements with the values exchanged. -/
theorem validate_swap (mine theirs : Status) :
    validate theirs mine = (validate mine theirs).map MessageError.exchanged := by
  rw [validate_eq_map, validate_eq_map, List.map_map, Compared.differences_comm theirs mine]
  exact List.map_congr_left fun field _ => (exchanged_mismatch mine theirs field).symm

/-! ## Reading a status that was sent -/

/-- The frame in which an end sends its status. -/
def Party.frame (p : Party) : Frame := Frame.ofPayload Code.status (rlpBytes p.status)

/-- A status that the limit has room for is read as it was sent. -/
theorem readStatus_frame {p : Party} {max : UInt32}
    (hroom : (rlpBytes p.status).length ≤ max.toNat) : readStatus max (.ok p.frame) = .ok p.status := by
  have hbound : (rlpBytes p.status).length < 2 ^ 32 := hroom.trans_lt max.toNat_lt
  have hsize : p.frame.size.toNat = (rlpBytes p.status).length := UInt32.toNat_ofNat_of_lt' hbound
  have hbytes : rlpBytes p.status ≠ [] := Payload.bytes?_ne_nil (p := .status p.status) rfl
  have hempty : p.frame.isEmpty = false := by
    have hne : p.frame.size ≠ 0 := fun h0 => by
      rw [h0] at hsize
      exact hbytes (List.length_eq_zero_iff.mp hsize.symm)
    have hpayload : p.frame.payload ≠ [] := hbytes
    simp [Frame.isEmpty, hne, hpayload]
  have hmax : ¬max < p.frame.size := by rw [UInt32.lt_iff_toNat_lt, hsize]; omega
  have hdecode : decodeExact Rlp.Item.read p.frame.code p.frame.payload = .ok p.status :=
    decodeExact_of_exact Rlp.ExactItem.exact _ (hbound.trans (by decide))
  unfold readStatus
  dsimp only
  rw [if_neg (by simp [hempty]), if_neg (by simp [Party.frame, Frame.ofPayload]), if_neg hmax, hdecode]

/-! ## Sides -/

@[simp] theorem Side.other_other (s : Side) : s.other.other = s := by cases s <;> rfl

/-- What holds on a side and across holds on both sides. -/
theorem Side.both {P : Side → Prop} (s : Side) (hs : P s) (hother : P s.other) (t : Side) : P t := by
  cases s <;> cases t <;> assumption

/-- The moves an end has made: its two legs, and dropping its connection. -/
def PipeEnd.moves (e : PipeEnd) : Nat :=
  e.legs.sent.toNat + e.legs.received.isSome.toNat + (!e.isOpen).toNat

theorem PipeEnd.moves_le (e : PipeEnd) : e.moves ≤ 3 := by
  have hsent := e.legs.sent.toNat_le
  have hreceived := e.legs.received.isSome.toNat_le
  have hgone := (!e.isOpen).toNat_le
  rw [PipeEnd.moves]
  omega

namespace Duplex

variable {p : Side → Party} {d d' : Duplex} {s : Side} {e : PipeEnd} {n : Nat}

@[simp] theorem get_set_self : (d.set s e).get s = e := by cases s <;> rfl

@[simp] theorem get_set_other : (d.set s e).get s.other = d.get s.other := by cases s <;> rfl

@[simp] theorem get_set_across : (d.set s.other e).get s = d.get s := by cases s <;> rfl

/-! ## Moves -/

/-- One move of one end, whoever's turn it is; no timer fires. -/
inductive Goes (p : Side → Party) (d : Duplex) : Duplex → Prop where
  | sends (s : Side) (hrunning : (d.get s).outcome = none) (hleg : (d.get s).legs.sent = false) :
      Goes p d (d.sendStep s (p s))
  | receives (s : Side) (hrunning : (d.get s).outcome = none)
      (hleg : (d.get s).legs.received = none) {next : Duplex}
      (htakes : d.receiveStep? s (p s) = some next) : Goes p d next
  | drops (s : Side) (hdone : (d.get s).outcome.isSome) (hopen : (d.get s).isOpen) :
      Goes p d (d.close s)

/-- The machine's own moves are among these. -/
theorem goes_of_step? (h : d.step? s (p s) = some d') : Goes p d d' := by
  unfold step? at h
  dsimp only at h
  split at h
  · contradiction
  · next hrunning =>
    have hrunning : (d.get s).outcome = none := by simpa using hrunning
    split at h
    · next hleg =>
      obtain rfl := Option.some.inj h
      exact .sends s hrunning (by simpa using hleg)
    · split at h
      · next hleg => exact .receives s hrunning (by simpa using hleg) h
      · contradiction

/-- What some number of moves may lead to. -/
inductive Runs (p : Side → Party) : Nat → Duplex → Prop where
  | start : Runs p 0 (start [])
  | move {n : Nat} {d next : Duplex} (hrun : Runs p n d) (hgoes : Goes p d next) : Runs p (n + 1) next

/-! ## What is known of an end -/

/-- The limit of each end has room for the status across. -/
def Roomy (p : Side → Party) : Prop :=
  ∀ s, (rlpBytes (p s.other).status).length ≤ (p s).config.maxMessage.toNat

/-- What is known of one end: the status across is in its inbox from its sending until it is taken,
and all that was taken is that status. -/
structure Fits (p : Side → Party) (d : Duplex) (s : Side) : Prop where
  inbox : (d.get s).inbox =
    if (d.get s.other).legs.sent ∧ (d.get s).legs.received = none then [(p s.other).frame] else []
  received : ∀ theirs, (d.get s).legs.received = some theirs →
    theirs = (p s.other).status ∧ (d.get s.other).legs.sent
  outcome : (d.get s).outcome = (d.get s).legs.finished?.map .ok
  gone : (d.get s).isOpen = false → (d.get s).outcome.isSome

theorem Fits.finished (h : Fits p d s) (hdone : (d.get s).outcome.isSome) :
    (d.get s).legs.sent ∧ (d.get s).legs.received = some (p s.other).status ∧
      (d.get s.other).legs.sent := by
  rw [h.outcome, Option.isSome_map, Legs.finished?] at hdone
  split at hdone
  · next hsent =>
    obtain ⟨theirs, htheirs⟩ := Option.isSome_iff_exists.mp hdone
    obtain ⟨rfl, hacross⟩ := h.received theirs htheirs
    exact ⟨hsent, htheirs, hacross⟩
  · contradiction

/-- An end without an outcome is there. -/
theorem Fits.isOpen (h : Fits p d s) (hwaits : (d.get s).outcome = none) : (d.get s).isOpen := by
  by_contra hgone
  simpa [hwaits] using h.gone (by simpa using hgone)

/-- An end that has not sent its status, or has none from across, has no outcome. -/
theorem Fits.waits (h : Fits p d s)
    (hleg : (d.get s).legs.sent = false ∨ (d.get s).legs.received = none) :
    (d.get s).outcome = none := by
  rw [h.outcome]
  rcases hleg with hsent | hreceived
  · simp [Legs.finished?, hsent]
  · simp [Legs.finished?, hreceived]

/-- What is known of an end depends on the end and on whether the status across was sent. -/
theorem Fits.congr (h : Fits p d s) (hself : d'.get s = d.get s)
    (hacross : (d'.get s.other).legs.sent = (d.get s.other).legs.sent) : Fits p d' s where
  inbox := by rw [hself, hacross, h.inbox]
  received := by rw [hself, hacross]; exact h.received
  outcome := by rw [hself]; exact h.outcome
  gone := by rw [hself]; exact h.gone

theorem fits_start (s : Side) : Fits p (start []) s := by
  cases s <;>
    exact ⟨rfl, fun _ h => absurd h (by simp [start, get, freshEnd, Legs.start]), rfl, nofun⟩

/-- Before an end has sent, the other end is there and its inbox is empty. -/
theorem across_of_unsent (h : ∀ s, Fits p d s) (hleg : (d.get s).legs.sent = false) :
    (d.get s.other).isOpen ∧ (d.get s.other).inbox = [] ∧
      (d.get s.other).legs.received = none := by
  have hacross := h s.other
  have hreceived : (d.get s.other).legs.received = none := by
    refine Option.eq_none_iff_forall_ne_some.mpr fun theirs htheirs => ?_
    obtain ⟨-, hsent⟩ := hacross.received theirs htheirs
    simp [hleg] at hsent
  refine ⟨hacross.isOpen (hacross.waits (.inr hreceived)), ?_, hreceived⟩
  rw [hacross.inbox, Side.other_other, if_neg (by simp [hleg])]

/-- A leg's sending puts the status into the inbox across. -/
theorem sendStep_eq (h : ∀ s, Fits p d s) (hleg : (d.get s).legs.sent = false) :
    d.sendStep s (p s) =
      (d.set s.other { d.get s.other with inbox := [(p s).frame] }).set s
        { d.get s with
          legs := { (d.get s).legs with sent := true }
          outcome := Legs.finished? { (d.get s).legs with sent := true } |>.map .ok } := by
  obtain ⟨hopen, hinbox, -⟩ := across_of_unsent h hleg
  rw [sendStep]
  dsimp only
  rw [if_pos hopen, hinbox]
  rfl

theorem fits_sendStep (h : ∀ s, Fits p d s) (hleg : (d.get s).legs.sent = false) (t : Side) :
    Fits p (d.sendStep s (p s)) t := by
  obtain ⟨-, -, hreceived⟩ := across_of_unsent h hleg
  have hself := h s
  have hacross := h s.other
  have hopen : (d.get s).isOpen := hself.isOpen (hself.waits (.inl hleg))
  rw [sendStep_eq h hleg]
  refine Side.both s ⟨?_, ?_, ?_, ?_⟩ ⟨?_, ?_, ?_, ?_⟩ t
  · simpa using hself.inbox
  · simpa using hself.received
  · simp
  · simp [hopen]
  · simp [hreceived]
  · simp [hreceived]
  · simpa using hacross.outcome
  · simpa using hacross.gone

/-- A leg's receiving takes the status across out of the inbox. -/
theorem receiveStep?_eq (hroom : Roomy p) (h : ∀ s, Fits p d s)
    (hleg : (d.get s).legs.received = none) (htakes : d.receiveStep? s (p s) = some d') :
    (d.get s.other).legs.sent ∧
      d' = d.set s
        { d.get s with
          legs := { (d.get s).legs with received := some (p s.other).status }
          inbox := []
          outcome :=
            Legs.finished? { (d.get s).legs with received := some (p s.other).status } |>.map .ok } := by
  have hself := h s
  by_cases hacross : (d.get s.other).legs.sent
  · have hinbox : (d.get s).inbox = [(p s.other).frame] := by
      rw [hself.inbox, if_pos ⟨hacross, hleg⟩]
    have hread := readStatus_frame (hroom s)
    refine ⟨hacross, ?_⟩
    rw [receiveStep?, hinbox] at htakes
    simpa [Legs.onItem, hread, Except.map, after, eq_comm] using htakes
  · have hinbox : (d.get s).inbox = [] := by rw [hself.inbox, if_neg fun hboth => hacross hboth.1]
    have hopen : (d.get s.other).isOpen :=
      (h s.other).isOpen ((h s.other).waits (.inl (by simpa using hacross)))
    rw [receiveStep?, hinbox] at htakes
    simp [hopen] at htakes

theorem fits_receiveStep? (hroom : Roomy p) (h : ∀ s, Fits p d s)
    (hrunning : (d.get s).outcome = none) (hleg : (d.get s).legs.received = none)
    (htakes : d.receiveStep? s (p s) = some d') (t : Side) : Fits p d' t := by
  obtain ⟨hacross, rfl⟩ := receiveStep?_eq hroom h hleg htakes
  have hopen : (d.get s).isOpen := (h s).isOpen hrunning
  refine Side.both s ⟨?_, ?_, ?_, ?_⟩ ((h s.other).congr get_set_other (by simp)) t
  · simp
  · simpa using hacross
  · simp
  · simp [hopen]

/-- An end that drops its connection leaves everything else as it was. -/
theorem close_eq (hdone : (d.get s).outcome.isSome) :
    d.close s = d.set s { d.get s with isOpen := false } := by
  rw [close]
  dsimp only
  rw [if_pos hdone]

theorem fits_close (h : ∀ s, Fits p d s) (hdone : (d.get s).outcome.isSome) (t : Side) :
    Fits p (d.close s) t := by
  rw [close_eq hdone]
  refine Side.both s ⟨?_, ?_, ?_, ?_⟩ ((h s.other).congr get_set_other (by simp)) t
  · simpa using (h s).inbox
  · simpa using (h s).received
  · simpa using (h s).outcome
  · simpa using hdone

theorem fits_goes (hroom : Roomy p) (h : ∀ s, Fits p d s) (hgoes : Goes p d d') (s : Side) :
    Fits p d' s := by
  cases hgoes with
  | sends t _ hleg => exact fits_sendStep h hleg s
  | receives t hrunning hleg htakes => exact fits_receiveStep? hroom h hrunning hleg htakes s
  | drops t hdone _ => exact fits_close h hdone s

theorem fits_runs (hroom : Roomy p) (hrun : Runs p n d) (s : Side) : Fits p d s := by
  induction hrun generalizing s with
  | start => exact fits_start s
  | move _ hgoes ih => exact fits_goes hroom ih hgoes s

/-! ## How far an exchange has come -/

/-- The moves that both ends have made. -/
def moves (d : Duplex) : Nat := (d.get .left).moves + (d.get .right).moves

theorem moves_eq (d : Duplex) (s : Side) : d.moves = (d.get s).moves + (d.get s.other).moves := by
  cases s
  · rfl
  · exact Nat.add_comm _ _

theorem moves_goes (hroom : Roomy p) (h : ∀ s, Fits p d s) (hgoes : Goes p d d') :
    d'.moves = d.moves + 1 := by
  cases hgoes with
  | sends s _ hleg =>
    rw [sendStep_eq h hleg, moves_eq _ s, moves_eq d s]
    simp [PipeEnd.moves, hleg]
    omega
  | receives s _ hleg htakes =>
    obtain ⟨-, rfl⟩ := receiveStep?_eq hroom h hleg htakes
    rw [moves_eq _ s, moves_eq d s]
    simp [PipeEnd.moves, hleg]
    omega
  | drops s hdone hopen =>
    rw [close_eq hdone, moves_eq _ s, moves_eq d s]
    simp [PipeEnd.moves, hopen]
    omega

theorem moves_runs (hroom : Roomy p) (hrun : Runs p n d) : d.moves = n := by
  induction hrun with
  | start => rfl
  | move hrun hgoes ih => rw [moves_goes hroom (fits_runs hroom hrun) hgoes, ih]

/-- No end waits for nothing: as long as one of them is not done, one of them can go on. -/
theorem exists_step? (h : ∀ s, Fits p d s) (hwaits : (d.get s).outcome = none) :
    ∃ t d', d.step? t (p t) = some d' := by
  by_cases hsent : (d.get s).legs.sent
  · by_cases hacross : (d.get s.other).legs.sent
    · have hreceived : (d.get s).legs.received = none := by
        simpa [(h s).outcome, Legs.finished?, hsent] using hwaits
      have hinbox : (d.get s).inbox = [(p s.other).frame] := by
        rw [(h s).inbox, if_pos ⟨hacross, hreceived⟩]
      have htakes : (d.receiveStep? s (p s)).isSome := by simp [receiveStep?, hinbox]
      obtain ⟨d', hd'⟩ := Option.isSome_iff_exists.mp htakes
      exact ⟨s, d', by simp [step?, hwaits, hsent, hreceived, hd']⟩
    · have hrunning : (d.get s.other).outcome = none := by
        rw [(h s.other).outcome, Legs.finished?, if_neg hacross]
        rfl
      exact ⟨s.other, d.sendStep s.other (p s.other), by simp [step?, hrunning, hacross]⟩
  · exact ⟨s, d.sendStep s (p s), by simp [step?, hwaits, hsent]⟩

/-! ## Verdicts -/

/-- A policy rejects a status across for the first field that differs, if it is strict, and else notes
all of them if it is to. -/
theorem judge_eq (policy : Policy) (mine theirs : Status) :
    judge policy mine theirs =
      match policy, differences mine theirs with
      | .off, _ => .ok ⟨theirs, []⟩
      | .annotate, fields => .ok ⟨theirs, fields.map (mismatch mine theirs)⟩
      | .strict, [] => .ok ⟨theirs, []⟩
      | .strict, field :: _ => .error (.protocol (mismatch mine theirs field)) := by
  unfold judge
  rw [validate_eq_map]
  cases policy <;> cases differences mine theirs <;> rfl

/-- A result is the verdict of the end's own policy on the status across. -/
theorem result_eq (hroom : Roomy p) (hrun : Runs p n d) {peer : String}
    {result : Except ExchangeError ExchangeReport} {entries : List Log.Entry}
    (h : d.result? s peer (p s) = some (result, entries)) :
    result = judge (p s).config.policy (p s).status (p s.other).status := by
  obtain ⟨outcome, houtcome, hresult⟩ := Option.map_eq_some_iff.mp h
  have hfits := fits_runs hroom hrun s
  obtain ⟨hsent, htook, -⟩ := hfits.finished (by rw [houtcome]; rfl)
  have hok : outcome = .ok (p s.other).status := by
    have hknown := hfits.outcome
    rw [houtcome, Legs.finished?, if_pos hsent, htook] at hknown
    exact Option.some.inj hknown
  subst hok
  exact (congrArg Prod.fst hresult).symm

/-- What holds after some moves of two ends that exchange their statuses. -/
structure Agreement (p : Side → Party) (n : Nat) (d : Duplex) : Prop where
  /-- There are six moves at most. -/
  bounded : n ≤ 6
  /-- While an end is not done, one of the two can go on. -/
  goesOn : ∀ s, (d.get s).outcome = none → ∃ t next, d.step? t (p t) = some next ∧ Goes p d next
  /-- An end that is done has the status across. -/
  learned : ∀ s outcome, (d.get s).outcome = some outcome → outcome = .ok (p s.other).status
  /-- A strict end fails for the first field that differs. -/
  rejected : ∀ s peer result entries field fields,
    d.result? s peer (p s) = some (result, entries) → (p s).config.policy = .strict →
      differences (p s).status (p s.other).status = field :: fields →
        result = .error (.protocol (mismatch (p s).status (p s.other).status field))
  /-- In every other case an end succeeds; it notes all fields that differ if it is to. -/
  accepted : ∀ s peer result entries, d.result? s peer (p s) = some (result, entries) →
    ((p s).config.policy = .strict → differences (p s).status (p s.other).status = []) →
      result = .ok ⟨(p s.other).status, if (p s).config.policy = .annotate
        then (differences (p s).status (p s.other).status).map
          (mismatch (p s).status (p s.other).status) else []⟩
  /-- Both ends see the same fields in the same order, with the values exchanged. -/
  mirrored : ∀ s, validate (p s.other).status (p s).status =
    (validate (p s).status (p s.other).status).map MessageError.exchanged
  /-- Two strict ends succeed both, or fail both for the same field. -/
  together : (∀ s, (p s).config.policy = .strict) → ∀ results : Side → Except ExchangeError _,
    (∀ s, ∃ peer entries, d.result? s peer (p s) = some (results s, entries)) →
      (∀ s, results s = .ok ⟨(p s.other).status, []⟩) ∨
      ∃ field, ∀ s, ¬Compared.Same (p s).status (p s.other).status field ∧
        results s = .error (.protocol (mismatch (p s).status (p s.other).status field))

/-- Whatever the order of their moves, two ends learn each other's status, and their verdicts come from
the same differences. -/
theorem agreement (hroom : Roomy p) (hrun : Runs p n d) : Agreement p n d where
  bounded := by
    have hleft := (d.get .left).moves_le
    have hright := (d.get .right).moves_le
    rw [← moves_runs hroom hrun, moves]
    omega
  goesOn s hwaits := by
    obtain ⟨t, next, hstep⟩ := exists_step? (fits_runs hroom hrun) hwaits
    exact ⟨t, next, hstep, goes_of_step? hstep⟩
  learned s outcome houtcome := by
    have hfits := fits_runs hroom hrun s
    obtain ⟨hsent, htook, -⟩ := hfits.finished (by rw [houtcome]; rfl)
    rw [hfits.outcome, Legs.finished?, if_pos hsent, htook] at houtcome
    exact (Option.some.inj houtcome).symm
  rejected s peer result entries field fields hresult hstrict hfields := by
    rw [result_eq hroom hrun hresult, judge_eq, hstrict, hfields]
  accepted s peer result entries hresult hcontent := by
    rw [result_eq hroom hrun hresult, judge_eq]
    cases hpolicy : (p s).config.policy with
    | strict => rw [hcontent hpolicy]; rfl
    | annotate | off => rfl
  mirrored s := validate_swap _ _
  together hstrict results hresults := by
    have hverdict (s : Side) : results s = judge .strict (p s).status (p s.other).status := by
      obtain ⟨peer, entries, hresult⟩ := hresults s
      rw [result_eq hroom hrun hresult, hstrict]
    have hsame (s : Side) : differences (p s).status (p s.other).status =
        differences (p .left).status (p .right).status := by
      cases s with
      | left => rfl
      | right => exact Compared.differences_comm _ _
    cases hfields : differences (p .left).status (p .right).status with
    | nil => exact .inl fun s => by rw [hverdict, judge_eq, hsame, hfields]
    | cons field fields =>
      refine .inr ⟨field, fun s => ⟨?_, by rw [hverdict, judge_eq, hsame, hfields]⟩⟩
      exact Compared.mem_differences.mp (by rw [hsame, hfields]; exact List.mem_cons_self)

/-- Two ends that disagree about the network: the left one is strict, the right one takes notes. -/
def networksApart : Side → Party
  | .left => ⟨{ policy := .strict }, .mainnet⟩
  | .right => ⟨{ policy := .annotate }, { Status.mainnet with networkId := 5 }⟩

/-- The left end rejects the status across and is gone before the right end looks into its inbox. -/
theorem agreement_networksApart :
    let gone := (((start []).turn .right (networksApart .right) 1).turn .left
      (networksApart .left) 2).close .left
    Roomy networksApart ∧ Runs networksApart 4 gone ∧ Agreement networksApart 4 gone ∧
      (gone.get .left).isOpen = false ∧ (gone.get .right).legs.received = none := by
  intro gone
  have hroom : Roomy networksApart := fun s => by cases s <;> decide +kernel
  have hrun : Runs networksApart 4 gone := by
    refine .move (.move (.move (.move .start (.sends .right rfl rfl)) (.sends .left rfl rfl))
      (.receives .left rfl rfl rfl)) (.drops .left ?_ rfl)
    decide +kernel
  exact ⟨hroom, hrun, agreement hroom hrun, by decide +kernel, by decide +kernel⟩

end Duplex

end PeerProbe.Eth
