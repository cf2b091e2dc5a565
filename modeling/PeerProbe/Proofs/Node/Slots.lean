import PeerProbe.Proofs.Attempt.Ending
import PeerProbe.Proofs.Node.Attempts
import PeerProbe.Proofs.Node.Run

/-!
# One attempt at a time

A slot is held by the call that has claimed it, then by the attempt that the call begins, until the
task of the attempt ends. It is busy exactly while it is held, and nobody else can claim it then: a
claim that finds it busy changes nothing but its own answer and the log.
-/

namespace PeerProbe

/-- The slot that a call has claimed for an attempt that has not begun yet. -/
def Call.claim? : Call → Option Nat
  | .subscribing _ slot _ _ => some slot
  | _ => none

/-- The attempt whose end a call waits for. -/
def Call.waitsFor? : Call → Option Nat
  | .unwinding k | .joining _ k _ _ => some k
  | _ => none

/-- Who may hold a slot: a call that has claimed it, or the attempt that a call has begun. -/
inductive Holder where
  | claim (call : Nat)
  | attempt (k : Nat)
  deriving DecidableEq

namespace Node

variable {σ : Type}

/-- A slot is held from a claim to the end of the attempt's task. -/
def Holds (n : Node σ) (slot : Nat) : Holder → Prop
  | .claim i => n.ofCall? Call.claim? i = some slot
  | .attempt k => ∃ a, n.attempts[k]? = some a ∧ a.slot = slot ∧ a.isFinished = false

/-- What one thing that happens may make of a slot. -/
inductive SlotChange (n : Node σ) (slot : Nat) (n' : Node σ) : Prop where
  | kept (hholds : ∀ h, n'.Holds slot h ↔ n.Holds slot h) (hbusy : n'.isBusy slot = n.isBusy slot)
  | claimed (i : Nat) (hfree : n.isBusy slot = false)
      (hholds : ∀ h, n'.Holds slot h ↔ n.Holds slot h ∨ h = .claim i)
      (hbusy : n'.isBusy slot = true)
  | begun (i k : Nat) (hi : n.Holds slot (.claim i))
      (hholds : ∀ h, n'.Holds slot h ↔ (n.Holds slot h ∧ h ≠ .claim i) ∨ h = .attempt k)
      (hbusy : n'.isBusy slot = n.isBusy slot)
  | released (k : Nat) (hk : n.Holds slot (.attempt k))
      (hholds : ∀ h, n'.Holds slot h ↔ n.Holds slot h ∧ h ≠ .attempt k)
      (hfree : n'.isBusy slot = false)

/-- A slot is busy exactly while it is held, and by nobody else at the same time. -/
structure Exclusive (n : Node σ) (slot : Nat) : Prop where
  busy : n.isBusy slot = true ↔ ∃ h, n.Holds slot h
  unique : ∀ h h', n.Holds slot h → n.Holds slot h' → h = h'

/-- Whatever becomes of an exclusive slot, it is exclusive again. -/
theorem Exclusive.change {n n' : Node σ} {slot : Nat} (hn : n.Exclusive slot)
    (h : n.SlotChange slot n') : n'.Exclusive slot := by
  cases h with
  | kept hholds hbusy =>
    refine ⟨by simp only [hbusy, hn.busy, hholds], fun h h' hh hh' => ?_⟩
    exact hn.unique h h' ((hholds h).mp hh) ((hholds h').mp hh')
  | claimed i hfree hholds hbusy =>
    have hnobody : ∀ h, ¬ n.Holds slot h := fun h hh => by
      simp [hn.busy.mpr ⟨h, hh⟩] at hfree
    have honly : ∀ h, n'.Holds slot h ↔ h = .claim i := fun h => by simp [hholds, hnobody]
    refine ⟨iff_of_true hbusy ⟨.claim i, (honly _).mpr rfl⟩, fun h h' hh hh' => ?_⟩
    exact ((honly h).mp hh).trans ((honly h').mp hh').symm
  | begun i k hi hholds hbusy =>
    have honly : ∀ h, n'.Holds slot h ↔ h = .attempt k := fun h => by
      rw [hholds, or_iff_right fun ⟨hh, hne⟩ => hne (hn.unique _ _ hh hi)]
    refine ⟨iff_of_true (hbusy.trans (hn.busy.mpr ⟨_, hi⟩)) ⟨.attempt k, (honly _).mpr rfl⟩,
      fun h h' hh hh' => ?_⟩
    exact ((honly h).mp hh).trans ((honly h').mp hh').symm
  | released k hk hholds hfree =>
    have hnobody : ∀ h, ¬ n'.Holds slot h := fun h hh => by
      obtain ⟨hh, hne⟩ := (hholds h).mp hh
      exact hne (hn.unique _ _ hh hk)
    exact ⟨iff_of_false (by simp [hfree]) fun ⟨h, hh⟩ => hnobody h hh,
      fun h _ hh => absurd hh (hnobody h)⟩

/-! ## What happens to a slot -/

/-- A slot that exists is busy or free as it was set. -/
theorem isBusy_setBusy {n : Node σ} {slot : Nat} {cfg : AttemptConfig}
    (hcfg : n.config? slot = some cfg) (busy : Bool) :
    (n.setBusy slot busy).isBusy slot = busy := by
  obtain ⟨s, hs, -⟩ := Option.map_eq_some_iff.mp hcfg
  simp [isBusy, setBusy, List.getElem?_modify_eq, hs]

/-- Setting one slot leaves the others alone. -/
theorem isBusy_setBusy_of_ne (n : Node σ) {i slot : Nat} (h : i ≠ slot) (busy : Bool) :
    (n.setBusy i busy).isBusy slot = n.isBusy slot := by
  unfold isBusy setBusy
  rw [List.getElem?_modify_ne _ _ h]

/-- Setting an attempt is seen at that attempt. -/
theorem holds_attempt_set {n n' : Node σ} {j : Nat} {a a' : Attempt}
    (hj : n.attempts[j]? = some a) (hattempts : n'.attempts = n.attempts.set j a') (slot k : Nat) :
    n'.Holds slot (.attempt k) ↔
      if k = j then a'.slot = slot ∧ a'.isFinished = false else n.Holds slot (.attempt k) := by
  change (∃ b, n'.attempts[k]? = some b ∧ _) ↔ _
  rw [hattempts]
  by_cases hk : k = j
  · rw [if_pos hk, hk, List.getElem?_set_self (List.getElem?_eq_some_iff.mp hj).1]
    simp
  · rw [if_neg hk, List.getElem?_set_ne (Ne.symm hk)]
    rfl

/-- An attempt that is as finished as before is not seen. -/
theorem holds_attempt_of_set {n n' : Node σ} {j : Nat} {a a' : Attempt}
    (hj : n.attempts[j]? = some a) (hattempts : n'.attempts = n.attempts.set j a') {slot : Nat}
    (hheld : a'.slot = slot ∧ a'.isFinished = false ↔ a.slot = slot ∧ a.isFinished = false)
    (k : Nat) : n'.Holds slot (.attempt k) ↔ n.Holds slot (.attempt k) := by
  rw [holds_attempt_set hj hattempts]
  split
  · next hk =>
    rw [hheld, Holds, hk, hj]
    simp
  · rfl

/-- Cancelling an attempt is not seen. -/
theorem holds_attempt_cancelAttempt (n : Node σ) (k slot j : Nat) :
    (n.cancelAttempt k).Holds slot (.attempt j) ↔ n.Holds slot (.attempt j) := by
  cases hj : n.attempts[j]? with
  | none => simp [Holds, cancelAttempt, List.getElem?_modify, hj]
  | some a =>
    simp only [Holds, cancelAttempt, List.getElem?_modify, hj]
    split <;> simp [Attempt.cancel, Attempt.isFinished]

/-- A new attempt is seen as well as the others. -/
theorem holds_attempt_append {n n' : Node σ} {a : Attempt}
    (hattempts : n'.attempts = n.attempts ++ [a]) (hrunning : a.isFinished = false)
    (slot k : Nat) :
    n'.Holds slot (.attempt k) ↔
      n.Holds slot (.attempt k) ∨ (k = n.attempts.length ∧ a.slot = slot) := by
  change (∃ b, n'.attempts[k]? = some b ∧ _) ↔ _
  rw [hattempts]
  rcases Nat.lt_trichotomy k n.attempts.length with hk | rfl | hk
  · rw [List.getElem?_append_left hk, or_iff_left fun h => by omega]
    rfl
  · simp [Holds, hrunning]
  · have hnone : n.attempts[k]? = none := List.getElem?_eq_none (by omega)
    have hnone' : (n.attempts ++ [a])[k]? = none := List.getElem?_eq_none (by simp; omega)
    simp [Holds, hnone, hnone', Nat.ne_of_gt hk]

/-- A slot is kept by what leaves claims, attempts and slots as they are. -/
theorem slotChange_kept {n n' : Node σ} {slot : Nat}
    (hclaims : ∀ i, n'.Holds slot (.claim i) ↔ n.Holds slot (.claim i))
    (hattempts : ∀ k, n'.Holds slot (.attempt k) ↔ n.Holds slot (.attempt k))
    (hbusy : n'.isBusy slot = n.isBusy slot) : n.SlotChange slot n' :=
  .kept (fun | .claim i => hclaims i | .attempt k => hattempts k) hbusy

/-- It is kept by the steps of a call that has claimed nothing. -/
theorem slotChange_of_call {n n' : Node σ} {i : Nat} {c c' : Call} (hc : n.calls[i]? = some c)
    (hcalls : n'.calls = n.calls.set i c') (hattempts : n'.attempts = n.attempts)
    (hslots : n'.slots = n.slots) (hclaim : c.claim? = none) (hclaim' : c'.claim? = none)
    (slot : Nat) : n.SlotChange slot n' := by
  refine slotChange_kept (fun j => ?_) (fun k => ?_) ?_
  · rw [Holds, Holds, ofCall?_set_eq _ hc hcalls (hclaim'.trans hclaim.symm)]
  · rw [Holds, Holds, hattempts]
  · rw [isBusy, isBusy, hslots]

variable [Transport σ] {n n' : Node σ} {slot : Nat} {cfg : AttemptConfig}

/-- What a step of a call makes of a slot. -/
theorem slotChange_of_callStep? {i : Nat} {c : Call} (hcfg : n.config? slot = some cfg)
    (hc : n.calls[i]? = some c) (h : n.callStep? i c = some n') : n.SlotChange slot n' := by
  cases callStepped_of_callStep? h with
  | @claimed purpose slot' peer timeout hfree =>
    by_cases hslot : slot' = slot
    · subst hslot
      refine .claimed i hfree (fun h => ?_) (isBusy_setBusy hcfg true)
      cases h with
      | attempt k => simp [Holds, setBusy, setCall]
      | claim j =>
        rw [Holds, ofCall?_set _ hc (by rfl)]
        split
        · next hj => simp [hj, Call.claim?]
        · next hj => simp [hj, Holds]
    · refine slotChange_kept (fun j => ?_) (fun k => .rfl) (isBusy_setBusy_of_ne _ hslot true)
      rw [Holds, ofCall?_set _ hc (by rfl)]
      split
      · next hj => simp [hj, Holds, ofCall?, hc, Call.claim?, hslot]
      · rfl
  | @subscribed purpose slot' peer timeout =>
    have hcalls : (n.subscribeStep i purpose slot' peer timeout).calls = n.calls.set i
        (if purpose = .service then .rechecking n.attempts.length peer
          else .awaiting purpose n.attempts.length peer) := rfl
    have hclaim : ∀ j, (n.subscribeStep i purpose slot' peer timeout).Holds slot (.claim j) ↔
        n.Holds slot (.claim j) ∧ j ≠ i := fun j => by
      rw [Holds, ofCall?_set _ hc hcalls]
      split
      · next hj => split <;> simp [hj, Call.claim?]
      · next hj => simp [hj, Holds]
    have hattempts : (n.subscribeStep i purpose slot' peer timeout).attempts = n.attempts ++
        [.create slot' peer timeout (Transport.subscribe n.transport).1] := rfl
    by_cases hslot : slot' = slot
    · subst hslot
      have hclaimed : n.Holds slot' (.claim i) := by simp [Holds, ofCall?, hc, Call.claim?]
      refine .begun i n.attempts.length hclaimed (fun h => ?_) rfl
      cases h with
      | claim j => simp [hclaim]
      | attempt k => simp [holds_attempt_append hattempts rfl, Attempt.create]
    · refine slotChange_kept (fun j => ?_) (fun k => ?_) rfl
      · rw [hclaim, and_iff_left_of_imp]
        rintro hj rfl
        simp [Holds, ofCall?, hc, Call.claim?, hslot] at hj
      · rw [holds_attempt_append hattempts rfl, or_iff_left fun h => hslot h.2]
  | cancelled k =>
    refine slotChange_kept (fun j => ?_) (holds_attempt_cancelAttempt n k slot) rfl
    rw [Holds, Holds, ofCall?_set_eq _ hc (by rfl) (by rfl)]
  | @joined purpose =>
    cases purpose <;>
      exact slotChange_of_call hc (by rfl) (by rfl) (by rfl) (by rfl) (by rfl) slot
  | _ => exact slotChange_of_call hc (by rfl) (by rfl) (by rfl) (by rfl) (by rfl) slot

/-- The end of an attempt releases its slot; other steps of an attempt keep it. -/
theorem slotChange_of_attempt {j : Nat} {a : Attempt} {cfg' : AttemptConfig}
    {s : Attempt.Stepped σ} (hcfg : n.config? slot = some cfg) (ha : n.attempts[j]? = some a)
    (hs : a.step? cfg' n.now n.transport = some s) :
    n.SlotChange slot
      (if s.1.isFinished then (n.attempted j s).setBusy a.slot false else n.attempted j s) := by
  have hslot : s.1.slot = a.slot := (Attempt.advance_of_step? hs).slot
  have hrunning : a.isFinished = false := Attempt.isFinished_of_step? hs
  cases hfinished : s.1.isFinished with
  | false =>
    refine slotChange_kept (fun _ => .rfl) (holds_attempt_of_set ha rfl ?_) rfl
    rw [hslot, hfinished, hrunning]
  | true =>
    rw [if_pos rfl]
    by_cases hslot' : a.slot = slot
    · subst hslot'
      refine .released j ⟨a, ha, rfl, hrunning⟩ (fun h => ?_) (isBusy_setBusy hcfg false)
      cases h with
      | claim i => exact (and_iff_left nofun).symm
      | attempt k =>
        rw [holds_attempt_set ha (by rfl), hfinished]
        split
        · next hk => simp [hk]
        · next hk => simp [hk]
    · refine slotChange_kept (fun _ => .rfl) (holds_attempt_of_set ha rfl ?_)
        (isBusy_setBusy_of_ne _ hslot' false)
      rw [hslot, and_congr_right_iff]
      exact fun h => absurd h hslot'

/-- What happens to a slot is one of the four. -/
theorem slotChange_of_happens {allowed : Act σ → Prop} (hcfg : n.config? slot = some cfg)
    (h : Happens allowed n n') : n.SlotChange slot n' := by
  cases h with
  | step task h =>
    cases stepped_of_step? h with
    | attempt ha _ hs => exact slotChange_of_attempt hcfg ha hs
    | watcher ha hr =>
      have hsame := Attempt.sameCourse_of_watcherStep? hr
      refine slotChange_kept (fun _ => .rfl) (holds_attempt_of_set ha rfl ?_) rfl
      rw [hsame.slot, Attempt.isFinished, hsame.phase]
      rfl
    | openWatch | held | background => exact slotChange_kept (fun _ => .rfl) (fun _ => .rfl) rfl
    | call hc hstep => exact slotChange_of_callStep? hcfg hc hstep
  | act a h =>
    cases a with
    | order o =>
      refine slotChange_kept (fun i => ?_) (fun _ => .rfl) rfl
      rw [Holds, Holds, ofCall?_append _ (by rfl) (by cases o <;> rfl)]
    | cancelAttempt k =>
      exact slotChange_kept (fun _ => .rfl) (holds_attempt_cancelAttempt n k slot) rfl
    | addSlot config =>
      obtain ⟨s, hs, -⟩ := Option.map_eq_some_iff.mp hcfg
      refine slotChange_kept (fun _ => .rfl) (fun _ => .rfl) ?_
      simp only [isBusy, act]
      rw [List.getElem?_append_left (List.getElem?_eq_some_iff.mp hs).1]
    | watch | cancelWatch | move | wait =>
      exact slotChange_kept (fun _ => .rfl) (fun _ => .rfl) rfl

/-! ## Runs -/

omit [Transport σ] in
/-- A slot that nobody has used. -/
structure Unused (n : Node σ) (slot : Nat) (cfg : AttemptConfig) : Prop where
  config : n.config? slot = some cfg
  free : n.isBusy slot = false
  attempts : ∀ (k : Nat) (a : Attempt), n.attempts[k]? = some a → a.slot ≠ slot
  calls : ∀ (i : Nat) (c : Call), n.calls[i]? = some c → c.claim? ≠ some slot

omit [Transport σ] in
/-- The slot of the service is unused in a new node. -/
theorem unused_create (t : σ) (cfg : AttemptConfig) (timeout : Nat) :
    (create t cfg timeout).Unused 0 { cfg with disconnect := false } :=
  ⟨rfl, rfl, by simp [create], by simp [create]⟩

omit [Transport σ] in
/-- The other slot is unused in a new node. -/
theorem unused_create_one (t : σ) (cfg : AttemptConfig) (timeout : Nat) :
    (create t cfg timeout).Unused 1 cfg :=
  ⟨rfl, rfl, by simp [create], by simp [create]⟩

omit [Transport σ] in
/-- Nobody holds an unused slot. -/
theorem Unused.exclusive (hn : n.Unused slot cfg) : n.Exclusive slot := by
  have hnobody : ∀ h, ¬ n.Holds slot h := by
    intro h hh
    cases h with
    | claim i =>
      obtain ⟨c, hc, hclaim⟩ := Option.bind_eq_some_iff.mp hh
      exact hn.calls i c hc hclaim
    | attempt k =>
      obtain ⟨a, ha, hslot, -⟩ := hh
      exact hn.attempts k a ha hslot
  have hfree := hn.free
  exact ⟨iff_of_false (by simp [hfree]) fun ⟨h, hh⟩ => hnobody h hh,
    fun h _ hh => absurd hh (hnobody h)⟩

/-- The settings of a slot stay in every state that a node gets into. -/
theorem config?_of_reachable {allowed : Act σ → Prop} {first : Node σ}
    (hcfg : first.config? slot = some cfg) (h : Reachable allowed first n) :
    n.config? slot = some cfg := by
  induction h with
  | first => exact hcfg
  | next _ hstep ih => exact config?_of_happens hstep ih

/-- A slot that was unused is exclusive in every state that a node gets into. -/
theorem Unused.exclusive_of_reachable {allowed : Act σ → Prop} {first : Node σ}
    (hfirst : first.Unused slot cfg) (h : Reachable allowed first n) : n.Exclusive slot := by
  induction h with
  | first => exact hfirst.exclusive
  | next hreach hstep ih =>
    have hcfg := config?_of_reachable hfirst.config hreach
    exact ih.change (slotChange_of_happens hcfg hstep)

/-- What lasts is true of every attempt in a slot that was unused. -/
theorem Lasting.reachable {allowed : Act σ → Prop} {first : Node σ} {p : Attempt → Prop}
    (hp : Lasting σ cfg p) (hfirst : first.Unused slot cfg) (h : Reachable allowed first n) :
    ∀ (k : Nat) (a : Attempt), n.attempts[k]? = some a → a.slot = slot → p a := by
  induction h with
  | first => exact fun k a ha hslot => absurd hslot (hfirst.attempts k a ha)
  | next hreach hstep ih =>
    have hcfg := config?_of_reachable hfirst.config hreach
    exact fun k a ha hslot => hp.happens hcfg ih hstep ha hslot

/-! ## Claims and releases -/

/-- A claim is carried out at once. It is refused exactly if somebody holds the slot, and then
nothing but the answer and the log changes; otherwise the call holds the slot. -/
theorem Exclusive.claim (hn : n.Exclusive slot) {i : Nat} {purpose : Purpose} {peer : PeerRef}
    {timeout : Nat} (hc : n.calls[i]? = some (.claiming purpose slot peer timeout)) :
    ∃ n', n.step? (.call i) = some n' ∧
      ((∃ h, n.Holds slot h) ∧
          n' = (n.setCall i (.done (busyReply purpose))).logged (busyEntries purpose peer) ∨
        (¬ ∃ h, n.Holds slot h) ∧ n'.Holds slot (.claim i)) := by
  have hstep : n.step? (.call i) = some (n.claimStep i purpose slot peer timeout) := by
    simp [step?, hc, callStep?]
  refine ⟨_, hstep, ?_⟩
  unfold claimStep
  cases hbusy : n.isBusy slot with
  | true => exact .inl ⟨hn.busy.mp hbusy, rfl⟩
  | false =>
    refine .inr ⟨fun hheld => by simp [hn.busy.mpr hheld] at hbusy, ?_⟩
    rw [Holds, ofCall?_set _ hc (by rfl), if_pos rfl]
    rfl

/-- A slot becomes free exactly when the task of its attempt ends. -/
theorem Exclusive.released_iff {allowed : Act σ → Prop} (hn : n.Exclusive slot)
    (hcfg : n.config? slot = some cfg) (h : Happens allowed n n') :
    (n.isBusy slot = true ∧ n'.isBusy slot = false) ↔
      ∃ (k : Nat) (a : Attempt), n.attempts[k]? = some a ∧ a.slot = slot ∧
        a.isFinished = false ∧ n'.attemptFinished k = true := by
  -- an attempt that holds the slot afterwards has not ended
  have hended : ∀ k, n'.attemptFinished k = true → ¬ n'.Holds slot (.attempt k) := by
    rintro k hfinished ⟨a, ha, -, hrunning⟩
    simp [attemptFinished, ha, hrunning] at hfinished
  have hchange := slotChange_of_happens hcfg h
  constructor
  · rintro ⟨hbusy, hfree⟩
    cases hchange with
    | kept _ hbusy' | begun _ _ _ _ hbusy' => simp [hbusy', hbusy] at hfree
    | claimed _ hfree' => simp [hfree'] at hbusy
    | released k hk hholds =>
      obtain ⟨a, ha, hslot, hrunning⟩ := hk
      obtain ⟨a', ha', hfollows⟩ := (attemptsChange_of_happens h).exists_follows ha
      refine ⟨k, a, ha, hslot, hrunning, ?_⟩
      cases hfinished : a'.isFinished with
      | true => simp [attemptFinished, ha', hfinished]
      | false =>
        have hheld : n'.Holds slot (.attempt k) := ⟨a', ha', hfollows.slot.trans hslot, hfinished⟩
        exact absurd rfl ((hholds _).mp hheld).2
  · rintro ⟨k, a, ha, hslot, hrunning, hfinished⟩
    have hk : n.Holds slot (.attempt k) := ⟨a, ha, hslot, hrunning⟩
    have hbusy : n.isBusy slot = true := hn.busy.mpr ⟨_, hk⟩
    refine ⟨hbusy, ?_⟩
    cases hchange with
    | kept hholds => exact absurd ((hholds _).mpr hk) (hended k hfinished)
    | claimed _ hfree => simp [hfree] at hbusy
    | begun i _ hi => exact absurd (hn.unique _ _ hi hk) nofun
    | released _ _ _ hfree => exact hfree

end Node

end PeerProbe
