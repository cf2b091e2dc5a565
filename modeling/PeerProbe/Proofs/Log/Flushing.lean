import PeerProbe.Log.Queue

/-!
# What a flush waits for

Entries are shown to the sinks in the order in which they were queued, and a flush waits until as many
have been handled as had been counted when it was called. So an entry is seen before the flush returns
exactly if fewer entries than that are ahead of it.

An entry is counted only after it was queued, so the count may lack entries that are ahead of one that is
counted already: a flush that is called between the two steps of an emitter waits for one entry too few.
When no emitter is between its steps, all that were counted are shown.
-/

namespace PeerProbe.Log

/-- The number of entries that a worker has in its hands. -/
def Worker.load : Worker → Nat
  | .idle => 0
  | .passing _ _ | .passed _ => 1

/-- The number of steps that are left of the entry that a worker has in its hands. -/
def Worker.left : Worker → Nat
  | .idle => 0
  | .passing _ sinks => sinks.length + 2
  | .passed _ => 1

namespace Dispatch

variable {d d' : Dispatch} {a : Step} {s e p : Nat}

/-- The number of entries that were ever queued. -/
def accepted (d : Dispatch) : Nat := d.handled + d.worker.load + d.queue.length

/-- A sink is still to see an entry, and `p` entries were queued before that one. -/
inductive Awaits (d : Dispatch) (s e p : Nat) : Prop where
  | passing {sinks : List Nat} (hworker : d.worker = .passing e sinks) (hmem : s ∈ sinks)
      (hplace : p = d.handled)
  | queued (before after : List Nat) (hqueue : d.queue = before ++ e :: after) (hsink : s < d.sinks)
      (hplace : p = d.handled + d.worker.load + before.length)

/-- An entry that is awaited has not been handled. -/
theorem Awaits.handled_le (h : d.Awaits s e p) : d.handled ≤ p := by
  cases h <;> omega

/-- An entry that is awaited is one of those that were queued. -/
theorem Awaits.lt_accepted (h : d.Awaits s e p) : p < d.accepted := by
  unfold accepted
  cases h with
  | passing hworker _ hplace =>
    rw [hworker, hplace, Worker.load]
    omega
  | queued before after hqueue _ hplace =>
    rw [hqueue, List.length_append, List.length_cons]
    omega

/-! ## What the steps do -/

/-- What a step of the worker does. -/
theorem workStep_cases (h : d.workStep = some d') :
    (∃ e rest, d.worker = .idle ∧ d.queue = e :: rest ∧
      d' = { d with queue := rest, worker := .passing e (List.range d.sinks) }) ∨
    (∃ e s rest, d.worker = .passing e (s :: rest) ∧
      d' = { d with seen := (s, e) :: d.seen, worker := .passing e rest }) ∨
    (∃ e, d.worker = .passing e [] ∧ d' = { d with worker := .passed e }) ∨
    (∃ e, d.worker = .passed e ∧ d' = { d with handled := d.handled + 1, worker := .idle }) := by
  rw [workStep] at h
  split at h
  · next hworker =>
    split at h
    · cases h
    · next e rest hqueue => exact .inl ⟨e, rest, hworker, hqueue, (Option.some_inj.mp h).symm⟩
  · next e s rest hworker => exact .inr (.inl ⟨e, s, rest, hworker, (Option.some_inj.mp h).symm⟩)
  · next e hworker => exact .inr (.inr (.inl ⟨e, hworker, (Option.some_inj.mp h).symm⟩))
  · next e hworker => exact .inr (.inr (.inr ⟨e, hworker, (Option.some_inj.mp h).symm⟩))

/-- What a step of an emitter does. -/
theorem emitStep_cases {i : Nat} (h : d.emitStep i = some d') :
    (d.emitters[i]? = some .ready ∧ d.queue.length < d.capacity ∧
      d' = { d with queue := d.queue ++ [i], emitters := d.emitters.set i .queued }) ∨
    (d.emitters[i]? = some .ready ∧ ¬ d.queue.length < d.capacity ∧
      d' = { d with emitters := d.emitters.set i .refused }) ∨
    (d.emitters[i]? = some .queued ∧
      d' = { d with emitted := d.emitted + 1, emitters := d.emitters.set i .counted }) := by
  rw [emitStep] at h
  split at h
  · next hready =>
    split at h
    · next hroom => exact .inl ⟨hready, hroom, (Option.some_inj.mp h).symm⟩
    · next hfull => exact .inr (.inl ⟨hready, hfull, (Option.some_inj.mp h).symm⟩)
  · next hqueued => exact .inr (.inr ⟨hqueued, (Option.some_inj.mp h).symm⟩)
  · cases h

/-- What a flush does in a step. -/
inductive FlushStep (d : Dispatch) : Flush → Prop where
  | stays : FlushStep d d.flush
  | called (hidle : d.flush = .idle) : FlushStep d (.waiting d.emitted)
  | reached {target : Nat} (hwaiting : d.flush = .waiting target) (hle : target ≤ d.handled) :
      FlushStep d (.returned true)
  | gaveUp {target : Nat} (hwaiting : d.flush = .waiting target) : FlushStep d (.returned false)

/-- A step is one of the worker, one of an emitter, or it concerns only the flush and who listens. -/
theorem step_cases (h : d.step? a = some d') :
    d.workStep = some d' ∨ (∃ i, d.emitStep i = some d') ∨
      ∃ sinks flush, d.sinks ≤ sinks ∧ d.FlushStep flush ∧
        d' = { d with sinks := sinks, flush := flush } := by
  cases a with
  | emit i => exact .inr (.inl ⟨i, h⟩)
  | work => exact .inl h
  | register =>
    exact .inr (.inr ⟨_, _, Nat.le_succ _, .stays, (Option.some_inj.mp h).symm⟩)
  | flush =>
    rw [step?] at h
    split at h
    · next hidle =>
      exact .inr (.inr ⟨_, _, Nat.le_refl _, .called hidle, (Option.some_inj.mp h).symm⟩)
    · cases h
  | poll =>
    rw [step?] at h
    split at h
    · next target hwaiting =>
      split at h
      · next hle =>
        exact .inr (.inr ⟨_, _, Nat.le_refl _, .reached hwaiting hle, (Option.some_inj.mp h).symm⟩)
      · cases h
    · cases h
  | giveUp =>
    rw [step?] at h
    split at h
    · next target hwaiting =>
      exact .inr (.inr ⟨_, _, Nat.le_refl _, .gaveUp hwaiting, (Option.some_inj.mp h).symm⟩)
    · cases h

/-- What a step that is not the worker's leaves to the worker. -/
structure Beside (d d' : Dispatch) : Prop where
  worker : d'.worker = d.worker
  handled : d'.handled = d.handled
  seen : d'.seen = d.seen
  sinks : d.sinks ≤ d'.sinks
  queue : d.queue <+: d'.queue

/-- Only the worker shows and counts what was queued. -/
theorem work_or_beside (h : d.step? a = some d') : d.workStep = some d' ∨ Beside d d' := by
  obtain hwork | ⟨i, hemit⟩ | ⟨sinks, flush, hsinks, -, rfl⟩ := step_cases h
  · exact .inl hwork
  · right
    obtain ⟨-, -, rfl⟩ | ⟨-, -, rfl⟩ | ⟨-, rfl⟩ := emitStep_cases hemit
    · exact ⟨rfl, rfl, rfl, Nat.le_refl _, List.prefix_append _ _⟩
    · exact ⟨rfl, rfl, rfl, Nat.le_refl _, List.prefix_rfl⟩
    · exact ⟨rfl, rfl, rfl, Nat.le_refl _, List.prefix_rfl⟩
  · exact .inr ⟨rfl, rfl, rfl, hsinks, List.prefix_rfl⟩

/-- What has been seen has been seen. -/
theorem seen_of_step (h : d.step? a = some d') (hseen : (s, e) ∈ d.seen) : (s, e) ∈ d'.seen := by
  obtain hwork | hbeside := work_or_beside h
  · obtain ⟨_, _, -, -, rfl⟩ | ⟨_, _, _, -, rfl⟩ | ⟨_, -, rfl⟩ | ⟨_, -, rfl⟩ := workStep_cases hwork
    · exact hseen
    · exact List.mem_cons_of_mem _ hseen
    · exact hseen
    · exact hseen
  · rwa [hbeside.seen]

/-- An entry that is awaited is seen or awaited still, at its place, when the worker has made a step. -/
theorem Awaits.workStep (hawaits : d.Awaits s e p) (h : d.workStep = some d') :
    (s, e) ∈ d'.seen ∨ d'.Awaits s e p := by
  obtain ⟨e₀, rest, hworker, hqueue₀, rfl⟩ | ⟨e₀, s₀, rest, hworker, rfl⟩ | ⟨e₀, hworker, rfl⟩ |
    ⟨e₀, hworker, rfl⟩ := workStep_cases h
  · -- The first entry of the queue is taken, by all sinks of the moment.
    right
    cases hawaits with
    | passing hpassing => cases hworker.symm.trans hpassing
    | queued before after hqueue hsink hplace =>
      rw [hworker, Worker.load] at hplace
      cases before with
      | nil =>
        obtain ⟨rfl, rfl⟩ := List.cons.inj (hqueue₀.symm.trans hqueue)
        exact .passing rfl (List.mem_range.mpr hsink) hplace
      | cons b before =>
        obtain ⟨rfl, hrest⟩ := List.cons.inj (hqueue₀.symm.trans hqueue)
        refine .queued before after hrest hsink ?_
        rw [List.length_cons] at hplace
        simp only [Worker.load]
        omega
  · -- One more sink sees the entry.
    cases hawaits with
    | passing hpassing hmem hplace =>
      obtain ⟨rfl, rfl⟩ := Worker.passing.inj (hworker.symm.trans hpassing)
      obtain rfl | hmem := List.mem_cons.mp hmem
      · exact .inl List.mem_cons_self
      · exact .inr (.passing rfl hmem hplace)
    | queued before after hqueue hsink hplace =>
      rw [hworker] at hplace
      exact .inr (.queued before after hqueue hsink hplace)
  · right
    cases hawaits with
    | passing hpassing hmem =>
      obtain ⟨rfl, rfl⟩ := Worker.passing.inj (hworker.symm.trans hpassing)
      cases hmem
    | queued before after hqueue hsink hplace =>
      rw [hworker] at hplace
      exact .queued before after hqueue hsink hplace
  · right
    cases hawaits with
    | passing hpassing => cases hworker.symm.trans hpassing
    | queued before after hqueue hsink hplace =>
      rw [hworker, Worker.load] at hplace
      exact .queued before after hqueue hsink hplace

/-- An entry that is awaited is awaited still, at its place, beside the worker. -/
theorem Awaits.beside (hawaits : d.Awaits s e p) (h : Beside d d') : d'.Awaits s e p := by
  cases hawaits with
  | passing hworker hmem hplace =>
    exact .passing (h.worker.trans hworker) hmem (hplace.trans h.handled.symm)
  | queued before after hqueue hsink hplace =>
    obtain ⟨more, hmore⟩ := h.queue
    refine .queued before (after ++ more) ?_ (Nat.lt_of_lt_of_le hsink h.sinks) ?_
    · rw [← hmore, hqueue, List.append_assoc, List.cons_append]
    · rw [h.handled, h.worker, hplace]

/-- An entry that is awaited is seen or awaited still, at its place. -/
theorem Awaits.step (hawaits : d.Awaits s e p) (h : d.step? a = some d') :
    (s, e) ∈ d'.seen ∨ d'.Awaits s e p := by
  obtain hwork | hbeside := work_or_beside h
  · exact hawaits.workStep hwork
  · exact .inr (hawaits.beside hbeside)

/-! ## While a flush waits -/

/-- An entry does not get lost to a flush: it was seen, the flush waits for more entries than are ahead of
it, or the flush has given up. -/
inductive Guarded (target s e : Nat) (d : Dispatch) : Prop where
  | seen (hseen : (s, e) ∈ d.seen)
  | waiting {p : Nat} (hflush : d.flush = .waiting target) (hawaits : d.Awaits s e p) (hp : p < target)
  | gaveUp (hflush : d.flush = .returned false)

/-- Every step is one of the flush, or none. -/
theorem flushStep_of_step (h : d.step? a = some d') : d.FlushStep d'.flush := by
  obtain hwork | ⟨i, hemit⟩ | ⟨sinks, flush, -, hflush, rfl⟩ := step_cases h
  · obtain ⟨_, _, -, -, rfl⟩ | ⟨_, _, _, -, rfl⟩ | ⟨_, -, rfl⟩ | ⟨_, -, rfl⟩ := workStep_cases hwork
    · exact .stays
    · exact .stays
    · exact .stays
    · exact .stays
  · obtain ⟨-, -, rfl⟩ | ⟨-, -, rfl⟩ | ⟨-, rfl⟩ := emitStep_cases hemit
    · exact .stays
    · exact .stays
    · exact .stays
  · exact hflush

/-- A flush does not return in time before the entry it waits for is seen. -/
theorem Guarded.step {target : Nat} (hguarded : Guarded target s e d) (h : d.step? a = some d') :
    Guarded target s e d' := by
  have hflushStep := flushStep_of_step h
  generalize hflush' : d'.flush = flush' at hflushStep
  cases hguarded with
  | seen hseen => exact .seen (seen_of_step h hseen)
  | waiting hflush hawaits hp =>
    obtain hseen | hawaits' := hawaits.step h
    · exact .seen hseen
    cases hflushStep with
    | stays => exact .waiting (hflush'.trans hflush) hawaits' hp
    | called hidle => cases hflush.symm.trans hidle
    | gaveUp => exact .gaveUp hflush'
    | reached hwaiting hle =>
      obtain rfl := Flush.waiting.inj (hflush.symm.trans hwaiting)
      have := hawaits.handled_le
      omega
  | gaveUp hflush =>
    cases hflushStep with
    | stays => exact .gaveUp (hflush'.trans hflush)
    | called hidle => cases hflush.symm.trans hidle
    | reached hwaiting => cases hflush.symm.trans hwaiting
    | gaveUp hwaiting => cases hflush.symm.trans hwaiting

/-- What holds at first and is kept by every step holds when a run has come to an end. -/
theorem Runs.keeps {inv : Dispatch → Prop} {steps : List Step} (h : Runs d steps d')
    (hstep : ∀ {d d' : Dispatch} {a : Step}, d.step? a = some d' → inv d → inv d') (hinv : inv d) :
    inv d' := by
  induction h with
  | nil => exact hinv
  | cons hfirst _ ih => exact ih (hstep hfirst hinv)

/-- A flush is called once, and then waits for as many entries as have been counted. -/
theorem step?_flush (h : d.step? .flush = some d') :
    d.flush = .idle ∧ d' = { d with flush := .waiting d.emitted } := by
  rw [step?] at h
  split at h
  · next hidle => exact ⟨hidle, (Option.some_inj.mp h).symm⟩
  · cases h

/-- A flush that is called when fewer entries are ahead of an awaited one than have been counted returns
in time only when that one is seen. -/
theorem seen_of_flush {steps : List Step} (hrun : Runs d (.flush :: steps) d')
    (hreturned : d'.flush = .returned true)
    (h : (s, e) ∈ d.seen ∨ ∃ p < d.emitted, d.Awaits s e p) : (s, e) ∈ d'.seen := by
  cases hrun with
  | cons hflush hrest =>
    obtain ⟨-, rfl⟩ := step?_flush hflush
    have hguarded : Guarded d.emitted s e d' := by
      refine hrest.keeps (fun hstep hinv => hinv.step hstep) ?_
      obtain hseen | ⟨p, hp, hawaits⟩ := h
      · exact .seen hseen
      · exact .waiting rfl (hawaits.beside ⟨rfl, rfl, rfl, Nat.le_refl _, List.prefix_rfl⟩) hp
    cases hguarded with
    | seen hseen => exact hseen
    | waiting hwaiting => cases hreturned.symm.trans hwaiting
    | gaveUp hgaveUp => cases hreturned.symm.trans hgaveUp

/-! ## The worker by itself -/

/-- An entry that is awaited when the worker has made a step was so before. -/
theorem Awaits.of_workStep (h : d.workStep = some d') (hawaits : d'.Awaits s e p) : d.Awaits s e p := by
  obtain ⟨e₀, rest, hworker, hqueue₀, rfl⟩ | ⟨e₀, s₀, rest, hworker, rfl⟩ | ⟨e₀, hworker, rfl⟩ |
    ⟨e₀, hworker, rfl⟩ := workStep_cases h
  · cases hawaits with
    | passing hpassing hmem hplace =>
      obtain ⟨rfl, rfl⟩ := Worker.passing.inj hpassing
      refine .queued [] rest hqueue₀ (List.mem_range.mp hmem) ?_
      rw [hworker]
      exact hplace
    | queued before after hqueue hsink hplace =>
      refine .queued (e₀ :: before) after ?_ hsink ?_
      · rw [hqueue₀, show rest = before ++ e :: after from hqueue, List.cons_append]
      · simp only [Worker.load] at hplace
        rw [hworker, Worker.load, List.length_cons]
        omega
  · cases hawaits with
    | passing hpassing hmem hplace =>
      obtain ⟨rfl, rfl⟩ := Worker.passing.inj hpassing
      exact .passing hworker (List.mem_cons_of_mem _ hmem) hplace
    | queued before after hqueue hsink hplace =>
      refine .queued before after hqueue hsink ?_
      rw [hworker]
      exact hplace
  · cases hawaits with
    | passing hpassing => cases hpassing
    | queued before after hqueue hsink hplace =>
      refine .queued before after hqueue hsink ?_
      rw [hworker]
      exact hplace
  · cases hawaits with
    | passing hpassing => cases hpassing
    | queued before after hqueue hsink hplace =>
      refine .queued before after hqueue hsink ?_
      rw [hworker]
      exact hplace

/-- What is seen in a step of the worker is the entry in its hands. -/
theorem seen_of_workStep (h : d.workStep = some d') (hseen : (s, e) ∈ d'.seen) :
    (s, e) ∈ d.seen ∨ d.Awaits s e d.handled := by
  obtain ⟨_, _, -, -, rfl⟩ | ⟨e₀, s₀, rest, hworker, rfl⟩ | ⟨_, -, rfl⟩ | ⟨_, -, rfl⟩ :=
    workStep_cases h
  · exact .inl hseen
  · obtain hnew | hold := List.mem_cons.mp hseen
    · obtain ⟨rfl, rfl⟩ := Prod.mk.inj hnew
      exact .inr (.passing hworker List.mem_cons_self rfl)
    · exact .inl hold
  · exact .inl hseen
  · exact .inl hseen

/-- The steps that the worker has before it if nothing else happens. -/
def workLeft (d : Dispatch) : Nat := d.queue.length * (d.sinks + 3) + d.worker.left

/-- What a step of the worker leaves alone, and what it brings about. -/
structure Worked (d d' : Dispatch) : Prop where
  left : d'.workLeft + 1 = d.workLeft
  accepted : d'.accepted = d.accepted
  emitted : d'.emitted = d.emitted
  emitters : d'.emitters = d.emitters
  sinks : d'.sinks = d.sinks
  flush : d'.flush = d.flush

/-- A step of the worker is one of those it has before it, and concerns nothing else. -/
theorem worked_of_workStep (h : d.workStep = some d') : Worked d d' := by
  obtain ⟨e, rest, hworker, hqueue, rfl⟩ | ⟨e, s, rest, hworker, rfl⟩ | ⟨e, hworker, rfl⟩ |
    ⟨e, hworker, rfl⟩ := workStep_cases h
  · refine ⟨?_, ?_, rfl, rfl, rfl, rfl⟩
    · simp only [workLeft, Worker.left, hworker, hqueue, List.length_cons, List.length_range,
        Nat.add_mul]
      omega
    · simp only [Dispatch.accepted, hworker, hqueue, Worker.load, List.length_cons]
      omega
  · refine ⟨?_, ?_, rfl, rfl, rfl, rfl⟩
    · simp only [workLeft, Worker.left, hworker, List.length_cons]
      omega
    · rw [Dispatch.accepted, Dispatch.accepted, hworker]
      rfl
  · refine ⟨?_, ?_, rfl, rfl, rfl, rfl⟩
    · rw [workLeft, workLeft, hworker]
      rfl
    · rw [Dispatch.accepted, Dispatch.accepted, hworker]
      rfl
  · refine ⟨?_, ?_, rfl, rfl, rfl, rfl⟩
    · rw [workLeft, workLeft, hworker]
      rfl
    · rw [Dispatch.accepted, Dispatch.accepted, hworker]
      rfl

/-- The worker can make a step if not all that was queued has been handled. -/
theorem exists_workStep (h : d.handled < d.accepted) : ∃ d', d.workStep = some d' := by
  unfold workStep
  split
  · next hworker =>
    split
    · next hqueue =>
      rw [accepted, hworker, hqueue, Worker.load, List.length_nil] at h
      omega
    · exact ⟨_, rfl⟩
  · exact ⟨_, rfl⟩
  · exact ⟨_, rfl⟩
  · exact ⟨_, rfl⟩

/-- By itself the worker can handle any number of the entries that were queued, and shows no others. -/
theorem exists_worked {target : Nat} (h : target ≤ d.accepted) :
    ∃ steps d', Runs d steps d' ∧ target ≤ d'.handled ∧ d'.flush = d.flush ∧
      ∀ s e, (s, e) ∈ d'.seen → (s, e) ∈ d.seen ∨ ∃ p < target, d.Awaits s e p := by
  induction hleft : d.workLeft generalizing d with
  | zero =>
    refine ⟨[], d, .nil d, ?_, rfl, fun s e hseen => .inl hseen⟩
    refine Nat.le_of_not_lt fun hlt => ?_
    obtain ⟨d', hwork⟩ := exists_workStep (Nat.lt_of_lt_of_le hlt h)
    have hspec := (worked_of_workStep hwork).left
    omega
  | succ left ih =>
    obtain hle | hlt := Decidable.em (target ≤ d.handled)
    · exact ⟨[], d, .nil d, hle, rfl, fun s e hseen => .inl hseen⟩
    rw [Nat.not_le] at hlt
    obtain ⟨d₁, hwork⟩ := exists_workStep (Nat.lt_of_lt_of_le hlt h)
    have hworked := worked_of_workStep hwork
    obtain ⟨steps, d₂, hrun, hhandled, hflush₂, hseen₂⟩ := ih (d := d₁)
      (by rwa [hworked.accepted]) (Nat.add_right_cancel (hworked.left.trans hleft))
    refine ⟨.work :: steps, d₂, .cons hwork hrun, hhandled, hflush₂.trans hworked.flush, ?_⟩
    intro s e hseen
    obtain hseen₁ | ⟨p, hp, hawaits⟩ := hseen₂ s e hseen
    · obtain hseen₀ | hawaits := seen_of_workStep hwork hseen₁
      · exact .inl hseen₀
      · exact .inr ⟨d.handled, hlt, hawaits⟩
    · exact .inr ⟨p, hp, hawaits.of_workStep hwork⟩

/-! ## What has been queued and what has been counted -/

/-- The emitters that have queued their entry and not counted it, when one of them goes on. -/
theorem count_queued_set {emitters : List Emitter} {i : Nat} {x : Emitter}
    (h : emitters[i]? = some x) (y : Emitter) :
    (emitters.set i y).count .queued + (if x = .queued then 1 else 0) =
      emitters.count .queued + if y = .queued then 1 else 0 := by
  obtain ⟨hi, hx⟩ := List.getElem?_eq_some_iff.mp h
  have hpos : x = .queued → 0 < emitters.count .queued := by
    rintro rfl
    exact List.count_pos_iff.mpr (List.mem_of_getElem? h)
  rw [List.count_set hi, hx]
  simp only [beq_iff_eq]
  split
  · next hqueued =>
    have := hpos hqueued
    omega
  · omega

/-- What was queued has been counted, or its emitter is still to count it. -/
def Counts (d : Dispatch) : Prop := d.emitted + d.emitters.count .queued = d.accepted

/-- Every step keeps the counts. -/
theorem Counts.step (hcounts : d.Counts) (h : d.step? a = some d') : d'.Counts := by
  unfold Counts at *
  obtain hwork | ⟨i, hemit⟩ | ⟨sinks, flush, -, -, rfl⟩ := step_cases h
  · have hworked := worked_of_workStep hwork
    rwa [hworked.emitted, hworked.emitters, hworked.accepted]
  · unfold accepted at *
    obtain ⟨hx, -, rfl⟩ | ⟨hx, -, rfl⟩ | ⟨hx, rfl⟩ := emitStep_cases hemit
    · have hcount := count_queued_set hx .queued
      simp only [reduceCtorEq, if_true, if_false, List.length_append, List.length_singleton] at *
      omega
    · have hcount := count_queued_set hx .refused
      simp only [reduceCtorEq, if_false] at *
      omega
    · have hcount := count_queued_set hx .counted
      simp only [reduceCtorEq, if_true, if_false] at *
      omega
  · exact hcounts

/-- Nothing has been queued at first. -/
theorem counts_start (capacity emitters sinks : Nat) : (start capacity emitters sinks).Counts := by
  have hready : (List.replicate emitters Emitter.ready).count .queued = 0 := by
    rw [List.count_replicate]
    rfl
  exact (Nat.zero_add _).trans hready

/-- No more has been counted than was queued. -/
theorem Counts.emitted_le (h : d.Counts) : d.emitted ≤ d.accepted := Nat.le.intro h

/-- Every entry that was ever queued has been seen by each of the first sinks, or is awaited by it. -/
def Tracked (sinks : Nat) (d : Dispatch) : Prop :=
  sinks ≤ d.sinks ∧ ∀ e, d.emitters[e]? = some .queued ∨ d.emitters[e]? = some .counted →
    ∀ s < sinks, (s, e) ∈ d.seen ∨ ∃ p, d.Awaits s e p

/-- Every step keeps track of the entries. -/
theorem Tracked.step {sinks : Nat} (htracked : Tracked sinks d) (h : d.step? a = some d') :
    Tracked sinks d' := by
  obtain ⟨hsinks, hentries⟩ := htracked
  have keep {e : Nat} (he : d.emitters[e]? = some .queued ∨ d.emitters[e]? = some .counted) :
      ∀ s < sinks, (s, e) ∈ d'.seen ∨ ∃ p, d'.Awaits s e p := by
    intro s hs
    obtain hseen | ⟨p, hawaits⟩ := hentries e he s hs
    · exact .inl (seen_of_step h hseen)
    · exact (hawaits.step h).imp_right fun hawaits' => ⟨p, hawaits'⟩
  obtain hwork | ⟨i, hemit⟩ | ⟨sinks', flush, hle, -, rfl⟩ := step_cases h
  · have hworked := worked_of_workStep hwork
    refine ⟨by rwa [hworked.sinks], fun e he => keep ?_⟩
    rwa [← hworked.emitters]
  · obtain ⟨-, -, rfl⟩ | ⟨hx, -, rfl⟩ | ⟨hx, rfl⟩ := emitStep_cases hemit
    · refine ⟨hsinks, fun e he => ?_⟩
      by_cases hei : i = e
      · -- The new entry is the last one in the queue.
        subst hei
        intro s hs
        exact .inr ⟨_, .queued d.queue [] rfl (Nat.lt_of_lt_of_le hs hsinks) rfl⟩
      · simp only [List.getElem?_set_ne hei] at he
        exact keep he
    · refine ⟨hsinks, fun e he => keep ?_⟩
      by_cases hei : i = e
      · subst hei
        simp only [List.getElem?_set_self (List.getElem?_eq_some_iff.mp hx).1, Option.some_inj,
          reduceCtorEq, or_self] at he
      · simpa only [List.getElem?_set_ne hei] using he
    · refine ⟨hsinks, fun e he => keep ?_⟩
      by_cases hei : i = e
      · exact .inl (hei ▸ hx)
      · simpa only [List.getElem?_set_ne hei] using he
  · exact ⟨Nat.le_trans hsinks hle, fun e he => keep he⟩

/-- There is nothing to keep track of at first. -/
theorem tracked_start (capacity emitters sinks : Nat) :
    Tracked sinks (start capacity emitters sinks) := by
  refine ⟨Nat.le_refl sinks, fun e he => ?_⟩
  obtain he | he := he
  · cases List.eq_of_mem_replicate (List.mem_of_getElem? he)
  · cases List.eq_of_mem_replicate (List.mem_of_getElem? he)

/-- A flush that is called now does its duty: if it returns in time, every entry that has been counted
was shown to every sink there is. -/
def FlushHolds (d : Dispatch) : Prop :=
  ∀ steps d', Runs d (.flush :: steps) d' → d'.flush = .returned true →
    ∀ e, d.emitters[e]? = some .counted → ∀ s < d.sinks, (s, e) ∈ d'.seen

/-- When no emitter is between its two steps and no sink came late, a flush does its duty. -/
theorem flushHolds_of_counted {capacity emitters : Nat} {history : List Step}
    (hrun : Runs (start capacity emitters d.sinks) history d) (hcounted : .queued ∉ d.emitters) :
    FlushHolds d := by
  have hcounts : d.Counts :=
    hrun.keeps (fun hstep hcounts => hcounts.step hstep) (counts_start capacity emitters d.sinks)
  have htracked : Tracked d.sinks d :=
    hrun.keeps (fun hstep htracked => htracked.step hstep) (tracked_start capacity emitters d.sinks)
  have hemitted : d.emitted = d.accepted := by
    rw [← hcounts, List.count_eq_zero.mpr hcounted, Nat.add_zero]
  intro steps d' hflush hreturned e he s hs
  refine seen_of_flush hflush hreturned ((htracked.2 e (.inr he) s hs).imp_right ?_)
  rintro ⟨p, hawaits⟩
  exact ⟨p, hemitted ▸ hawaits.lt_accepted, hawaits⟩

/-- One run behind another. -/
theorem Runs.append {d'' : Dispatch} {steps more : List Step} (h : Runs d steps d')
    (hmore : Runs d' more d'') : Runs d (steps ++ more) d'' := by
  induction h with
  | nil => exact hmore
  | cons hfirst _ ih => exact .cons hfirst (ih hmore)

/-- The run in which the worker handles as many entries as have been counted, and nothing else happens but
the flush. -/
theorem exists_flushed (hcounts : d.Counts) (hidle : d.flush = .idle) :
    ∃ steps d', Runs d (.flush :: steps) d' ∧ d'.flush = .returned true ∧
      ∀ s e, (s, e) ∈ d'.seen → (s, e) ∈ d.seen ∨ ∃ p < d.emitted, d.Awaits s e p := by
  obtain ⟨steps, d₂, hrun, hhandled, hflush, hseen⟩ :=
    exists_worked (d := { d with flush := .waiting d.emitted }) hcounts.emitted_le
  have hcalled : d.step? .flush = some { d with flush := .waiting d.emitted } := by
    rw [step?, if_pos hidle]
  have hpoll : d₂.step? .poll = some { d₂ with flush := .returned true } := by
    rw [step?, hflush]
    exact if_pos hhandled
  refine ⟨steps ++ [.poll], _, .cons hcalled (hrun.append (.cons hpoll (.nil _))), rfl, ?_⟩
  intro s e hshown
  obtain hseen | ⟨p, hp, hawaits⟩ := hseen s e hshown
  · exact .inl hseen
  · exact .inr ⟨p, hp, hawaits.beside ⟨rfl, rfl, rfl, Nat.le_refl _, List.prefix_rfl⟩⟩

/-- Whatever has happened, a flush does its duty exactly if every counted entry has been seen, or has
fewer entries ahead of it than have been counted. -/
theorem flushHolds_iff {capacity emitters sinks : Nat} {history : List Step}
    (hrun : Runs (start capacity emitters sinks) history d) (hidle : d.flush = .idle) :
    FlushHolds d ↔ ∀ e, d.emitters[e]? = some .counted → ∀ s < d.sinks,
      (s, e) ∈ d.seen ∨ ∃ p < d.emitted, d.Awaits s e p := by
  have hcounts : d.Counts :=
    hrun.keeps (fun hstep hcounts => hcounts.step hstep) (counts_start capacity emitters sinks)
  constructor
  · intro h e he s hs
    obtain ⟨steps, d', hflush, hreturned, hseen⟩ := exists_flushed hcounts hidle
    exact hseen s e (h steps d' hflush hreturned e he s hs)
  · intro h steps d' hflush hreturned e he s hs
    exact seen_of_flush hflush hreturned (h e he s hs)

/-- Two entries, and one sink: they are queued and counted in turn. -/
def inTurn : Dispatch :=
  { start 2 2 1 with emitters := [.counted, .counted], queue := [0, 1], emitted := 2 }

/-- Entries that are counted in turn are shown. -/
theorem flushHolds_iff_inTurn :
    Runs (start 2 2 1) [.emit 0, .emit 0, .emit 1, .emit 1] inTurn ∧ inTurn.flush = .idle ∧
      FlushHolds inTurn := by
  have hrun : Runs (start 2 2 1) [.emit 0, .emit 0, .emit 1, .emit 1] inTurn :=
    .cons rfl (.cons rfl (.cons rfl (.cons rfl (.nil _))))
  refine ⟨hrun, rfl, (flushHolds_iff hrun rfl).mpr ?_⟩
  intro e he s hs
  right
  match e with
  | 0 => exact ⟨0, by decide, .queued [] [1] rfl hs rfl⟩
  | 1 => exact ⟨1, by decide, .queued [0] [] rfl hs rfl⟩
  | e + 2 => cases he

/-- Two entries, and one sink: the second one has been counted before the first one. -/
def overtaken : Dispatch :=
  { start 2 2 1 with emitters := [.queued, .counted], queue := [0, 1], emitted := 1 }

/-- A flush then waits for the entry that is not counted, and not for the one that is. -/
theorem not_flushHolds_overtaken :
    Runs (start 2 2 1) [.emit 0, .emit 1, .emit 1] overtaken ∧ ¬ FlushHolds overtaken := by
  refine ⟨.cons rfl (.cons rfl (.cons rfl (.nil _))), fun h => ?_⟩
  have hshown := h [.work, .work, .work, .work, .poll] _
    (.cons rfl (.cons rfl (.cons rfl (.cons rfl (.cons rfl (.cons rfl (.nil _))))))) rfl 1 rfl 0
    (by decide)
  revert hshown
  decide

end Dispatch

end PeerProbe.Log
