import PeerProbe.Proofs.Attempt.Commitment
import PeerProbe.Proofs.Node.Account

/-!
# What comes of a cancellation

Whoever cancels an attempt that has not reported expects that it never will, that its peer is
removed, and that the attempt ends soon. The attempt does end, whatever else happens. It ends without
a report exactly if it was not committed by then, and if there is a connection for its exchange in
case it still asks for one. A committed attempt reports all the same, and keeps its peer if the
report and the settings say so.
-/

namespace PeerProbe

namespace Attempt

variable {cfg : AttemptConfig} {a : Attempt}

/-- Nobody waits in vain for the report of an attempt that has let go of everything. -/
def ClosesReport (a : Attempt) : Prop :=
  a.phase = .releasing ∨ a.phase = .finished → a.reportClosed = true

/-- What an attempt that has ended answers: its report, or that there is none. -/
theorem ClosesReport.answer? (ha : a.ClosesReport) (hfinished : a.isFinished = true) :
    a.answer? = some a.report := by
  have hclosed := ha (.inr (by simpa [isFinished] using hfinished))
  unfold Attempt.answer?
  split
  · next hreport => rw [hreport]
  · next hreport => rw [hreport, hclosed, if_pos rfl]

section Steps

variable {σ : Type} [Transport σ] {now : Nat} {t : σ} {s : Stepped σ}

/-- The step behind which nobody waits in vain closes the report. -/
theorem ClosesReport.step? (ha : a.ClosesReport) (h : a.step? cfg now t = some s) :
    s.1.ClosesReport := by
  intro hphase'
  have hgoes := goes_of_step? h
  unfold Attempt.step? at h
  cases hphase : a.phase with
  | closing conn =>
    simp only [hphase, Option.some.injEq] at h
    subst h
    rfl
  | releasing =>
    simp only [hphase, Option.some.injEq] at h
    subst h
    exact ha (.inl hphase)
  | _ =>
    rw [hphase] at hgoes
    generalize s.1.phase = q at hgoes hphase'
    cases hgoes <;> simp at hphase'

omit [Transport σ] in
/-- The removal is done on the way from one phase only. -/
theorem phase_of_remove_mem {p q : AttemptPhase} (h : .remove ∈ p.actsTo cfg q) :
    ∃ conn, p = .removing conn := by
  cases p with
  | removing conn => exact ⟨conn, rfl⟩
  | watching => cases q <;> simp [AttemptPhase.actsTo] at h
  | keeping conn | resuming conn =>
    cases conn <;> cases q <;> simp [AttemptPhase.actsTo] at h
  | _ => simp [AttemptPhase.actsTo] at h

/-- A step that notes a removal removes the peer. -/
theorem transport_of_remove_mem (h : a.step? cfg now t = some s)
    (hremove : .remove ∈ a.phase.actsTo cfg s.1.phase) : s.2.1 = Transport.remove a.peer t := by
  obtain ⟨conn, hphase⟩ := phase_of_remove_mem hremove
  simp only [Attempt.step?, hphase, Option.some.injEq] at h
  subst h
  rfl

end Steps

end Attempt

namespace Node

variable {σ : Type} [Transport σ] {n n' : Node σ} {slot k : Nat} {cfg : AttemptConfig}
  {a : Attempt} {allowed : Act σ → Prop} {first : Node σ}

/-! ## The end of an attempt -/

/-- An attempt that has ended answers whoever waits for its report. -/
theorem Unused.closesReport (hfirst : first.Unused slot cfg) (h : Reachable allowed first n)
    (ha : n.attempts[k]? = some a) (hslot : a.slot = slot) : a.ClosesReport := by
  refine hfirst.holds (fun _ _ _ _ => nofun) (fun _ _ _ _ ha hs => ha.step? hs) (fun _ ha => ha)
    (fun a now t r ha hr => ?_) h ha hslot
  obtain ⟨w, -, rfl⟩ := Attempt.exists_of_watcherStep? hr
  exact ha

/-- In a run, a step of an attempt removed its peer from the transport. -/
def RemovedPeer (allowed : Act σ → Prop) (first n : Node σ) (k : Nat) (peer : PeerRef) : Prop :=
  ∃ x y, Reachable allowed first x ∧ x.step? (.attempt k) = some y ∧
    y.transport = Transport.remove peer x.transport ∧ Reachable allowed y n

/-- An attempt that has noted a removal has removed its peer. -/
theorem Unused.removedPeer (hfirst : first.Unused slot cfg) (h : Reachable allowed first n)
    (ha : n.attempts[k]? = some a) (hslot : a.slot = slot) (hremove : .remove ∈ a.history) :
    RemovedPeer allowed first n k a.peer := by
  induction h generalizing a with
  | first => exact absurd hslot (hfirst.attempts k a ha)
  | @next n n' hreach hstep ih =>
    obtain ⟨timeout, hcreated⟩ | ⟨b, hb, hbslot, hfrom⟩ := hfirst.origin hreach hstep ha hslot
    · rw [hcreated] at hremove
      simp [Attempt.create] at hremove
    have hbefore (hmem : .remove ∈ b.history) : RemovedPeer allowed first n' k b.peer := by
      obtain ⟨x, y, hx, hxy, htransport, hy⟩ := ih hb hbslot hmem
      exact ⟨x, y, hx, hxy, htransport, .next hy hstep⟩
    obtain ⟨hown, s, hs, rfl, htransport⟩ | haside := hfrom
    · rw [(Attempt.advance_of_step? hs).peer]
      rw [(Attempt.does_of_step? hs).history, List.mem_append] at hremove
      obtain hmem | hnow := hremove
      · exact hbefore hmem
      · refine ⟨n, n', hreach, hown, ?_, .first⟩
        rw [htransport, Attempt.transport_of_remove_mem hs hnow]
    · have hsame := sameCourse_of_aside haside
      rw [hsame.peer]
      exact hbefore (hsame.history ▸ hremove)

/-- A cancelled attempt can be run to its end. -/
theorem exists_finished_of_cancelled (allowed : Act σ → Prop)
    (hn : n.AttemptHas slot cfg (IsCancelled cfg) k) :
    ∃ m, Reachable allowed n m ∧ m.attemptFinished k = true := by
  induction hrank : n.measured Attempt.unwinding k using Nat.strongRecOn generalizing n with
  | _ rank ih =>
    have hnothing : Counted allowed [.attempt k, .watcher k] n 0 n := .first
    obtain hfinished | ⟨-, task, htask, hsome⟩ := finished_or_unwinds hn hnothing
    · exact ⟨n, .first, hfinished⟩
    · obtain ⟨n', hn'⟩ := Option.isSome_iff_exists.mp hsome
      have hstep : Happens allowed n n' := .step task hn'
      have hlt := unwinding_lt hn htask hn'
      obtain ⟨m, hm, hfinished⟩ := ih _ (hrank ▸ hlt) ((ranked_isCancelled cfg).happens hn hstep).1 rfl
      exact ⟨m, Reachable.trans (.next .first hstep) hm, hfinished⟩

/-! ## Committed attempts -/

/-- A cancelled attempt that is committed, or has reported already. -/
def IsCommitted (cfg : AttemptConfig) (now : Nat) (a : Attempt) : Prop :=
  IsCancelled cfg now a ∧ (a.Committed cfg ∨ a.report.isSome = true)

/-- To be committed or to have reported lasts. -/
theorem ranked_isCommitted (cfg : AttemptConfig) :
    Ranked σ cfg (IsCommitted cfg) Attempt.unwinding where
  step now now' a t s ha hnow hs := by
    obtain ⟨hcancelled, hlt⟩ := (ranked_isCancelled cfg).step now now' a t s ha.1 hnow hs
    have hreport := (Attempt.does_of_step? hs).report
    refine ⟨⟨hcancelled, ?_⟩, hlt⟩
    obtain hcommitted | hreported := ha.2
    · exact hcommitted.goes (Attempt.goes_of_step? hs) hreport (Attempt.advance_of_step? hs).watcher
    · right
      rw [hreport]
      unfold AttemptPhase.reported
      split
      · rfl
      · exact hreported
  aside now now' a a' ha hnow h := by
    obtain ⟨hcancelled, hle⟩ := (ranked_isCancelled (σ := σ) cfg).aside now now' a a' ha.1 hnow h
    exact ⟨⟨hcancelled, ha.2.imp (·.sameCourse h) fun hr => by rw [h.report, hr]⟩, hle⟩

/-- A cancelled attempt that is committed has reported in the end, and can be run to its end. -/
theorem exists_reported_of_committed (allowed : Act σ → Prop)
    (hn : n.AttemptHas slot cfg (IsCommitted cfg) k) :
    ∃ m b, Reachable allowed n m ∧ m.attempts[k]? = some b ∧ b.report.isSome = true := by
  obtain ⟨hcfg, a, ha, hslot, hcancelled, hcommitted⟩ := hn
  obtain ⟨m, hm, hfinished⟩ :=
    exists_finished_of_cancelled allowed ⟨hcfg, a, ha, hslot, hcancelled⟩
  obtain ⟨-, b, hb, -, -, hb'⟩ :=
    (ranked_isCommitted cfg).reachable ⟨hcfg, a, ha, hslot, hcancelled, hcommitted⟩ hm
  have hphase : b.phase = .finished := by
    simpa [attemptFinished, hb, Attempt.isFinished] using hfinished
  refine ⟨m, b, hm, hb, hb'.resolve_left ?_⟩
  rintro (⟨hearly, -, -⟩ | hmade)
  · simp [hphase, AttemptPhase.isEarly] at hearly
  · simp [hphase] at hmade

/-! ## What a cancellation promises -/

/-- What the caller who cancels an attempt expects of it from then on. -/
structure Withdrawn (allowed : Act σ → Prop) (first n : Node σ) (k : Nat) : Prop where
  /-- It never reports. -/
  unreported : ∀ m b, Reachable allowed n m → m.attempts[k]? = some b → b.report = none
  /-- When it has ended, whoever waits for the report learns that there is none. -/
  told : ∀ m b, Reachable allowed n m → m.attempts[k]? = some b → b.isFinished = true →
    b.answer? = some none
  /-- It removes its peer, once, before it is over. -/
  removed : ∀ m b, Reachable allowed n m → m.attempts[k]? = some b → b.phase.isOver = true →
    b.history.count .remove = 1 ∧ RemovedPeer allowed first m k b.peer
  /-- It ends by its own steps and those of its watcher, whatever else happens. -/
  ends : ∀ count m, Counted allowed [.attempt k, .watcher k] n count m →
    m.attemptFinished k = true ∨ count < n.measured Attempt.unwinding k ∧
      ∃ task ∈ [Task.attempt k, .watcher k], (m.step? task).isSome = true

/-- In some run, an attempt asks for the connection of its exchange where there is none. -/
def MissesConnection (allowed : Act σ → Prop) (n : Node σ) (k : Nat) : Prop :=
  ∃ m b peer, Reachable allowed n m ∧ m.attempts[k]? = some b ∧ b.phase = .taking peer ∧
    (Transport.take peer m.transport).1 = none

/-- A cancelled attempt that has not reported and is not committed. -/
structure IsFree (cfg : AttemptConfig) (a : Attempt) : Prop where
  cancelled : a.cancelled = true
  unreported : a.report = none
  uncommitted : ¬ a.Committed cfg

/-- Where no connection is missed, an attempt that is free stays so. -/
theorem isFree_of_reachable (hcfg : n.config? slot = some cfg) (ha : n.attempts[k]? = some a)
    (hslot : a.slot = slot) (hfree : IsFree cfg a) (hmisses : ¬ MissesConnection allowed n k)
    {m : Node σ} (h : Reachable allowed n m) :
    ∃ b, m.attempts[k]? = some b ∧ b.slot = slot ∧ IsFree cfg b := by
  induction h with
  | first => exact ⟨a, ha, hslot, hfree⟩
  | @next m m' hreach hstep ih =>
    obtain ⟨b, hb, hbslot, hbfree⟩ := ih
    obtain ⟨hcancelled, hnone, huncommitted⟩ := hbfree
    obtain hown | ⟨b', hb', hsame⟩ := step?_or_sameCourse hstep hb
    · have hcfg' := config?_of_reachable hcfg hreach
      obtain ⟨s, hs, hb', -⟩ := exists_of_step?_attempt (by rw [hbslot, hcfg']) hb hown
      have hadvance := Attempt.advance_of_step? hs
      have hreport := (Attempt.does_of_step? hs).report
      refine ⟨s.1, hb', hadvance.slot.trans hbslot, hadvance.cancelled.trans hcancelled, ?_,
        fun hcommitted => ?_⟩
      · rw [hreport]
        unfold AttemptPhase.reported
        split
        · next hphase => exact absurd (.made hphase) huncommitted
        · exact hnone
      · obtain hbefore | ⟨peer, hphase, hmade⟩ :=
          hcommitted.of_goes (Attempt.goes_of_step? hs) hcancelled hadvance.watcher
        · exact huncommitted hbefore
        · exact hmisses ⟨m, b, peer, hreach, hb, hphase,
            Attempt.take_eq_none_of_step? hs hphase hmade⟩
    · exact ⟨b', hb', hsame.slot.trans hbslot, hsame.cancelled hcancelled,
        hsame.report.trans hnone, fun hcommitted => huncommitted (hsame.committed hcancelled hcommitted)⟩

/-- A cancelled attempt that is committed reports in some run. -/
theorem not_withdrawn_of_committed (hn : n.AttemptHas slot cfg (IsCommitted cfg) k)
    {m : Node σ} (hm : Reachable allowed m n) : ¬ Withdrawn allowed first m k := by
  intro hwithdrawn
  obtain ⟨m', b, hm', hb, hreported⟩ := exists_reported_of_committed allowed hn
  have hnone := hwithdrawn.unreported m' b (hm.trans hm') hb
  simp [hnone] at hreported

/-- An attempt that asks for a connection where there is none is committed a step later. -/
theorem exists_committed_of_misses (hn : n.AttemptHas slot cfg (IsCancelled cfg) k)
    (hmisses : MissesConnection allowed n k) :
    ∃ m, Reachable allowed n m ∧ m.AttemptHas slot cfg (IsCommitted cfg) k := by
  obtain ⟨m, b, peer, hm, hb, hphase, hnone⟩ := hmisses
  have hnm := (ranked_isCancelled cfg).reachable hn hm
  obtain ⟨hcfg, b', hb', hslot, htakes, hcancelled⟩ := hnm
  obtain rfl := Option.some.inj (hb.symm.trans hb')
  have hrunning : b.isFinished = false := by simp [Attempt.isFinished, hphase]
  have hgo : (b.step? cfg m.now m.transport).isSome = true :=
    Attempt.isSome_step? hrunning htakes (by simp [hphase]) fun _ => hcancelled
  obtain ⟨s, hs⟩ := Option.isSome_iff_exists.mp hgo
  obtain ⟨m', hm'⟩ := Option.isSome_iff_exists.mp (isSome_step?_attempt (by rw [hslot, hcfg]) hb hs)
  have hstep : Happens allowed m m' := .step _ hm'
  obtain ⟨hcfg', c, hc, hcslot, hccancelled⟩ :=
    ((ranked_isCancelled cfg).happens ⟨hcfg, b, hb, hslot, htakes, hcancelled⟩ hstep).1
  obtain ⟨s', hs', hb', -⟩ := exists_of_step?_attempt (by rw [hslot, hcfg]) hb hm'
  obtain rfl := Option.some.inj (hc.symm.trans hb')
  exact ⟨m', .next hm hstep, hcfg', _, hc, hcslot, hccancelled,
    .inl (Attempt.committed_of_take_eq_none hs' hphase hnone)⟩

/-- An attempt that was cancelled before it reported does what its caller expects exactly if it was
not committed by then, and in no run misses the connection for its exchange. -/
theorem withdrawn_iff (hfirst : first.Unused slot cfg) (h : Reachable allowed first n)
    (ha : n.attempts[k]? = some a) (hslot : a.slot = slot) (hcancelled : a.cancelled = true)
    (hnone : a.report = none) :
    Withdrawn allowed first n k ↔ ¬ a.Committed cfg ∧ ¬ MissesConnection allowed n k := by
  have hcfg := config?_of_reachable hfirst.config h
  have htakes := (lasting_takesForExchange cfg).reachable hfirst h k a ha hslot
  have hn : n.AttemptHas slot cfg (IsCancelled cfg) k := ⟨hcfg, a, ha, hslot, htakes, hcancelled⟩
  constructor
  · intro hwithdrawn
    refine ⟨fun hcommitted => ?_, fun hmisses => ?_⟩
    · have hn' : n.AttemptHas slot cfg (IsCommitted cfg) k :=
        ⟨hcfg, a, ha, hslot, ⟨htakes, hcancelled⟩, .inl hcommitted⟩
      exact not_withdrawn_of_committed hn' .first hwithdrawn
    · obtain ⟨m, hm, hcommitted⟩ := exists_committed_of_misses hn hmisses
      exact not_withdrawn_of_committed hcommitted hm hwithdrawn
  · rintro ⟨huncommitted, hmisses⟩
    have hfree (m : Node σ) (b : Attempt) (hm : Reachable allowed n m)
        (hb : m.attempts[k]? = some b) : b.slot = slot ∧ b.report = none := by
      obtain ⟨b', hb', hbslot, hbfree⟩ :=
        isFree_of_reachable hcfg ha hslot ⟨hcancelled, hnone, huncommitted⟩ hmisses hm
      obtain rfl := Option.some.inj (hb.symm.trans hb')
      exact ⟨hbslot, hbfree.unreported⟩
    refine ⟨fun m b hm hb => (hfree m b hm hb).2, fun m b hm hb hfinished => ?_,
      fun m b hm hb hover => ?_, fun count m hm => finished_or_unwinds hn hm⟩
    · obtain ⟨hbslot, hbnone⟩ := hfree m b hm hb
      rw [(hfirst.closesReport (h.trans hm) hb hbslot).answer? hfinished, hbnone]
    · obtain ⟨hbslot, hbnone⟩ := hfree m b hm hb
      have hsound := (lasting_sound cfg).reachable hfirst (h.trans hm) k b hb hbslot
      have hkeeps : b.keepsPeer cfg = false := Attempt.keepsPeer_of_report_eq_none hbnone
      have hremove := (hfirst.settled (h.trans hm) hb hbslot hover).2.mpr hkeeps
      have hunwound : b.stage = .unwound := by
        unfold Attempt.stage
        generalize b.phase = p at hover
        cases p <;> first | rfl | contradiction
      exact ⟨by rw [hsound.removals, if_pos ⟨hunwound, hkeeps⟩],
        hfirst.removedPeer (h.trans hm) hb hbslot hremove⟩

/-- Settings without a status exchange that leave a connected peer as it is. -/
def keepingConfig : AttemptConfig := { plainConfig with disconnect := false }

/-- The tasks of an attempt that a call asks for. -/
def attemptTasks : List Task := [.call 0, .attempt 0, .watcher 0]

/-- A new node whose peers answer dials at once. -/
def promptNode : Node InProcess :=
  create (.create (some ownRef) [⟨none, none, .event .added none⟩]) keepingConfig 1000

/-- An attempt on a peer is cancelled after so many steps. -/
def cancelledNode (steps : Nat) : Node InProcess :=
  (promptNode.perform attemptTasks steps [.order (.attempt false 1 guestRef 1000)]).act
    (.cancelAttempt 0)

/-- Such a node is reached from the new one. -/
theorem reachable_cancelledNode (steps : Nat) :
    Reachable (fun _ => True) promptNode (cancelledNode steps) :=
  .next (reachable_perform _ _ _ fun _ _ => trivial) (.act _ _ trivial)

/-- Without an exchange no connection is missed. -/
theorem not_missesConnection_of_plain (hfirst : first.Unused slot cfg)
    (h : Reachable allowed first n) (ha : n.attempts[k]? = some a) (hslot : a.slot = slot)
    (hplain : cfg.exchange = none) : ¬ MissesConnection allowed n k := by
  rintro ⟨m, b, peer, hm, hb, hphase, -⟩
  obtain ⟨b', hb', hbslot, -⟩ := exists_attempt_of_reachable hm ha
  obtain rfl := Option.some.inj (hb.symm.trans hb')
  have htakes := (lasting_takesForExchange cfg).reachable hfirst (h.trans hm) k b hb
    (hbslot.trans hslot)
  simpa [hplain] using htakes peer hphase

/-- The attempt is cancelled while its watcher waits, with the connection announced already, and
does what its caller expects. -/
theorem withdrawn_iff_waitingWatcher :
    ∃ a, (cancelledNode 6).attempts[0]? = some a ∧ a.cancelled = true ∧ a.report = none ∧
      (Withdrawn (fun _ => True) promptNode (cancelledNode 6) 0 ↔
        ¬ a.Committed keepingConfig ∧ ¬ MissesConnection (fun _ => True) (cancelledNode 6) 0) ∧
      Withdrawn (fun _ => True) promptNode (cancelledNode 6) 0 := by
  obtain ⟨a, ha⟩ : ∃ a, (cancelledNode 6).attempts[0]? = some a :=
    Option.isSome_iff_exists.mp (by decide +kernel)
  have hfacts : ((cancelledNode 6).attempts[0]?.map fun a =>
      (a.slot, a.cancelled, a.report, a.phase, a.watcher.phase)) =
        some (1, true, none, .watching, .waiting 1000) := by
    decide +kernel
  simp only [ha, Option.map_some, Option.some.injEq, Prod.mk.injEq] at hfacts
  obtain ⟨hslot, hcancelled, hreport, hphase, hwatcher⟩ := hfacts
  have hfirst : promptNode.Unused 1 keepingConfig := unused_create_one _ _ _
  have hreach := reachable_cancelledNode 6
  have hiff := withdrawn_iff hfirst hreach ha hslot hcancelled hreport
  refine ⟨a, ha, hcancelled, hreport, hiff, hiff.mpr ⟨?_, ?_⟩⟩
  · rintro (⟨-, ho, -⟩ | hmade)
    · simp [Watcher.decision?, hwatcher] at ho
    · simp [hphase] at hmade
  · exact not_missesConnection_of_plain hfirst hreach ha hslot rfl

/-- One step later the watcher has decided. The attempt is cancelled before it reports, it reports a
connection all the same, and the peer is kept. -/
theorem not_withdrawn_of_decided :
    ∃ a b, (cancelledNode 7).attempts[0]? = some a ∧ a.cancelled = true ∧ a.report = none ∧
      ((cancelledNode 7).runTasks attemptTasks 30).attempts[0]? = some b ∧
      b.isFinished = true ∧ b.answer? = some (some (.connected guestRef)) ∧
      .remove ∉ b.history ∧ ¬ Withdrawn (fun _ => True) promptNode (cancelledNode 7) 0 := by
  obtain ⟨a, ha⟩ : ∃ a, (cancelledNode 7).attempts[0]? = some a :=
    Option.isSome_iff_exists.mp (by decide +kernel)
  obtain ⟨b, hb⟩ : ∃ b, ((cancelledNode 7).runTasks attemptTasks 30).attempts[0]? = some b :=
    Option.isSome_iff_exists.mp (by decide +kernel)
  have hbefore : ((cancelledNode 7).attempts[0]?.map fun a => (a.cancelled, a.report)) =
      some (true, none) := by
    decide +kernel
  have hafter : (((cancelledNode 7).runTasks attemptTasks 30).attempts[0]?.map fun b =>
      (b.isFinished, b.report, b.history.count .remove)) =
        some (true, some (.connected guestRef), 0) := by
    decide +kernel
  simp only [ha, hb, Option.map_some, Option.some.injEq, Prod.mk.injEq] at hbefore hafter
  obtain ⟨hcancelled, hnone⟩ := hbefore
  obtain ⟨hfinished, hreport, hremove⟩ := hafter
  refine ⟨a, b, ha, hcancelled, hnone, hb, hfinished, by simp [Attempt.answer?, hreport],
    List.count_eq_zero.mp hremove, fun hwithdrawn => ?_⟩
  have hunreported := hwithdrawn.unreported _ b (reachable_runTasks _ attemptTasks 30 _) hb
  simp [hreport] at hunreported

end Node

end PeerProbe
