import PeerProbe.Proofs.Attempt.Ways
import PeerProbe.Proofs.Node.Unwinding

/-!
# What an attempt of a node has done

An attempt begins in the step that subscribes for it, and from then on its own steps alone do
something in its name. So the notes of an attempt are an account of what it asked of the transport
and what it showed, and the account follows one of a few ways in every run.

An attempt that ends without a report had a watcher without an outcome, or was cancelled in its
exchange. It removes its peer all the same, and nothing keeps it from doing so.
-/

namespace PeerProbe

namespace Node

variable {σ : Type} [Transport σ] {n n' : Node σ} {slot k : Nat} {cfg : AttemptConfig}
  {a : Attempt} {allowed : Act σ → Prop} {first : Node σ}

/-- What is done to a node leaves an attempt as it is, or cancels it. -/
theorem kept_or_cancelled_of_act (act : Act σ) (ha : n.attempts[k]? = some a) :
    ∃ a', (n.act act).attempts[k]? = some a' ∧ (a' = a ∨ a' = a.cancel) := by
  cases act with
  | cancelAttempt j =>
    by_cases hj : j = k
    · subst hj
      exact ⟨a.cancel, by simp [Node.act, cancelAttempt, ha], .inr rfl⟩
    · exact ⟨a, (List.getElem?_modify_ne _ _ hj).trans ha, .inl rfl⟩
  | order | watch | cancelWatch | addSlot | move | wait => exact ⟨a, ha, .inl rfl⟩

/-- So do the steps of other tasks than its own and its watcher's. -/
theorem kept_or_cancelled_of_step? {task : Task} (hattempt : task ≠ .attempt k)
    (hwatcher : task ≠ .watcher k) (h : n.step? task = some n') (ha : n.attempts[k]? = some a) :
    ∃ a', n'.attempts[k]? = some a' ∧ (a' = a ∨ a' = a.cancel) := by
  have hlt := (List.getElem?_eq_some_iff.mp ha).1
  have hkept {n' : Node σ} (h : n'.attempts[k]? = some a) :
      ∃ a', n'.attempts[k]? = some a' ∧ (a' = a ∨ a' = a.cancel) := ⟨a, h, .inl rfl⟩
  cases stepped_of_step? h with
  | @attempt j =>
    have hj : j ≠ k := fun hj => hattempt (hj ▸ rfl)
    exact hkept (by split <;> exact (List.getElem?_set_ne hj).trans ha)
  | @watcher j =>
    have hj : j ≠ k := fun hj => hwatcher (hj ▸ rfl)
    exact hkept ((List.getElem?_set_ne hj).trans ha)
  | openWatch | held | background => exact hkept ha
  | call hc hcall hreach =>
    cases hreach with
    | apart hsame => exact hkept (by rw [hsame.attempts, ha])
    | claim => exact hkept ha
    | begin => exact hkept ((List.getElem?_append_left hlt).trans ha)
    | cancel j => exact kept_or_cancelled_of_act (.cancelAttempt j) ha

/-- A step of the watcher of an attempt is a step of its task. -/
theorem exists_of_step?_watcher (ha : n.attempts[k]? = some a)
    (h : n.step? (.watcher k) = some n') :
    ∃ r, a.watcherStep? n.now n.transport = some r ∧ n'.attempts[k]? = some r.1 ∧
      n'.transport = r.2.1 := by
  have hlt := (List.getElem?_eq_some_iff.mp ha).1
  cases stepped_of_step? h with
  | @watcher _ b r hb hr =>
    obtain rfl := Option.some.inj (ha.symm.trans hb)
    exact ⟨r, hr, List.getElem?_set_self hlt, rfl⟩

/-- Whatever happens is a step of an attempt, or it is left as it is, is cancelled, or its watcher
takes a step. -/
theorem step?_or_aside (h : Happens allowed n n') (ha : n.attempts[k]? = some a) :
    n.step? (.attempt k) = some n' ∨ ∃ a', n'.attempts[k]? = some a' ∧
      ((a' = a ∨ a' = a.cancel) ∨ ∃ r, a.watcherStep? n.now n.transport = some r ∧ a' = r.1) := by
  cases h with
  | act act =>
    obtain ⟨a', ha', hsame⟩ := kept_or_cancelled_of_act act ha
    exact .inr ⟨a', ha', .inl hsame⟩
  | step task h =>
    by_cases hattempt : task = .attempt k
    · exact .inl (hattempt ▸ h)
    right
    by_cases hwatcher : task = .watcher k
    · obtain ⟨r, hr, ha', -⟩ := exists_of_step?_watcher ha (hwatcher ▸ h)
      exact ⟨r.1, ha', .inr ⟨r, hr, rfl⟩⟩
    · obtain ⟨a', ha', hsame⟩ := kept_or_cancelled_of_step? hattempt hwatcher h ha
      exact ⟨a', ha', .inl hsame⟩

/-- The course of an attempt that is left as it is, is cancelled or has its watcher take a step is left
alone. -/
theorem sameCourse_of_aside {a' : Attempt} {now : Nat} {t : σ}
    (h : (a' = a ∨ a' = a.cancel) ∨ ∃ r, a.watcherStep? now t = some r ∧ a' = r.1) :
    a.SameCourse a' := by
  obtain hsame | ⟨r, hr, rfl⟩ := h
  · exact Attempt.sameCourse_of_kept_or_cancelled hsame
  · exact Attempt.sameCourse_of_watcherStep? hr

/-- Whatever happens is a step of an attempt, or leaves the course of the attempt alone. -/
theorem step?_or_sameCourse (h : Happens allowed n n') (ha : n.attempts[k]? = some a) :
    n.step? (.attempt k) = some n' ∨ ∃ a', n'.attempts[k]? = some a' ∧ a.SameCourse a' :=
  (step?_or_aside h ha).imp id fun ⟨a', ha', haside⟩ => ⟨a', ha', sameCourse_of_aside haside⟩

/-- An attempt stays in its slot and with its peer. -/
theorem exists_attempt_of_reachable (h : Reachable allowed n n') (ha : n.attempts[k]? = some a) :
    ∃ a', n'.attempts[k]? = some a' ∧ a'.slot = a.slot ∧ a'.peer = a.peer := by
  induction h with
  | first => exact ⟨a, ha, rfl, rfl⟩
  | next _ hstep ih =>
    obtain ⟨b, hb, hslot, hpeer⟩ := ih
    obtain ⟨b', hb', hfollows⟩ := (attemptsChange_of_happens hstep).exists_follows hb
    exact ⟨b', hb', hfollows.slot.trans hslot, hfollows.peer.trans hpeer⟩

/-! ## The beginning -/

/-- A new attempt begins in a step that subscribes for it. -/
theorem begins_of_happens (h : Happens allowed n n') (hnew : n.attempts[k]? = none)
    (ha : n'.attempts[k]? = some a) :
    n.attempts.length = k ∧ n'.transport = (Transport.subscribe n.transport).2 ∧
      ∃ timeout, a = .create a.slot a.peer timeout (Transport.subscribe n.transport).1 := by
  have hle := List.getElem?_eq_none_iff.mp hnew
  have hold {attempts : List Attempt} (hlength : attempts.length = n.attempts.length)
      (ha : attempts[k]? = some a) : False := by
    rw [List.getElem?_eq_none (by omega)] at ha
    contradiction
  cases h with
  | act act =>
    cases act with
    | cancelAttempt j => exact (hold (List.length_modify ..) ha).elim
    | order | watch | cancelWatch | addSlot | move | wait => exact (hold rfl ha).elim
  | step task h =>
    cases stepped_of_step? h with
    | attempt =>
      split at ha <;> exact (hold (List.length_set ..) ha).elim
    | watcher => exact (hold (List.length_set ..) ha).elim
    | openWatch | held | background => exact (hold rfl ha).elim
    | call hc hcall hreach =>
      cases hreach with
      | apart hsame => exact (hold (congrArg _ hsame.attempts) ha).elim
      | claim => exact (hold rfl ha).elim
      | cancel j => exact (hold (List.length_modify ..) ha).elim
      | begin purpose slot peer timeout =>
        have hk : k < (n.attempts ++ [Attempt.create slot peer timeout
            (Transport.subscribe n.transport).1]).length := (List.getElem?_eq_some_iff.mp ha).1
        rw [List.length_append, List.length_singleton] at hk
        have hlength : n.attempts.length = k := by omega
        have hlast : a = .create slot peer timeout (Transport.subscribe n.transport).1 := by
          subst hlength
          exact (Option.some.inj ((List.getElem?_concat_length ..).symm.trans ha)).symm
        exact ⟨hlength, rfl, timeout, by rw [hlast]; rfl⟩

/-- How an attempt began in a run: in one step of it somebody subscribed, and the attempt listens to
that subscription. -/
def Begun (allowed : Act σ → Prop) (first n : Node σ) (k : Nat) (a : Attempt) : Prop :=
  ∃ x y timeout, Reachable allowed first x ∧ Happens allowed x y ∧ Reachable allowed y n ∧
    x.attempts.length = k ∧ y.transport = (Transport.subscribe x.transport).2 ∧
      y.attempts[k]? =
        some (.create a.slot a.peer timeout (Transport.subscribe x.transport).1)

/-- Every attempt in a slot that was unused has begun in the run. -/
theorem Unused.begun (hfirst : first.Unused slot cfg) (h : Reachable allowed first n)
    (ha : n.attempts[k]? = some a) (hslot : a.slot = slot) : Begun allowed first n k a := by
  induction h generalizing a with
  | first => exact absurd hslot (hfirst.attempts k a ha)
  | @next n n' hreach hstep ih =>
    cases hold : n.attempts[k]? with
    | some b =>
      obtain ⟨b', hb', hfollows⟩ := (attemptsChange_of_happens hstep).exists_follows hold
      obtain rfl := Option.some.inj (ha.symm.trans hb')
      have hbslot : b.slot = slot := hfollows.slot.symm.trans hslot
      have hsound := (lasting_sound cfg).reachable hfirst hreach k b hold hbslot
      have hlater := hfollows.later hsound
      obtain ⟨x, y, timeout, hx, hxy, hy, hlength, htransport, hcreated⟩ := ih hold hbslot
      exact ⟨x, y, timeout, hx, hxy, .next hy hstep, hlength, htransport,
        by rw [hlater.slot, hlater.peer]; exact hcreated⟩
    | none =>
      obtain ⟨hlength, htransport, timeout, hcreated⟩ := begins_of_happens hstep hold ha
      exact ⟨n, n', timeout, hreach, hstep, .first, hlength, htransport, by rw [ha, ← hcreated]⟩

/-- An attempt in such a slot has just begun, or it has taken a step of its own, or something that is
no step of its own has happened to it. -/
theorem Unused.origin (hfirst : first.Unused slot cfg) (h : Reachable allowed first n)
    (hstep : Happens allowed n n') (ha : n'.attempts[k]? = some a) (hslot : a.slot = slot) :
    (∃ timeout, a = .create a.slot a.peer timeout (Transport.subscribe n.transport).1) ∨
      ∃ b, n.attempts[k]? = some b ∧ b.slot = slot ∧
        ((n.step? (.attempt k) = some n' ∧ ∃ s, b.step? cfg n.now n.transport = some s ∧
            a = s.1 ∧ n'.transport = s.2.1) ∨
          (a = b ∨ a = b.cancel) ∨
            ∃ r, b.watcherStep? n.now n.transport = some r ∧ a = r.1) := by
  cases hold : n.attempts[k]? with
  | none =>
    obtain ⟨-, -, hcreated⟩ := begins_of_happens hstep hold ha
    exact .inl hcreated
  | some b =>
    obtain ⟨b', hb', hfollows⟩ := (attemptsChange_of_happens hstep).exists_follows hold
    obtain rfl := Option.some.inj (ha.symm.trans hb')
    have hbslot : b.slot = slot := hfollows.slot.symm.trans hslot
    refine .inr ⟨b, rfl, hbslot, ?_⟩
    rcases step?_or_aside hstep hold with hown | ⟨b', hb', haside⟩
    · have hcfg := config?_of_reachable hfirst.config h
      obtain ⟨s, hs, hb', htransport⟩ := exists_of_step?_attempt (by rw [hbslot, hcfg]) hold hown
      exact .inl ⟨hown, s, hs, Option.some.inj (ha.symm.trans hb'), htransport⟩
    · obtain rfl := Option.some.inj (ha.symm.trans hb')
      exact .inr haside

/-! ## The way -/

/-- What is true of new attempts and is kept by their steps, by a cancellation and by steps of the
watcher is true of every attempt in a slot that was unused. -/
theorem Unused.holds {p : Attempt → Prop} (hfirst : first.Unused slot cfg)
    (hcreate : ∀ slot peer timeout subscription, p (.create slot peer timeout subscription))
    (hstep : ∀ (a : Attempt) (now : Nat) (t : σ) (s : Attempt.Stepped σ),
      p a → a.step? cfg now t = some s → p s.1)
    (hcancel : ∀ a : Attempt, p a → p a.cancel)
    (hwatcher : ∀ (a : Attempt) (now : Nat) (t : σ) (r : Attempt × σ × List Log.Entry),
      p a → a.watcherStep? now t = some r → p r.1)
    (h : Reachable allowed first n) (ha : n.attempts[k]? = some a) (hslot : a.slot = slot) : p a := by
  induction h generalizing a with
  | first => exact absurd hslot (hfirst.attempts k a ha)
  | next hreach hhappens ih =>
    obtain ⟨timeout, hcreated⟩ | ⟨b, hb, hbslot, ⟨-, s, hs, rfl, -⟩ | haside⟩ :=
      hfirst.origin hreach hhappens ha hslot
    · rw [hcreated]
      exact hcreate ..
    · exact hstep b _ _ s (ih hb hbslot) hs
    · obtain (rfl | rfl) | ⟨r, hr, rfl⟩ := haside
      · exact ih hb hbslot
      · exact hcancel b (ih hb hbslot)
      · exact hwatcher b _ _ r (ih hb hbslot) hr

/-- Others see of every such attempt the state that it showed last. -/
theorem Unused.showsLast (hfirst : first.Unused slot cfg) (h : Reachable allowed first n)
    (ha : n.attempts[k]? = some a) (hslot : a.slot = slot) : a.ShowsLast :=
  hfirst.holds (fun _ _ _ _ => rfl) (fun _ _ _ _ ha hs => ha.step? hs) (fun _ ha => ha)
    (fun _ _ _ _ ha hr => ha.watcherStep? hr) h ha hslot

/-- To be on a way lasts. -/
theorem lasting_onWay (cfg : AttemptConfig) : Lasting σ cfg (Attempt.OnWay cfg) :=
  ⟨Attempt.onWay_create cfg, fun _ _ _ _ ha hs => ha.step? hs, fun _ _ ha h => ha.sameCourse h⟩

/-- To be on a way and to heed the watcher lasts. -/
theorem lasting_heeds (cfg : AttemptConfig) :
    Lasting σ cfg fun a => a.OnWay cfg ∧ a.Heeds where
  create slot peer timeout subscription :=
    ⟨Attempt.onWay_create cfg slot peer timeout subscription, Attempt.heeds_create ..⟩
  step _ _ _ _ ha hs :=
    ⟨ha.1.step? hs, ha.2.goes (Attempt.goes_of_step? hs) (Attempt.does_of_step? hs).report
      (Attempt.advance_of_step? hs).watcher⟩
  aside _ _ ha h := ⟨ha.1.sameCourse h, ha.2.sameCourse ha.1.1 h⟩

/-- To be silent lasts, and brings an attempt closer to its end with every step. -/
theorem ranked_silent (cfg : AttemptConfig) :
    Ranked σ cfg (fun _ a => a.Silent) (·.phase.rank) where
  step _ _ _ _ _ ha _ hs :=
    ha.goes (Attempt.goes_of_step? hs) (Attempt.does_of_step? hs).report
      (Attempt.advance_of_step? hs).watcher
  aside _ _ _ _ ha _ h := ⟨ha.sameCourse h, Nat.le_of_eq (by rw [h.phase])⟩

/-- In a run, an attempt was found cancelled at a turn of its exchange and gave it up. -/
def GaveUpExchange (allowed : Act σ → Prop) (first n : Node σ) (k : Nat) : Prop :=
  ∃ x y b, Reachable allowed first x ∧ x.attempts[k]? = some b ∧
    (∃ peer conn legs deadline taken, b.phase = .exchanging peer conn legs deadline taken) ∧
      b.cancelled = true ∧ x.step? (.attempt k) = some y ∧ Reachable allowed y n

/-- A run that goes on does not undo what was given up. -/
theorem GaveUpExchange.next (h : GaveUpExchange allowed first n k) (hstep : Happens allowed n n') :
    GaveUpExchange allowed first n' k :=
  have ⟨x, y, b, hx, hb, hphase, hcancelled, hxy, hy⟩ := h
  ⟨x, y, b, hx, hb, hphase, hcancelled, hxy, .next hy hstep⟩

/-- An attempt that is leaving without a report had a watcher without an outcome, or gave up its
exchange. -/
theorem Unused.cause_of_leaving (hfirst : first.Unused slot cfg) (h : Reachable allowed first n)
    (ha : n.attempts[k]? = some a) (hslot : a.slot = slot) (hleaving : a.phase.isLeaving = true)
    (hnone : a.report = none) :
    a.watcher.result? = some none ∨ GaveUpExchange allowed first n k := by
  induction h generalizing a with
  | first => exact absurd hslot (hfirst.attempts k a ha)
  | @next n n' hreach hstep ih =>
    obtain ⟨timeout, hcreated⟩ | ⟨b, hb, hbslot, ⟨hown, s, hs, rfl, -⟩ | haside⟩ :=
      hfirst.origin hreach hstep ha hslot
    · rw [hcreated] at hleaving
      contradiction
    · have hway := (lasting_onWay cfg).reachable hfirst hreach k b hb hbslot
      have hreport := (Attempt.does_of_step? hs).report
      have hwatcher := (Attempt.advance_of_step? hs).watcher
      rcases hway.silent_goes (Attempt.goes_of_step? hs) hreport hnone hleaving with
        hbleaving | hresult | ⟨hphase, hcancelled⟩
      · have hbnone : b.report = none := by
          rw [← hnone, hreport]
          generalize b.phase = p at hbleaving
          cases p <;> first | rfl | contradiction
        exact (ih hb hbslot hbleaving hbnone).imp (fun h => by rw [hwatcher, h]) (·.next hstep)
      · exact .inl (by rw [hwatcher, hresult])
      · exact .inr ⟨n, n', b, hreach, hb, hphase, hcancelled, hown, .first⟩
    · have hsame := sameCourse_of_aside haside
      have hbefore := ih hb hbslot (by rw [← hsame.phase, hleaving])
        (hsame.report.symm.trans hnone)
      exact hbefore.imp hsame.result (·.next hstep)

/-- An attempt whose watcher had no outcome, or that gave up its exchange, is silent. -/
theorem Unused.silent_of_cause (hfirst : first.Unused slot cfg) (h : Reachable allowed first n)
    (ha : n.attempts[k]? = some a) (hslot : a.slot = slot)
    (hcause : a.watcher.result? = some none ∨ GaveUpExchange allowed first n k) : a.Silent := by
  rcases hcause with hresult | ⟨x, y, b, hx, hb, ⟨peer, conn, legs, deadline, taken, hphase⟩,
    hcancelled, hxy, hy⟩
  · exact ((lasting_heeds cfg).reachable hfirst h k a ha hslot).2.silent hresult
  · have hxn : Reachable allowed x n := Reachable.trans (.next .first (.step _ hxy)) hy
    obtain ⟨a', ha', hbslot, -⟩ := exists_attempt_of_reachable hxn hb
    obtain rfl := Option.some.inj (ha.symm.trans ha')
    replace hbslot : b.slot = slot := hbslot.symm.trans hslot
    have hcfg := config?_of_reachable hfirst.config hx
    have hsound := (lasting_sound cfg).reachable hfirst hx k b hb hbslot
    obtain ⟨s, hs, hbs, -⟩ := exists_of_step?_attempt (by rw [hbslot, hcfg]) hb hxy
    have hnext : Happens allowed x y := .step _ hxy
    have hsilent : y.AttemptHas slot cfg (fun _ a => a.Silent) k :=
      ⟨config?_of_happens hnext hcfg, s.1, hbs,
        (Attempt.advance_of_step? hs).slot.trans hbslot,
        hsound.silent_goes hphase hcancelled (Attempt.goes_of_step? hs)
          (Attempt.does_of_step? hs).report⟩
    obtain ⟨-, a', ha', -, hsilent'⟩ := (ranked_silent cfg).reachable hsilent hy
    obtain rfl := Option.some.inj (ha.symm.trans ha')
    exact hsilent'

/-! ## The account -/

/-- What can be relied on about an attempt with some settings, in a state of a run. -/
structure Accounted (allowed : Act σ → Prop) (first n : Node σ) (cfg : AttemptConfig) (k : Nat)
    (a : Attempt) : Prop where
  /-- It began by subscribing. -/
  begun : Begun allowed first n k a
  /-- What it has done so far is the beginning of what belongs to its way. -/
  onWay : ∃ w : Way, w.Fits cfg a ∧ a.history <+: w.acts
  /-- Others see the state that it showed last. -/
  state : a.ShowsLast
  /-- Its steps ask the transport for what they note, and for nothing else. -/
  acts : ∀ n', n.step? (.attempt k) = some n' → ∃ a' acts, n'.attempts[k]? = some a' ∧
    a'.history = a.history ++ acts ∧ Transport.Asked a.peer n.transport acts n'.transport
  /-- Nothing else is done in its name. -/
  others : ∀ n', Happens allowed n n' → n.step? (.attempt k) = some n' ∨
    ∃ a', n'.attempts[k]? = some a' ∧ a'.history = a.history
  /-- When its task has ended, its account is complete. -/
  account : a.isFinished = true → a.Account cfg
  /-- It has ended without a report exactly if its watcher had no outcome or it was cancelled in its
  exchange. -/
  unreported : a.isFinished = true →
    (a.report = none ↔ a.watcher.result? = some none ∨ GaveUpExchange allowed first n k)
  /-- For either of these reasons it does end, whatever else happens. -/
  ends : a.watcher.result? = some none ∨ GaveUpExchange allowed first n k →
    ∀ count m, Counted allowed [.attempt k] n count m → m.attemptFinished k = true ∨
      count < a.phase.rank ∧ (m.step? (.attempt k)).isSome = true

/-- Every attempt in a slot that was unused is accounted for, in every state that a node gets
into. -/
theorem accounted_of_reachable (hfirst : first.Unused slot cfg) (h : Reachable allowed first n)
    (ha : n.attempts[k]? = some a) (hslot : a.slot = slot) :
    Accounted allowed first n cfg k a := by
  have hcfg := config?_of_reachable hfirst.config h
  have hway := (lasting_onWay cfg).reachable hfirst h k a ha hslot
  refine ⟨hfirst.begun h ha hslot, ?_, hfirst.showsLast h ha hslot, fun n' hstep => ?_,
    fun n' hhappens => ?_, hway.account, fun hfinished => ⟨fun hnone => ?_, fun hcause => ?_⟩,
    fun hcause count m hm => ?_⟩
  · obtain ⟨-, w, hfits, hleads, hhistory⟩ := hway
    exact ⟨w, hfits, by rw [hhistory]; exact Way.before_prefix hleads⟩
  · obtain ⟨s, hs, ha', htransport⟩ := exists_of_step?_attempt (by rw [hslot, hcfg]) ha hstep
    have hdoes := Attempt.does_of_step? hs
    exact ⟨s.1, _, ha', hdoes.history, by rw [htransport]; exact hdoes.asked⟩
  · exact (step?_or_sameCourse hhappens ha).imp id fun ⟨a', ha', hsame⟩ => ⟨a', ha', hsame.history⟩
  · have hphase : a.phase = .finished := by simpa [Attempt.isFinished] using hfinished
    exact hfirst.cause_of_leaving h ha hslot (by rw [hphase]; rfl) hnone
  · exact (hfirst.silent_of_cause h ha hslot hcause).report
  · have hsilent : n.AttemptHas slot cfg (fun _ a => a.Silent) k :=
      ⟨hcfg, a, ha, hslot, hfirst.silent_of_cause h ha hslot hcause⟩
    have hgoes := (ranked_silent cfg).finished_or_goes_on
      (fun now a t hsilent hfinished => hsilent.isSome_step? hfinished now t) hsilent hm
    simpa [measured, ha] using hgoes

/-- A node whose peers answer dials, with a connection that stays silent: an attempt on the peer is
cancelled in its exchange. -/
def interruptedNode : Node InProcess :=
  (create (.create (some ownRef) [⟨none, none, .event .added none⟩])
    { plainConfig with exchange := some {} } 1000).perform
      [.call 0, .attempt 0, .watcher 0] 30
      [.move (InProcess.Move.attach (.pipe ⟨guestRef, [], [], true, true⟩)),
        .order (.attempt false 1 guestRef 1000), .cancelAttempt 0]

/-- The attempt has ended without a report, and has removed its peer. -/
theorem accounted_interruptedNode :
    ∃ first a, Reachable (fun _ => True) first interruptedNode ∧
      interruptedNode.attempts[0]? = some a ∧ a.isFinished = true ∧ a.report = none ∧
      a.history = [.subscribe, .publish .dialing, .dial, .publish .watching, .publish .handshaking,
        .take, .remove, .publish .idle] ∧
      Accounted (fun _ => True) first interruptedNode { plainConfig with exchange := some {} } 0 a := by
  have hreachable : Reachable (fun _ => True) _ interruptedNode :=
    reachable_perform _ _ _ fun _ _ => trivial
  obtain ⟨a, ha⟩ : ∃ a, interruptedNode.attempts[0]? = some a :=
    Option.isSome_iff_exists.mp (by decide +kernel)
  have hfacts : (interruptedNode.attempts[0]?.map fun a => (a.slot, a.isFinished, a.report,
      a.history)) = some (1, true, none, [.subscribe, .publish .dialing, .dial, .publish .watching,
        .publish .handshaking, .take, .remove, .publish .idle]) := by
    decide +kernel
  rw [ha, Option.map_some, Option.some.injEq, Prod.mk.injEq, Prod.mk.injEq, Prod.mk.injEq] at hfacts
  obtain ⟨hslot, hfinished, hreport, hhistory⟩ := hfacts
  exact ⟨_, a, hreachable, ha, hfinished, hreport, hhistory,
    accounted_of_reachable (unused_create_one _ _ _) hreachable ha hslot⟩

end Node

end PeerProbe
