import PeerProbe.Proofs.Attempt.Ending
import PeerProbe.Proofs.Node.Slots

/-!
# How the attempts of a node end

The rank of an attempt never grows, whatever happens to its node, once the attempt has a reason to
end. Its own steps lower it, and one of them can always be taken, so the attempt ends within a
number of its own steps that is known beforehand. For an attempt that was cancelled the steps of its
watcher count as well.
-/

namespace PeerProbe

namespace Node

variable {σ : Type} [Transport σ] {n n' : Node σ} {slot : Nat} {cfg : AttemptConfig}

/-- The clock of a node never goes back. -/
theorem now_le_of_happens {allowed : Act σ → Prop} (h : Happens allowed n n') : n.now ≤ n'.now := by
  cases h with
  | act a => cases a <;> simp [act, cancelAttempt]
  | step task h =>
    cases stepped_of_step? h with
    | attempt => split <;> exact Nat.le_refl _
    | watcher | openWatch | held | background => exact Nat.le_refl _
    | call hc hstep =>
      cases callStepped_of_callStep? hstep with
      | @joined purpose => cases purpose <;> exact Nat.le_refl _
      | _ => exact Nat.le_refl _

/-! ## What lasts of an attempt -/

/-- To be idle in the end lasts. -/
theorem lasting_endsIdle (cfg : AttemptConfig) : Lasting σ cfg Attempt.EndsIdle :=
  ⟨Attempt.endsIdle_create, fun _ _ _ _ ha hs => ha.step? hs, fun _ _ ha h => ha.sameCourse h⟩

/-- To take a connection only for an exchange lasts. -/
theorem lasting_takesForExchange (cfg : AttemptConfig) :
    Lasting σ cfg (Attempt.TakesForExchange cfg) :=
  ⟨fun _ _ _ _ => nofun, fun _ _ _ _ _ hs => Attempt.TakesForExchange.step? hs,
    fun _ _ ha h => ha.sameCourse h⟩

/-- Once an attempt is over, it has shown that it is idle, and it has removed its peer or reported a
connection that it was to keep. -/
theorem Unused.settled {allowed : Act σ → Prop} {first : Node σ} (hfirst : first.Unused slot cfg)
    (h : Reachable allowed first n) {k : Nat} {a : Attempt} (ha : n.attempts[k]? = some a)
    (hslot : a.slot = slot) (hover : a.phase.isOver = true) :
    a.history.getLast? = some (.publish .idle) ∧
      (.remove ∈ a.history ↔ a.keepsPeer cfg = false) := by
  have hidle := (lasting_endsIdle cfg).reachable hfirst h k a ha hslot
  have hsound := (lasting_sound cfg).reachable hfirst h k a ha hslot
  have hunwound : a.stage = .unwound := by
    unfold Attempt.stage
    generalize a.phase = p at hover
    cases p <;> first | rfl | contradiction
  refine ⟨hidle hover, ?_⟩
  rw [← List.count_pos_iff, hsound.removals]
  cases a.keepsPeer cfg <;> simp [hunwound]

/-! ## Coming to an end -/

/-- The number that belongs to an attempt, if it is there. -/
def measured (f : Attempt → Nat) (k : Nat) (n : Node σ) : Nat := (n.attempts[k]?.map f).getD 0

/-- An attempt in a slot has a property, which may depend on the clock. -/
def AttemptHas (n : Node σ) (slot : Nat) (cfg : AttemptConfig) (p : Nat → Attempt → Prop)
    (k : Nat) : Prop :=
  n.config? slot = some cfg ∧ ∃ a, n.attempts[k]? = some a ∧ a.slot = slot ∧ p n.now a

/-- A property of attempts lasts and comes with a rank: the steps of an attempt lower it, and
nothing else raises it. -/
structure Ranked (σ : Type) [Transport σ] (cfg : AttemptConfig) (p : Nat → Attempt → Prop)
    (rank : Attempt → Nat) : Prop where
  step : ∀ (now now' : Nat) (a : Attempt) (t : σ) (s : Attempt.Stepped σ), p now a → now ≤ now' →
    a.step? cfg now t = some s → p now' s.1 ∧ rank s.1 < rank a
  aside : ∀ (now now' : Nat) (a a' : Attempt), p now a → now ≤ now' → a.SameCourse a' →
    p now' a' ∧ rank a' ≤ rank a

/-- The attempt behind a step of its task, and the node after it. -/
theorem attempted_of_step?_attempt {k : Nat} {a : Attempt} (hcfg : n.config? a.slot = some cfg)
    (ha : n.attempts[k]? = some a) (h : n.step? (.attempt k) = some n') :
    ∃ s, a.step? cfg n.now n.transport = some s ∧
      n' = if s.1.isFinished then (n.attempted k s).setBusy a.slot false else n.attempted k s := by
  cases stepped_of_step? h with
  | @attempt _ b cfg' s hb hcfg' hs =>
    obtain rfl := Option.some.inj (ha.symm.trans hb)
    obtain rfl := Option.some.inj (hcfg.symm.trans hcfg')
    exact ⟨s, hs, rfl⟩

/-- The attempt behind a step of its task, with its next state. -/
theorem exists_of_step?_attempt {k : Nat} {a : Attempt} (hcfg : n.config? a.slot = some cfg)
    (ha : n.attempts[k]? = some a) (h : n.step? (.attempt k) = some n') :
    ∃ s, a.step? cfg n.now n.transport = some s ∧ n'.attempts[k]? = some s.1 ∧
      n'.transport = s.2.1 := by
  obtain ⟨s, hs, rfl⟩ := attempted_of_step?_attempt hcfg ha h
  have hset : (n.attempts.set k s.1)[k]? = some s.1 :=
    List.getElem?_set_self (List.getElem?_eq_some_iff.mp ha).1
  exact ⟨s, hs, by split <;> exact hset, by split <;> rfl⟩

/-- A step of an attempt is a step of its task. -/
theorem isSome_step?_attempt {k : Nat} {a : Attempt} {s : Attempt.Stepped σ}
    (hcfg : n.config? a.slot = some cfg) (ha : n.attempts[k]? = some a)
    (hs : a.step? cfg n.now n.transport = some s) : (n.step? (.attempt k)).isSome = true := by
  simp [step?, attemptStep?, ha, hcfg, hs]

section Ranked

variable {p : Nat → Attempt → Prop} {rank : Attempt → Nat} {k : Nat}

/-- Whatever happens, the property stays and the rank does not grow. -/
theorem Ranked.happens {allowed : Act σ → Prop} (hp : Ranked σ cfg p rank)
    (hn : n.AttemptHas slot cfg p k) (h : Happens allowed n n') :
    n'.AttemptHas slot cfg p k ∧ n'.measured rank k ≤ n.measured rank k := by
  obtain ⟨hcfg, a, ha, rfl, hpa⟩ := hn
  obtain ⟨a', ha', hfollows⟩ := (attemptsChange_of_happens h).exists_follows ha
  have hnow := now_le_of_happens h
  suffices hgoal : p n'.now a' ∧ rank a' ≤ rank a by
    refine ⟨⟨config?_of_happens h hcfg, a', ha', hfollows.slot, hgoal.1⟩, ?_⟩
    simpa [measured, ha, ha'] using hgoal.2
  cases hfollows with
  | advance hcfg' hs h =>
    obtain rfl := Option.some.inj (hcfg.symm.trans hcfg')
    subst h
    exact (hp.step _ _ a _ _ hpa hnow hs).imp id Nat.le_of_lt
  | aside h => exact hp.aside _ _ a a' hpa hnow h

/-- A step of the attempt lowers the rank. -/
theorem Ranked.rank_lt (hp : Ranked σ cfg p rank) (hn : n.AttemptHas slot cfg p k)
    (h : n.step? (.attempt k) = some n') : n'.measured rank k < n.measured rank k := by
  obtain ⟨hcfg, a, ha, rfl, hpa⟩ := hn
  obtain ⟨s, hs, ha', -⟩ := exists_of_step?_attempt hcfg ha h
  have hlt := (hp.step _ _ a _ _ hpa (Nat.le_refl _) hs).2
  simpa [measured, ha, ha'] using hlt

/-- A property that lasts is there in every state that a node gets into. -/
theorem Ranked.reachable {allowed : Act σ → Prop} (hp : Ranked σ cfg p rank)
    (hn : n.AttemptHas slot cfg p k) (h : Reachable allowed n n') : n'.AttemptHas slot cfg p k := by
  induction h with
  | first => exact hn
  | next _ hstep ih => exact (hp.happens ih hstep).1

/-- An attempt that can go on as long as it has not ended ends by its own steps, of which there are
no more than the rank says. -/
theorem Ranked.finished_or_goes_on {allowed : Act σ → Prop} {count : Nat}
    (hp : Ranked σ cfg p rank)
    (hgo : ∀ (now : Nat) (a : Attempt) (t : σ), p now a → a.isFinished = false →
      (a.step? cfg now t).isSome = true)
    (hn : n.AttemptHas slot cfg p k) (h : Counted allowed [.attempt k] n count n') :
    n'.attemptFinished k = true ∨
      count < n.measured rank k ∧ (n'.step? (.attempt k)).isSome = true := by
  obtain ⟨⟨hcfg, a, ha, rfl, hpa⟩, hle⟩ := h.rank_le (AttemptHas · slot cfg p k) (measured rank k)
    (fun _ _ hn h => hp.happens hn h)
    (fun n n' task hn htask h => by
      obtain rfl := List.mem_singleton.mp htask
      exact hp.rank_lt hn h) hn
  cases hfinished : a.isFinished with
  | true => exact .inl (by simp [attemptFinished, ha, hfinished])
  | false =>
    obtain ⟨s, hs⟩ := Option.isSome_iff_exists.mp (hgo _ a n'.transport hpa hfinished)
    have hlt := (hp.step _ _ a _ _ hpa (Nat.le_refl _) hs).2
    have hrank : n'.measured rank k = rank a := by simp [measured, ha]
    exact .inr ⟨by omega, isSome_step?_attempt hcfg ha hs⟩

end Ranked

/-- A reason to end lasts, and brings an attempt closer to its end with every step. -/
theorem ranked_isEnding (cfg : AttemptConfig) :
    Ranked σ cfg (fun now a => a.IsEnding cfg now) (·.phase.rank) where
  step _ _ _ t s hending hnow hs := by
    obtain ⟨s', hs', hending', hrank⟩ := hending.exists_step? (Attempt.isFinished_of_step? hs) t
    obtain rfl := Option.some.inj (hs.symm.trans hs')
    exact ⟨hending'.sameCourse (.refl _) hnow, hrank⟩
  aside _ _ _ _ hending hnow h :=
    ⟨hending.sameCourse h hnow, Nat.le_of_eq (by rw [h.phase])⟩

/-- A cancelled attempt takes a connection for an exchange only. -/
def IsCancelled (cfg : AttemptConfig) (_ : Nat) (a : Attempt) : Prop :=
  a.TakesForExchange cfg ∧ a.cancelled = true

/-- A cancellation lasts, and brings an attempt closer to its end with every step. -/
theorem ranked_isCancelled (cfg : AttemptConfig) :
    Ranked σ cfg (IsCancelled cfg) Attempt.unwinding where
  step _ _ _ _ _ hcancelled _ hs :=
    ⟨⟨Attempt.TakesForExchange.step? hs,
      (Attempt.advance_of_step? hs).cancelled.trans hcancelled.2⟩,
      Attempt.unwinding_lt_of_step? hcancelled.2 hs⟩
  aside _ _ _ _ hcancelled _ h :=
    ⟨⟨hcancelled.1.sameCourse h, h.cancelled hcancelled.2⟩,
      Attempt.unwinding_le_of_sameCourse hcancelled.2 h⟩

/-- An attempt with a reason to end comes to its end by its own steps, whatever else happens: as
long as it has not ended it can go on, and it has gone on less often than its rank says. -/
theorem finished_or_goes_on {allowed : Act σ → Prop} {k count : Nat}
    (hn : n.AttemptHas slot cfg (fun now a => a.IsEnding cfg now) k)
    (h : Counted allowed [.attempt k] n count n') :
    n'.attemptFinished k = true ∨
      count < n.measured (·.phase.rank) k ∧ (n'.step? (.attempt k)).isSome = true :=
  (ranked_isEnding cfg).finished_or_goes_on
    (fun _ _ t hending hfinished =>
      have ⟨_, hs, _⟩ := hending.exists_step? hfinished t
      Option.isSome_iff_exists.mpr ⟨_, hs⟩) hn h

/-- The steps of a cancelled attempt and of its watcher bring it closer to its end. -/
theorem unwinding_lt {k : Nat} (hn : n.AttemptHas slot cfg (IsCancelled cfg) k) {task : Task}
    (htask : task ∈ [.attempt k, .watcher k]) (h : n.step? task = some n') :
    n'.measured Attempt.unwinding k < n.measured Attempt.unwinding k := by
  simp only [List.mem_cons, List.not_mem_nil, or_false] at htask
  rcases htask with rfl | rfl
  · exact (ranked_isCancelled cfg).rank_lt hn h
  · obtain ⟨hcfg, a, ha, rfl, -, hcancelled⟩ := hn
    cases stepped_of_step? h with
    | @watcher _ b r hb hr =>
      obtain rfl := Option.some.inj (ha.symm.trans hb)
      have hlt := (List.getElem?_eq_some_iff.mp ha).1
      simpa [measured, ha, logged, List.getElem?_set_self hlt] using
        Attempt.unwinding_lt_of_watcherStep? hcancelled hr

/-- A cancelled attempt comes to its end by its own steps and those of its watcher, whatever else
happens. -/
theorem finished_or_unwinds {allowed : Act σ → Prop} {k count : Nat}
    (hn : n.AttemptHas slot cfg (IsCancelled cfg) k)
    (h : Counted allowed [.attempt k, .watcher k] n count n') :
    n'.attemptFinished k = true ∨
      count < n.measured Attempt.unwinding k ∧
        ∃ task ∈ [Task.attempt k, .watcher k], (n'.step? task).isSome = true := by
  obtain ⟨⟨hcfg, a, ha, rfl, htakes, hcancelled⟩, hle⟩ := h.rank_le
    (AttemptHas · slot cfg (IsCancelled cfg) k) (measured Attempt.unwinding k)
    (fun _ _ hn h => (ranked_isCancelled cfg).happens hn h)
    (fun _ _ _ hn htask h => unwinding_lt hn htask h) hn
  cases hfinished : a.isFinished with
  | true => exact .inl (by simp [attemptFinished, ha, hfinished])
  | false =>
    right
    have hrank : n'.measured Attempt.unwinding k = a.unwinding := by simp [measured, ha]
    have hsome : (a.step? cfg n'.now n'.transport).isSome = true ∨
        (a.watcherStep? n'.now n'.transport).isSome = true :=
      Attempt.exists_step_of_cancelled hcancelled htakes hfinished
    rcases hsome with hsome | hsome
    · obtain ⟨s, hs⟩ := Option.isSome_iff_exists.mp hsome
      have hlt := Attempt.unwinding_lt_of_step? hcancelled hs
      exact ⟨by omega, .attempt k, by simp, isSome_step?_attempt hcfg ha hs⟩
    · obtain ⟨r, hr⟩ := Option.isSome_iff_exists.mp hsome
      have hlt := Attempt.unwinding_lt_of_watcherStep? hcancelled hr
      exact ⟨by omega, .watcher k, by simp, by simp [step?, watcherStep?, ha, hr]⟩

/-! ## One attempt after the other -/

/-- An attempt ends by one step only. -/
theorem Follows.phase_eq_releasing {a a' : Attempt} (h : n.Follows a a')
    (hrunning : a.isFinished = false) (hfinished : a'.isFinished = true) :
    a.phase = .releasing := by
  have hphase' : a'.phase = .finished := by simpa [Attempt.isFinished] using hfinished
  cases h with
  | advance _ hs h =>
    have hgoes := Attempt.goes_of_step? hs
    rw [← h, hphase'] at hgoes
    generalize a.phase = p at hgoes
    cases hgoes
    rfl
  | aside h =>
    rw [Attempt.isFinished, ← h.phase, hphase'] at hrunning
    contradiction

/-- A call that waits for the end of an attempt goes on when it has ended. -/
theorem attemptFinished_of_waitsFor? {i k : Nat} {c : Call} (hc : n.calls[i]? = some c)
    (hk : c.waitsFor? = some k) (h : n.step? (.call i) = some n') : n.attemptFinished k = true := by
  have hstep : n.callStep? i c = some n' := by simpa [step?, hc] using h
  cases callStepped_of_callStep? hstep with
  | unwound hfinished | joined hfinished => exact Option.some.inj hk ▸ hfinished
  | _ => contradiction

/-- What the users of a slot can rely on, from one state of the node on. -/
structure OneAtATime (allowed : Act σ → Prop) (n : Node σ) (slot : Nat) (cfg : AttemptConfig) :
    Prop where
  /-- The slot is busy exactly while it is held, and one at most holds it. -/
  exclusive : n.Exclusive slot
  /-- A claim is refused exactly if the slot is held, and does nothing else then. -/
  claim : ∀ (i : Nat) (purpose : Purpose) (peer : PeerRef) (timeout : Nat),
    n.calls[i]? = some (.claiming purpose slot peer timeout) →
      ∃ n', n.step? (.call i) = some n' ∧
        ((∃ h, n.Holds slot h) ∧
            n' = (n.setCall i (.done (busyReply purpose))).logged (busyEntries purpose peer) ∨
          (¬ ∃ h, n.Holds slot h) ∧ n'.Holds slot (.claim i))
  /-- The slot becomes free exactly when the task of an attempt ends. -/
  release : ∀ n', Happens allowed n n' →
    ((n.isBusy slot = true ∧ n'.isBusy slot = false) ↔
      ∃ (k : Nat) (a : Attempt), n.attempts[k]? = some a ∧ a.slot = slot ∧ a.phase = .releasing ∧
        n'.attemptFinished k = true)
  /-- Before that the attempt has removed its peer, or has kept it after a connection. -/
  settled : ∀ (k : Nat) (a : Attempt), n.attempts[k]? = some a → a.slot = slot →
    a.phase.isOver = true →
      a.history.getLast? = some (.publish .idle) ∧
        (.remove ∈ a.history ↔ a.keepsPeer cfg = false)
  /-- Whoever waits for the end of an attempt goes on after the release. -/
  wait : ∀ (i : Nat) (c : Call) (k : Nat) (n' : Node σ), n.calls[i]? = some c →
    c.waitsFor? = some k → n.step? (.call i) = some n' → n.attemptFinished k = true
  /-- An attempt that has a reason to end does end. -/
  ending : ∀ (k : Nat) (a : Attempt), n.attempts[k]? = some a → a.slot = slot →
    a.IsEnding cfg n.now → ∀ count m, Counted allowed [.attempt k] n count m →
      m.attemptFinished k = true ∨
        count < a.phase.rank ∧ (m.step? (.attempt k)).isSome = true
  /-- So does an attempt that was cancelled. -/
  cancelled : ∀ (k : Nat) (a : Attempt), n.attempts[k]? = some a → a.slot = slot →
    a.cancelled = true → ∀ count m, Counted allowed [.attempt k, .watcher k] n count m →
      m.attemptFinished k = true ∨
        count < a.unwinding ∧ ∃ task ∈ [Task.attempt k, .watcher k], (m.step? task).isSome = true

/-- Attempts in one slot run one at a time, in every state that a node gets into. -/
theorem oneAtATime_of_reachable {allowed : Act σ → Prop} {first : Node σ}
    (hfirst : first.Unused slot cfg) (h : Reachable allowed first n) :
    n.OneAtATime allowed slot cfg := by
  have hcfg := config?_of_reachable hfirst.config h
  have hn := hfirst.exclusive_of_reachable h
  refine ⟨hn, fun i purpose peer timeout hc => hn.claim hc, fun n' h' => ?_,
    fun k a ha hslot hover => hfirst.settled h ha hslot hover,
    fun i c k n' hc hk hstep => attemptFinished_of_waitsFor? hc hk hstep,
    fun k a ha hslot hending count m hm => ?_, fun k a ha hslot hcancelled count m hm => ?_⟩
  · rw [hn.released_iff hcfg h']
    constructor
    · rintro ⟨k, a, ha, hslot, hrunning, hfinished⟩
      obtain ⟨a', ha', hfollows⟩ := (attemptsChange_of_happens h').exists_follows ha
      have hfinished' : a'.isFinished = true := by simpa [attemptFinished, ha'] using hfinished
      exact ⟨k, a, ha, hslot, hfollows.phase_eq_releasing hrunning hfinished', hfinished⟩
    · rintro ⟨k, a, ha, hslot, hphase, hfinished⟩
      exact ⟨k, a, ha, hslot, by simp [Attempt.isFinished, hphase], hfinished⟩
  · have hending' : n.AttemptHas slot cfg (fun now a => a.IsEnding cfg now) k :=
      ⟨hcfg, a, ha, hslot, hending⟩
    simpa [measured, ha] using finished_or_goes_on hending' hm
  · have htakes := (lasting_takesForExchange cfg).reachable hfirst h k a ha hslot
    have hcancelled' : n.AttemptHas slot cfg (IsCancelled cfg) k :=
      ⟨hcfg, a, ha, hslot, htakes, hcancelled⟩
    simpa [measured, ha] using finished_or_unwinds hcancelled' hm

/-- Two users ask for an attempt in the same slot. -/
def contestedNode : Node InProcess :=
  plainNode.perform [.call 0, .call 1, .attempt 0, .watcher 0] 20
    [.order (.attempt false 1 guestRef 1000), .order (.attempt false 1 guestRef 1000)]

/-- The first of them has its attempt, and the other one is refused. -/
theorem oneAtATime_contestedNode :
    plainNode.Unused 1 plainConfig ∧ Reachable (fun _ => True) plainNode contestedNode ∧
      contestedNode.isBusy 1 = true ∧ contestedNode.attempts.length = 1 ∧
      contestedNode.OneAtATime (fun _ => True) 1 plainConfig := by
  have hunused : plainNode.Unused 1 plainConfig := unused_create_one _ _ _
  have hreachable : Reachable (fun _ => True) plainNode contestedNode :=
    reachable_perform _ _ _ fun _ _ => trivial
  exact ⟨hunused, hreachable, by decide +kernel, by decide +kernel,
    oneAtATime_of_reachable hunused hreachable⟩

end Node

end PeerProbe
