import PeerProbe.Proofs.Feed
import PeerProbe.Watch

/-!
# One wake-up of a watcher

A woken watcher takes its steps until it has to wait again or is done. What it comes to depends on
the state in which it finds its subscription: a cancellation decides at once, then the first
buffered event of the target, then the end of the subscription, then the timer. A watcher that
finds none of them has emptied its buffer and changed nothing else.
-/

namespace PeerProbe

/-- A watcher beside its feed and its cancellation. -/
structure Vigil where
  watcher : Watcher
  feed : Feed
  cancelled : Bool

namespace Vigil

/-- The subscription of the watcher. -/
def subscription (s : Vigil) : Subscription := s.feed.get s.watcher.subscription

/-- One step of the watcher, unless it has to wait or is done. -/
def step? (s : Vigil) (now : Nat) : Option Vigil :=
  (s.watcher.step? now s.cancelled s.feed).map fun r => { s with watcher := r.1, feed := r.2.1 }

/-- The most steps that the watcher can take before it waits or is done: one for every buffered
event, and those that arm the timer, decide and let go. -/
def rank (s : Vigil) : Nat :=
  match s.watcher.phase with
  | .created => s.subscription.buffer.length + 3
  | .waiting _ => s.subscription.buffer.length + 2
  | .decided _ => 1
  | .done _ => 0

/-- At most so many steps in a row, all at one time. -/
def steps (now : Nat) : Nat → Vigil → Vigil
  | 0, s => s
  | n + 1, s =>
    match s.step? now with
    | none => s
    | some s' => steps now n s'

/-- The watcher woken at some time, as it waits again or is done. -/
def wake (s : Vigil) (now : Nat) : Vigil := steps now s.rank s

/-- The vigil after the watcher took the oldest event from its buffer. -/
def received (s : Vigil) (rest : List PeerEvent) : Vigil :=
  { s with feed := s.feed.update s.watcher.subscription fun sub => { sub with buffer := rest } }

/-- The vigil after the watcher decided. -/
def concluded (s : Vigil) (o : Option Outcome) : Vigil :=
  { s with watcher := s.watcher.concluded o }

/-- The vigil after the watcher armed its timer. -/
def armed (s : Vigil) (deadline : Nat) : Vigil :=
  { s with watcher.phase := .waiting deadline }

/-- What a waiting watcher decides when it is woken, if anything. -/
def ruling (s : Vigil) (deadline now : Nat) : Option (Option Outcome) :=
  if s.cancelled then some none
  else match s.subscription.buffer.find? fun e => e.peer.samePeer s.watcher.target with
    | some e => some (some (.ofEvent e))
    | none =>
      if s.subscription.active then
        if deadline ≤ now then some (some (.failed .timedOut)) else none
      else some (some (.failed (.subscription (s.subscription.error.getD .closed))))

/-! ## Steps -/

/-- Taking an event leaves the rest of the subscription as it was. -/
theorem subscription_received {s : Vigil} {e : PeerEvent} {rest : List PeerEvent}
    (hbuffer : s.subscription.buffer = e :: rest) :
    (s.received rest).subscription = { s.subscription with buffer := rest } :=
  Feed.get_update (Feed.lt_next_of_buffer (by rw [← subscription, hbuffer]; simp)) _

/-- An event of another peer decides nothing. -/
theorem ruling_received {s : Vigil} {deadline now : Nat} {e : PeerEvent} {rest : List PeerEvent}
    (hbuffer : s.subscription.buffer = e :: rest)
    (hpeer : ¬ e.peer.samePeer s.watcher.target = true) :
    (s.received rest).ruling deadline now = s.ruling deadline now := by
  have hfind : (e :: rest).find? (fun e => e.peer.samePeer s.watcher.target) =
      rest.find? fun e => e.peer.samePeer s.watcher.target := List.find?_cons_of_neg hpeer
  unfold ruling
  rw [subscription_received hbuffer, hbuffer, hfind]
  rfl

/-- A step of a waiting watcher passes over an event of another peer, or decides what there is to
decide; it has to wait when its buffer is empty and there is nothing to decide. -/
theorem step?_waiting_cases {s : Vigil} {deadline : Nat} (now : Nat)
    (hphase : s.watcher.phase = .waiting deadline) :
    (∃ e rest, s.subscription.buffer = e :: rest ∧ s.step? now = some (s.received rest) ∧
      (s.received rest).ruling deadline now = s.ruling deadline now) ∨
    (∃ t o, s.step? now = some (concluded t o) ∧ s.ruling deadline now = some o) ∨
    (s.step? now = none ∧ s.subscription.buffer = [] ∧ s.ruling deadline now = none) := by
  simp only [step?, Watcher.step?, hphase, Watcher.turn?]
  by_cases hcancelled : s.cancelled = true
  · right; left
    exact ⟨s, none, by simp [hcancelled, concluded], by simp [ruling, hcancelled]⟩
  cases hbuffer : s.subscription.buffer with
  | nil =>
    right
    rw [Feed.receive?_of_nil hbuffer]
    by_cases hactive : s.subscription.active = true
    · have hover : s.feed.isOver s.watcher.subscription = false := by
        simp only [Feed.isOver, Bool.not_eq_false']
        exact hactive
      by_cases hdue : deadline ≤ now
      · left
        exact ⟨s, some (.failed .timedOut), by simp [hcancelled, hover, hdue, concluded],
          by simp [ruling, hcancelled, hbuffer, hactive, hdue]⟩
      · right
        exact ⟨by simp [hcancelled, hover, hdue], rfl,
          by simp [ruling, hcancelled, hbuffer, hactive, hdue]⟩
    · left
      have hover : s.feed.isOver s.watcher.subscription = true := by
        simp only [Feed.isOver, Bool.not_eq_true']
        exact Bool.eq_false_iff.mpr hactive
      refine ⟨{ s with feed := (s.feed.takeError s.watcher.subscription).2 },
        some (.failed (.subscription (s.subscription.error.getD .closed))), ?_, ?_⟩
      · simp only [hcancelled, hover]
        rfl
      · simp only [ruling, hcancelled, hbuffer, hactive]
        rfl
  | cons e rest =>
    rw [Feed.receive?_of_cons hbuffer]
    by_cases hpeer : e.peer.samePeer s.watcher.target = true
    · right; left
      exact ⟨s.received rest, some (.ofEvent e), by simp [hcancelled, hpeer, concluded, received],
        by simp [ruling, hcancelled, hbuffer, hpeer]⟩
    · left
      exact ⟨e, rest, rfl, by simp [hcancelled, hpeer, received], ruling_received hbuffer hpeer⟩

/-- Every step brings the watcher closer to the next wait. -/
theorem rank_lt_of_step? {s s' : Vigil} {now : Nat} (h : s.step? now = some s') :
    s'.rank < s.rank := by
  cases hphase : s.watcher.phase with
  | created =>
    simp only [step?, Watcher.step?, hphase, Option.map_some, Option.some.injEq] at h
    subst h
    simp [rank, hphase, subscription]
  | decided o =>
    simp only [step?, Watcher.step?, hphase, Option.map_some, Option.some.injEq] at h
    subst h
    simp [rank, hphase]
  | done o => simp [step?, Watcher.step?, hphase] at h
  | waiting deadline =>
    rcases step?_waiting_cases now hphase with
      ⟨e, rest, hbuffer, hstep, -⟩ | ⟨t, o, hstep, -⟩ | ⟨hstep, -, -⟩
    · obtain rfl := Option.some.inj (hstep.symm.trans h)
      have hsub := subscription_received hbuffer
      simp only [rank, hphase, hsub, hbuffer]
      simp [received, hphase]
    · obtain rfl := Option.some.inj (hstep.symm.trans h)
      simp [rank, concluded, Watcher.concluded, hphase]
    · rw [hstep] at h
      contradiction

/-- Allowing more steps than the watcher can take changes nothing. -/
theorem steps_of_rank_le {s : Vigil} {now n m : Nat} (hn : s.rank ≤ n) (hm : s.rank ≤ m) :
    steps now n s = steps now m s := by
  induction n generalizing s m with
  | zero =>
    have hrest : s.step? now = none := by
      cases hstep : s.step? now with
      | none => rfl
      | some s' =>
        have hlt := rank_lt_of_step? hstep
        omega
    cases m <;> simp [steps, hrest]
  | succ n ih =>
    cases hstep : s.step? now with
    | none => cases m <;> simp [steps, hstep]
    | some s' =>
      have hlt := rank_lt_of_step? hstep
      cases m with
      | zero => omega
      | succ m =>
        simp only [steps, hstep]
        exact ih (by omega) (by omega)

/-- A watcher that has to wait or is done sleeps on. -/
theorem wake_of_rest {s : Vigil} {now : Nat} (h : s.step? now = none) : s.wake now = s := by
  unfold wake
  cases s.rank <;> simp [steps, h]

/-- A watcher that can take a step takes it first. -/
theorem wake_of_step? {s s' : Vigil} {now : Nat} (h : s.step? now = some s') :
    s.wake now = s'.wake now := by
  have hlt := rank_lt_of_step? h
  obtain ⟨n, hn⟩ : ∃ n, s.rank = n + 1 := ⟨s.rank - 1, by omega⟩
  unfold wake
  rw [hn]
  simp only [steps, h]
  exact steps_of_rank_le (by omega) (Nat.le_refl _)

/-- A woken watcher takes steps until it can take no more. -/
theorem step?_wake (s : Vigil) (now : Nat) : (s.wake now).step? now = none := by
  induction hrank : s.rank using Nat.strongRecOn generalizing s with
  | ind n ih =>
    cases hstep : s.step? now with
    | none => rw [wake_of_rest hstep, hstep]
    | some s' =>
      rw [wake_of_step? hstep]
      exact ih s'.rank (hrank ▸ rank_lt_of_step? hstep) s' rfl

/-! ## Whole wake-ups -/

/-- A watcher that has decided lets go of its subscription and is done. -/
theorem wake_concluded (s : Vigil) (o : Option Outcome) (now : Nat) :
    ((s.concluded o).wake now).watcher.phase = .done o := by
  rw [wake_of_step? rfl, wake_of_rest rfl]

/-- The first wake-up arms the timer and goes on like every other. -/
theorem wake_of_created {s : Vigil} (now : Nat) (hphase : s.watcher.phase = .created) :
    s.wake now = (s.armed (now + s.watcher.timeout)).wake now := by
  refine wake_of_step? ?_
  simp [step?, Watcher.step?, hphase, armed]

/-- A waiting watcher that finds something decisive is done with it. -/
theorem wake_of_ruling {s : Vigil} {deadline now : Nat} {o : Option Outcome}
    (hphase : s.watcher.phase = .waiting deadline) (hruling : s.ruling deadline now = some o) :
    (s.wake now).watcher.phase = .done o := by
  induction hbuffer : s.subscription.buffer generalizing s with
  | nil =>
    rcases step?_waiting_cases now hphase with
      ⟨e, rest, hcons, -, -⟩ | ⟨t, o', hstep, ho⟩ | ⟨-, -, hnone⟩
    · simp [hbuffer] at hcons
    · obtain rfl := Option.some.inj (ho.symm.trans hruling)
      rw [wake_of_step? hstep]
      exact wake_concluded t o' now
    · simp [hnone] at hruling
  | cons e rest ih =>
    rcases step?_waiting_cases now hphase with
      ⟨e', rest', hcons, hstep, hsame⟩ | ⟨t, o', hstep, ho⟩ | ⟨-, hnil, -⟩
    · obtain ⟨-, rfl⟩ := List.cons.inj (hbuffer.symm.trans hcons)
      rw [wake_of_step? hstep]
      exact ih (s := s.received rest) hphase (hsame.trans hruling)
        (congrArg Subscription.buffer (subscription_received hbuffer))
    · obtain rfl := Option.some.inj (ho.symm.trans hruling)
      rw [wake_of_step? hstep]
      exact wake_concluded t o' now
    · simp [hbuffer] at hnil

/-- A waiting watcher that finds nothing decisive has emptied its buffer and waits on. -/
theorem wake_of_no_ruling {s : Vigil} {deadline now : Nat}
    (hphase : s.watcher.phase = .waiting deadline) (hruling : s.ruling deadline now = none) :
    (s.wake now).watcher = s.watcher ∧ (s.wake now).cancelled = s.cancelled ∧
      (s.wake now).subscription = { s.subscription with buffer := [] } := by
  induction hbuffer : s.subscription.buffer generalizing s with
  | nil =>
    rcases step?_waiting_cases now hphase with
      ⟨e, rest, hcons, -, -⟩ | ⟨t, o, -, ho⟩ | ⟨hstep, -, -⟩
    · simp [hbuffer] at hcons
    · simp [ho] at hruling
    · rw [wake_of_rest hstep, ← hbuffer]
      exact ⟨rfl, rfl, rfl⟩
  | cons e rest ih =>
    rcases step?_waiting_cases now hphase with
      ⟨e', rest', hcons, hstep, hsame⟩ | ⟨t, o, -, ho⟩ | ⟨-, hnil, -⟩
    · obtain ⟨-, rfl⟩ := List.cons.inj (hbuffer.symm.trans hcons)
      have hsub := subscription_received hbuffer
      rw [wake_of_step? hstep]
      obtain ⟨hw, hc, hs⟩ := ih (s := s.received rest) hphase (hsame.trans hruling)
        (congrArg Subscription.buffer hsub)
      exact ⟨hw, hc, by rw [hs, hsub]⟩
    · simp [ho] at hruling
    · simp [hbuffer] at hnil

end Vigil

end PeerProbe
