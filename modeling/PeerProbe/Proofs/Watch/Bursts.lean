import Mathlib.Data.List.TakeWhile
import PeerProbe.Proofs.Watch.Wake

/-!
# A watcher against a schedule of bursts

What happens to a feed between two wake-ups of a watcher reaches it together. The first burst that
holds anything decisive decides: a cancellation first, then the first event of the target that fit
into the buffer, then whatever ended the subscription. If no burst up to the timer does, the
watcher times out exactly when its timer fires.

The timer's own wake-up is one of them: what is done at that very instant, but before the watcher
is woken, is still seen in front of the timer.
-/

namespace PeerProbe

/-- Something that happens to a watched feed or to the watcher's cancellation. -/
inductive Deed where
  | feed (a : Feed.Act)
  | cancel
  deriving DecidableEq

/-- A wake-up: its time, and what happened since the one before. -/
structure WakeUp where
  time : Nat
  deeds : List Deed

/-! ## Bursts by themselves -/

/-- What a burst leaves with an open subscription that has room for so many events: the events
that were buffered, and the error that ended it. -/
def heard : Nat → List Deed → List PeerEvent × Option SubscriptionError
  | _, [] => ([], none)
  | 0, .feed (.send _) :: _ => ([], some .overflow)
  | room + 1, .feed (.send e) :: deeds => ((heard room deeds).map (e :: ·) id)
  | _, .feed (.fail e) :: _ => ([], some e)
  | _, .feed .close :: _ => ([], some .closed)
  | room, .feed .reopen :: deeds => heard room deeds
  | room, .cancel :: deeds => heard room deeds

/-- What a burst leaves with a subscription, which was refused if the feed was closed. -/
def news (closed : Bool) (deeds : List Deed) : List PeerEvent × Option SubscriptionError :=
  if closed then ([], some .closed) else heard feedBuffer deeds

/-- What a burst decides about a peer, if anything. -/
def verdict (target : PeerRef) (closed : Bool) (deeds : List Deed) : Option (Option Outcome) :=
  if .cancel ∈ deeds then some none
  else match (news closed deeds).1.find? fun e => e.peer.samePeer target with
    | some e => some (some (.ofEvent e))
    | none => (news closed deeds).2.map fun e => some (.failed (.subscription e))

/-- A burst that decides nothing neither cancels the watcher nor ends its subscription. -/
theorem not_mem_of_verdict_eq_none {target : PeerRef} {closed : Bool} {deeds : List Deed}
    (h : verdict target closed deeds = none) :
    .cancel ∉ deeds ∧ closed = false ∧ (news closed deeds).2 = none := by
  unfold verdict at h
  split at h
  · contradiction
  · next hcancel =>
    split at h
    · contradiction
    · have hend : (news closed deeds).2 = none := by simpa using h
      cases closed with
      | true => simp [news] at hend
      | false => exact ⟨hcancel, rfl, hend⟩

/-! ## Runs -/

namespace Vigil

/-- The vigil after one deed. -/
def after (s : Vigil) : Deed → Vigil
  | .feed a => { s with feed := s.feed.act a }
  | .cancel => { s with cancelled := true }

/-- The vigil after a burst. -/
def burst (s : Vigil) (deeds : List Deed) : Vigil := deeds.foldl after s

/-- The result of a watcher that is woken after each of some bursts, and the time at which it came
about. -/
def follow (s : Vigil) : List WakeUp → Option (Nat × Option Outcome)
  | [] => none
  | k :: ks =>
    let s := (s.burst k.deeds).wake k.time
    match s.watcher.result? with
    | some o => some (k.time, o)
    | none => follow s ks

/-- A watcher that has just subscribed. -/
def start (f : Feed) (target : PeerRef) (timeout : Nat) : Vigil :=
  ⟨.create target f.next timeout, f.subscribe, false⟩

end Vigil

/-- Deeds that follow the ones before them after some time. -/
structure Burst where
  after : Nat
  deeds : List Deed

/-- The bursts of a schedule at their times. -/
def timed (now : Nat) : List Burst → List WakeUp
  | [] => []
  | b :: bs => ⟨now + b.after, b.deeds⟩ :: timed (now + b.after) bs

/-- The wake-ups of a watcher with a timer: one for every burst before the deadline, and the
timer's. The latter finds what was done on the deadline, if that was done ahead of it. -/
def wakeUps (deadline : Nat) (ahead : Bool) (ks : List WakeUp) : List WakeUp :=
  ks.takeWhile (·.time < deadline) ++
    [⟨deadline, if ahead then ((ks.find? (·.time = deadline)).map WakeUp.deeds).getD [] else []⟩]

/-- A watcher played against a schedule: the deeds before its first step, then the bursts. The
timer is armed in the first step, so that nothing before it can come too late. -/
def play (f : Feed) (target : PeerRef) (timeout start : Nat) (ahead : Bool) (first : List Deed)
    (bursts : List Burst) : Option (Nat × Option Outcome) :=
  (Vigil.start f target timeout).follow
    (wakeUps (start + timeout) (ahead || timeout = 0) (⟨start, first⟩ :: timed start bursts))

/-! ## One burst -/

namespace Vigil

/-- Deeds leave the watcher itself alone. -/
theorem watcher_burst (s : Vigil) (deeds : List Deed) : (s.burst deeds).watcher = s.watcher := by
  induction deeds generalizing s with
  | nil => rfl
  | cons d deeds ih => cases d <;> exact ih _

/-- A watcher is cancelled by a cancellation anywhere in the burst. -/
theorem cancelled_burst (s : Vigil) (deeds : List Deed) :
    (s.burst deeds).cancelled = (s.cancelled || decide (Deed.cancel ∈ deeds)) := by
  induction deeds generalizing s with
  | nil => simp [burst]
  | cons d deeds ih =>
    refine (ih (s.after d)).trans ?_
    cases d <;> simp [after]

/-- What happens to the feed happens to the watcher's subscription. -/
theorem subscription_after (s : Vigil) (a : Feed.Act) :
    (s.after (.feed a)).subscription = s.subscription.acted a :=
  Feed.get_act s.feed a _

/-- An ended subscription is not changed by a burst. -/
theorem subscription_burst_of_not_active {s : Vigil} (hactive : s.subscription.active = false)
    (hlistening : s.subscription.listening = true) (deeds : List Deed) :
    (s.burst deeds).subscription = s.subscription := by
  induction deeds generalizing s with
  | nil => rfl
  | cons d deeds ih =>
    have hsame : (s.after d).subscription = s.subscription := by
      cases d with
      | cancel => rfl
      | feed a =>
        rw [subscription_after, Subscription.acted_of_not_active hactive hlistening]
    have hburst := ih (s := s.after d) (by rw [hsame, hactive]) (by rw [hsame, hlistening])
    exact hburst.trans hsame

/-- What ends the subscription leaves nothing for the deeds behind it to change. -/
theorem subscription_burst_of_ended {s : Vigil} {d : Deed} {buffer : List PeerEvent}
    {e : SubscriptionError} (hended : (s.after d).subscription = ⟨buffer, false, some e, true⟩)
    (deeds : List Deed) :
    (s.burst (d :: deeds)).subscription = ⟨buffer ++ [], false, some e, true⟩ := by
  rw [List.append_nil, ← hended]
  exact subscription_burst_of_not_active (by rw [hended]) (by rw [hended]) deeds

/-- An open subscription hears a burst as far as there is room for it. -/
theorem subscription_burst {s : Vigil} {buffer : List PeerEvent} {room : Nat}
    (hs : s.subscription = ⟨buffer, true, none, true⟩) (hroom : buffer.length + room = feedBuffer)
    (deeds : List Deed) :
    (s.burst deeds).subscription =
      ⟨buffer ++ (heard room deeds).1, (heard room deeds).2.isNone, (heard room deeds).2, true⟩ := by
  induction deeds generalizing s buffer room with
  | nil => simp [burst, heard, hs]
  | cons d deeds ih =>
    cases d with
    | cancel => exact ih hs hroom
    | feed a =>
      have hafter := subscription_after s a
      rw [hs] at hafter
      cases a with
      | fail e => exact subscription_burst_of_ended hafter deeds
      | close => exact subscription_burst_of_ended hafter deeds
      | reopen => exact ih hafter hroom
      | send e =>
        cases room with
        | zero =>
          refine subscription_burst_of_ended (hafter.trans ?_) deeds
          simp [Subscription.acted, Subscription.offered, Subscription.accepts,
            Subscription.ended, hroom.symm]
        | succ room =>
          have hsent : (s.after (.feed (.send e))).subscription =
              ⟨buffer ++ [e], true, none, true⟩ := by
            refine hafter.trans ?_
            have hfits : buffer.length < feedBuffer := by omega
            simp [Subscription.acted, Subscription.offered, Subscription.accepts, hfits]
          have hroom' : (buffer ++ [e]).length + room = feedBuffer := by
            rw [List.length_append, List.length_singleton]
            omega
          refine (ih hsent hroom').trans ?_
          simp [heard]

/-- The state in which a subscription waits for the next burst: untouched since it was made. -/
def Untouched (s : Vigil) (closed : Bool) : Prop :=
  s.cancelled = false ∧ s.subscription = if closed then .refused else .fresh

/-- What an untouched subscription holds after a burst is the news of the burst. -/
theorem subscription_burst_of_untouched {s : Vigil} {closed : Bool} (hs : s.Untouched closed)
    (deeds : List Deed) :
    (s.burst deeds).subscription =
      ⟨(news closed deeds).1, (news closed deeds).2.isNone, (news closed deeds).2, true⟩ := by
  obtain ⟨-, hsub⟩ := hs
  cases closed with
  | true =>
    replace hsub : s.subscription = .refused := hsub
    rw [subscription_burst_of_not_active (by rw [hsub]; rfl) (by rw [hsub]; rfl), hsub]
    rfl
  | false => exact subscription_burst hsub rfl deeds

/-- What a woken watcher decides is the verdict of the burst, or else that its time is up. -/
theorem ruling_burst {s : Vigil} {closed : Bool} (hs : s.Untouched closed) (deeds : List Deed)
    (deadline now : Nat) :
    (s.burst deeds).ruling deadline now =
      (verdict s.watcher.target closed deeds).or
        (if deadline ≤ now then some (some (.failed .timedOut)) else none) := by
  have hcancelled := cancelled_burst s deeds
  rw [hs.1, Bool.false_or] at hcancelled
  simp only [ruling, verdict, hcancelled, subscription_burst_of_untouched hs, watcher_burst,
    decide_eq_true_eq]
  split
  · rfl
  · cases (news closed deeds).1.find? fun e => e.peer.samePeer s.watcher.target with
    | some e => rfl
    | none => cases (news closed deeds).2 <;> rfl

/-- A watcher that has found nothing decisive in a burst is as untouched as before. -/
theorem untouched_wake {s : Vigil} {closed : Bool} {deeds : List Deed} {deadline now : Nat}
    (hs : s.Untouched closed) (hphase : s.watcher.phase = .waiting deadline)
    (hruling : (s.burst deeds).ruling deadline now = none) :
    ((s.burst deeds).wake now).Untouched closed ∧
      ((s.burst deeds).wake now).watcher = s.watcher := by
  obtain ⟨hwatcher, hcancelled, hsub⟩ := wake_of_no_ruling
    (by rw [watcher_burst, hphase]) hruling
  rw [ruling_burst hs, Option.or_eq_none_iff] at hruling
  obtain ⟨hcancel, rfl, hend⟩ := not_mem_of_verdict_eq_none hruling.1
  refine ⟨⟨?_, ?_⟩, hwatcher.trans (watcher_burst s deeds)⟩
  · rw [hcancelled, cancelled_burst, hs.1]
    simpa using hcancel
  · rw [hsub, subscription_burst_of_untouched hs, hend]
    rfl

/-! ## Whole runs -/

/-- A waiting watcher is decided at the first wake-up that finds a decisive burst or comes no
earlier than its deadline. -/
theorem follow_of_waiting {s : Vigil} {closed : Bool} {deadline : Nat} (hs : s.Untouched closed)
    (hphase : s.watcher.phase = .waiting deadline) (ks : List WakeUp) :
    s.follow ks = ks.findSome? fun k =>
      ((verdict s.watcher.target closed k.deeds).or
        (if deadline ≤ k.time then some (some (.failed .timedOut)) else none)).map (k.time, ·) := by
  induction ks generalizing s with
  | nil => rfl
  | cons k ks ih =>
    have hphase' : (s.burst k.deeds).watcher.phase = .waiting deadline := by
      rw [watcher_burst, hphase]
    rw [List.findSome?_cons, ← ruling_burst hs, follow]
    cases hruling : (s.burst k.deeds).ruling deadline k.time with
    | some o =>
      have hdone := wake_of_ruling hphase' hruling
      simp [Watcher.result?, hdone]
    | none =>
      obtain ⟨huntouched, hwatcher⟩ := untouched_wake hs hphase hruling
      have hresult : ((s.burst k.deeds).wake k.time).watcher.result? = none := by
        rw [hwatcher, Watcher.result?, hphase]
      simp only [hresult, Option.map_none]
      rw [ih huntouched (by rw [hwatcher, hphase]), hwatcher]

/-- A burst does not care whether the timer is armed. -/
theorem burst_armed (s : Vigil) (deadline : Nat) (deeds : List Deed) :
    (s.armed deadline).burst deeds = (s.burst deeds).armed deadline := by
  induction deeds generalizing s with
  | nil => rfl
  | cons d deeds ih =>
    have hafter : (s.armed deadline).after d = (s.after d).armed deadline := by cases d <;> rfl
    change ((s.armed deadline).after d).burst deeds = _
    rw [hafter]
    exact ih _

/-- The first wake-up of a watcher sets its deadline. -/
theorem follow_of_created {s : Vigil} {k : WakeUp} (hphase : s.watcher.phase = .created)
    (ks : List WakeUp) :
    s.follow (k :: ks) = (s.armed (k.time + s.watcher.timeout)).follow (k :: ks) := by
  have hphase' : (s.burst k.deeds).watcher.phase = .created := by rw [watcher_burst, hphase]
  simp only [follow, burst_armed, wake_of_created k.time hphase', watcher_burst]

/-- A watcher that has just subscribed is untouched. -/
theorem untouched_start (f : Feed) (target : PeerRef) (timeout : Nat) :
    (start f target timeout).Untouched f.closed :=
  ⟨rfl, Feed.get_subscribe f⟩

end Vigil

/-- The first wake-up is the one at the start, also if the timer fires at once. -/
theorem wakeUps_start (timeout start : Nat) (ahead : Bool) (first : List Deed)
    (ks : List WakeUp) :
    ∃ ks', wakeUps (start + timeout) (ahead || timeout = 0) (⟨start, first⟩ :: ks) =
      ⟨start, first⟩ :: ks' := by
  cases timeout with
  | zero => exact ⟨[], by simp [wakeUps]⟩
  | succ timeout => exact ⟨_, by simp [wakeUps]; rfl⟩

/-- When only the last of some wake-ups is late enough for the timer, the search for something
decisive ends there at the latest. -/
theorem findSome?_of_timer {timer : WakeUp} {early : List WakeUp}
    (hearly : ∀ k ∈ early, k.time < timer.time)
    (decided : List Deed → Option (Option Outcome)) :
    (early ++ [timer]).findSome? (fun k =>
        ((decided k.deeds).or (if timer.time ≤ k.time then some (some (.failed .timedOut))
          else none)).map (k.time, ·)) =
      some (((early ++ [timer]).findSome? fun k => (decided k.deeds).map (k.time, ·)).getD
        (timer.time, some (.failed .timedOut))) := by
  induction early with
  | nil => cases hdecided : decided timer.deeds <;> simp [hdecided]
  | cons k early ih =>
    have hk : ¬ timer.time ≤ k.time := by
      have hlt := hearly k (List.mem_cons_self ..)
      omega
    rw [List.cons_append, List.findSome?_cons, List.findSome?_cons, if_neg hk, Option.or_none]
    cases decided k.deeds with
    | some o => rfl
    | none => exact ih fun k' hk' => hearly k' (List.mem_cons_of_mem _ hk')

/-- The outcome of a watcher is the verdict of the first decisive burst among those before the
deadline and the one that the timer's wake-up finds; without one it is a timeout on the deadline,
and never earlier. -/
theorem play_eq (f : Feed) (target : PeerRef) (timeout start : Nat) (ahead : Bool)
    (first : List Deed) (bursts : List Burst) :
    play f target timeout start ahead first bursts =
      some (((wakeUps (start + timeout) (ahead || timeout = 0)
          (⟨start, first⟩ :: timed start bursts)).findSome? fun k =>
            (verdict target f.closed k.deeds).map (k.time, ·)).getD
        (start + timeout, some (.failed .timedOut))) := by
  obtain ⟨ks, hks⟩ := wakeUps_start timeout start ahead first (timed start bursts)
  have huntouched : ((Vigil.start f target timeout).armed (start + timeout)).Untouched f.closed :=
    Vigil.untouched_start f target timeout
  have hplay : play f target timeout start ahead first bursts =
      ((Vigil.start f target timeout).armed (start + timeout)).follow
        (wakeUps (start + timeout) (ahead || timeout = 0)
          (⟨start, first⟩ :: timed start bursts)) := by
    unfold play
    rw [hks]
    exact Vigil.follow_of_created rfl ks
  rw [hplay, Vigil.follow_of_waiting huntouched rfl, wakeUps]
  refine @findSome?_of_timer ⟨start + timeout, _⟩ _ (fun k hk => ?_) (verdict target f.closed)
  simpa using List.mem_takeWhile_imp hk

/-- The bursts before the deadline are not enough to tell the outcome: an event of the target on
the deadline itself still connects when it comes ahead of the timer's wake-up. -/
theorem play_ne_early :
    ¬ ∀ (f : Feed) (target : PeerRef) (timeout start : Nat) (ahead : Bool) (first : List Deed)
      (bursts : List Burst),
      play f target timeout start ahead first bursts =
        some ((((⟨start, first⟩ :: timed start bursts).takeWhile
            (·.time < start + timeout)).findSome? fun k =>
              (verdict target f.closed k.deeds).map (k.time, ·)).getD
          (start + timeout, some (.failed .timedOut))) := by
  intro h
  let target : PeerRef := ⟨.replicate 64 1, .v4 .loopback, 30303, 30303⟩
  have hplay := h .empty target 100 0 true [] [⟨100, [.feed (.send ⟨.added, target⟩)]⟩]
  revert hplay
  decide +kernel

end PeerProbe
