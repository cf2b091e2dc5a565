import PeerProbe.Proofs.Node.Attempts
import PeerProbe.Proofs.Node.Bridges
import PeerProbe.Proofs.Transport.Publishing

/-!
# Who listens to the feed of a node

The tasks that listen to the feed are watchers and held peers. Each of them takes from its own
subscription only, and one that begins to listen has just subscribed, unless another user of the
transport has handed it a subscription of his own. So a subscription that other users leave alone
has one listener at most.
-/

namespace PeerProbe

namespace Node

variable {σ : Type} [Transport σ] {takes : Transport.Move σ → Nat → Prop} {n n' : Node σ}
  {i j k : Nat} {task : Task}

/-- Something that is done to a node leaves a subscription to its owner: nobody else takes from it,
and no watcher of another user listens to it. -/
def Act.Spares (takes : Transport.Move σ → Nat → Prop) (i : Nat) : Act σ → Prop
  | .move m => ¬ takes m i
  | .watch _ subscription _ _ => subscription ≠ i
  | .order _ | .cancelAttempt _ | .cancelWatch _ | .addSlot _ | .wait _ => True

/-- A move that spares a subscription takes from other ones at most. -/
theorem Act.Spares.ne_of_takes {act : Act σ} (h : act.Spares takes i) (m : Transport.Move σ)
    (hm : act = .move m) (j : Nat) (hj : takes m j) : j ≠ i := by
  subst hm
  rintro rfl
  exact h hj

/-! ## Who takes from a subscription -/

/-- A step of a task takes from the subscription that the task listens to, and from no other. -/
theorem usedBy_of_step? (hσ : Transport.Publishes σ takes) (h : n.step? task = some n') :
    (Transport.feed n.transport).UsedBy (n.subscription? task = some ·)
      (Transport.feed n'.transport) :=
  bridged_of_step? (hσ.bridges _) h fun _ hi => hi

/-- What is done to a node takes from no subscription that it spares. -/
theorem usedBy_of_act (hσ : Transport.Publishes σ takes) {act : Act σ} (h : act.Spares takes i) :
    (Transport.feed n.transport).UsedBy (· ≠ i) (Transport.feed (n.act act).transport) :=
  bridged_of_act (hσ.bridges _) (h.ne_of_takes · ·)

/-- Whatever happens, numbers of subscriptions are not given back. -/
theorem next_le_of_happens (hσ : Transport.Publishes σ takes)
    (h : Happens (Act.Spares takes i) n n') :
    (Transport.feed n.transport).next ≤ (Transport.feed n'.transport).next := by
  cases h with
  | step task h => exact (usedBy_of_step? hσ h).next_le
  | act act h => exact (usedBy_of_act hσ h).next_le

/-! ## Who listens -/

/-- The subscriptions that are listened to, by the kind of the task. -/
structure Listeners where
  watchers : List Nat
  openWatches : List Nat
  held : List Nat

/-- The subscription that a task listens to. -/
def Listeners.get? (l : Listeners) : Task → Option Nat
  | .watcher i => l.watchers[i]?
  | .openWatch i => l.openWatches[i]?
  | .held i => l.held[i]?
  | _ => none

omit [Transport σ] in
/-- The listeners of a node. -/
def listeners (n : Node σ) : Listeners :=
  ⟨n.attempts.map (·.watcher.subscription), n.watches.map (·.watcher.subscription),
    n.held.map (·.subscription)⟩

omit [Transport σ] in
/-- What a task listens to is read off the listeners. -/
theorem subscription?_eq (n : Node σ) (task : Task) :
    n.subscription? task = n.listeners.get? task := by
  cases task <;> simp [subscription?, listeners, Listeners.get?]

/-- One more task listens than before. -/
inductive Listeners.Joined (l : Listeners) (j : Nat) : Listeners → Prop where
  | watcher : Joined l j { l with watchers := l.watchers ++ [j] }
  | openWatch : Joined l j { l with openWatches := l.openWatches ++ [j] }
  | held : Joined l j { l with held := l.held ++ [j] }

/-- Everybody else listens to what he listened to before. -/
theorem Listeners.Joined.exists_task {l l' : Listeners} (h : l.Joined j l') :
    ∃ newcomer, l.get? newcomer = none ∧ l'.get? newcomer = some j ∧
      ∀ task, task ≠ newcomer → l'.get? task = l.get? task := by
  have hother (us : List Nat) (i : Nat) (hi : i ≠ us.length) : (us ++ [j])[i]? = us[i]? := by
    rcases Nat.lt_or_ge i us.length with hlt | hge
    · exact List.getElem?_append_left hlt
    · rw [List.getElem?_eq_none (by simp; omega), List.getElem?_eq_none hge]
  cases h with
  | watcher =>
    refine ⟨.watcher l.watchers.length, List.getElem?_eq_none (Nat.le_refl _),
      List.getElem?_concat_length, fun task htask => ?_⟩
    cases task with
    | watcher i => exact hother _ i fun hi => htask (hi ▸ rfl)
    | _ => rfl
  | openWatch =>
    refine ⟨.openWatch l.openWatches.length, List.getElem?_eq_none (Nat.le_refl _),
      List.getElem?_concat_length, fun task htask => ?_⟩
    cases task with
    | openWatch i => exact hother _ i fun hi => htask (hi ▸ rfl)
    | _ => rfl
  | held =>
    refine ⟨.held l.held.length, List.getElem?_eq_none (Nat.le_refl _),
      List.getElem?_concat_length, fun task htask => ?_⟩
    cases task with
    | held i => exact hother _ i fun hi => htask (hi ▸ rfl)
    | _ => rfl

/-- What is read off a list stays when an element is replaced by one of which the same is read. -/
theorem map_set_eq {α β : Type} {f : α → β} {l : List α} {a b : α} (ha : l[j]? = some a)
    (hf : f b = f a) : (l.set j b).map f = l.map f := by
  obtain ⟨hlt, rfl⟩ := List.getElem?_eq_some_iff.mp ha
  refine List.ext_getElem? fun i => ?_
  rw [List.getElem?_map, List.getElem?_map, List.getElem?_set]
  split
  · next hi =>
    subst hi
    simp [hlt, hf]
  · rfl

/-- Or when it is modified in another respect. -/
theorem map_modify_eq {α β : Type} {f : α → β} {g : α → α} (l : List α) (j : Nat)
    (hf : ∀ a, f (g a) = f a) : (l.modify j g).map f = l.map f := by
  refine List.ext_getElem? fun i => ?_
  rw [List.getElem?_map, List.getElem?_map, List.getElem?_modify]
  cases l[i]? with
  | none => rfl
  | some a =>
    change some (f (if j = i then g a else a)) = some (f a)
    split
    · rw [hf]
    · rfl

/-- What becomes of the listeners: none is new, or one is, who has just subscribed or is a watcher
with a subscription that another user has. -/
inductive ListenersChange (allowed : Act σ → Prop) (n n' : Node σ) : Prop where
  | same (h : n'.listeners = n.listeners)
  | subscribed (h : n.listeners.Joined (Transport.feed n.transport).next n'.listeners)
      (hfeed : Transport.feed n'.transport = (Transport.feed n.transport).subscribe)
  | handed {target : PeerRef} {subscription timeout : Nat} {cancelled : Bool}
      (hallowed : allowed (.watch target subscription timeout cancelled))
      (h : n.listeners.Joined subscription n'.listeners)

/-- Whatever happens, the listeners change in one of these ways. -/
theorem listenersChange_of_happens (hσ : Transport.Publishes σ takes) {allowed : Act σ → Prop}
    (h : Happens allowed n n') : ListenersChange allowed n n' := by
  have hcancel (k : Nat) : (n.cancelAttempt k).listeners = n.listeners := by
    simp only [listeners, cancelAttempt]
    rw [map_modify_eq n.attempts k]
    exact fun _ => rfl
  cases h with
  | act act hallowed =>
    cases act with
    | watch target subscription timeout cancelled =>
      refine .handed hallowed ?_
      simp only [Node.act, listeners, List.map_append]
      exact .openWatch
    | cancelWatch j =>
      refine .same ?_
      simp only [Node.act, listeners]
      rw [map_modify_eq n.watches j]
      exact fun _ => rfl
    | cancelAttempt k => exact .same (hcancel k)
    | order | addSlot | move | wait => exact .same rfl
  | step task h =>
    cases stepped_of_step? h with
    | @attempt j a cfg s ha hcfg hs =>
      have hwatchers : (n.attempts.set j s.1).map (·.watcher.subscription) =
          n.attempts.map (·.watcher.subscription) :=
        map_set_eq ha (by rw [(Attempt.advance_of_step? hs).watcher])
      cases hheld : s.2.2.2 with
      | none =>
        refine .same ?_
        split <;> simp [listeners, attempted, setBusy, logged, hwatchers, hheld]
      | some peer =>
        obtain ⟨hsubscription, hfeed⟩ := Attempt.subscription_of_step? hσ hs hheld
        refine .subscribed ?_ (by split <;> exact hfeed)
        have hjoined : n.listeners.Joined (Transport.feed n.transport).next
            (n.attempted j s).listeners := by
          simp only [listeners, attempted, logged, hwatchers, hheld, Option.toList_some,
            List.map_append, List.map_singleton, hsubscription]
          exact .held
        split <;> exact hjoined
    | @watcher j a r ha hr =>
      have hwatcher : r.1.watcher.subscription = a.watcher.subscription := by
        obtain ⟨w, hw, rfl⟩ := Attempt.exists_of_watcherStep? hr
        exact (Watcher.step?_target hw).2
      exact .same (by simp only [listeners, logged]; rw [map_set_eq ha hwatcher])
    | openWatch hw hr =>
      refine .same ?_
      simp only [listeners, logged]
      rw [map_set_eq hw (Watcher.step?_target hr).2]
    | held hh hr =>
      refine .same ?_
      simp only [listeners, logged]
      rw [map_set_eq hh (HeldPeer.subscription_of_step? hr)]
    | background => exact .same rfl
    | call hc hstep hreach =>
      cases hreach with
      | apart hsame =>
        exact .same (by simp [listeners, hsame.attempts, hsame.watches, hsame.held])
      | claim => exact .same rfl
      | begin purpose slot peer timeout =>
        refine .subscribed ?_ (hσ.feed_subscribe n.transport)
        simp only [listeners, subscribeStep, List.map_append]
        exact .watcher
      | cancel k => exact .same (hcancel k)

/-! ## One listener at most -/

/-- Whoever listens to a subscription has subscribed before. -/
def Subscribed (n : Node σ) (i : Nat) : Prop :=
  ∀ task, n.subscription? task = some i → i < (Transport.feed n.transport).next

/-- Nobody listens in a new node. -/
theorem subscribed_create (t : σ) (cfg : AttemptConfig) (timeout i : Nat) :
    (create t cfg timeout).Subscribed i := by
  intro task h
  cases task <;> simp [create, subscription?] at h

/-- Nobody but one task listens to a subscription, and it is there. -/
structure Sole (n : Node σ) (listener : Task) (i : Nat) : Prop where
  lt_next : i < (Transport.feed n.transport).next
  others : ∀ task, task ≠ listener → n.subscription? task ≠ some i

/-- Nobody else listens to the subscription of an attempt's watcher, and it is there. -/
structure Alone (n : Node σ) (k i : Nat) : Prop where
  lt_next : i < (Transport.feed n.transport).next
  others : ∀ task, task ≠ .watcher k → n.subscription? task ≠ some i

/-- Whoever listens to a subscription that others spare has listened to it before, or has just
subscribed and is the only new listener. -/
theorem listener_origin (hσ : Transport.Publishes σ takes)
    (h : Happens (Act.Spares takes i) n n') (htask : n'.subscription? task = some i) :
    n.subscription? task = some i ∨
      i = (Transport.feed n.transport).next ∧
        Transport.feed n'.transport = (Transport.feed n.transport).subscribe ∧
          n.subscription? task = none ∧
            ∀ other, other ≠ task → n'.subscription? other = n.subscription? other := by
  rw [subscription?_eq] at htask ⊢
  simp only [subscription?_eq]
  cases listenersChange_of_happens hσ h with
  | same hsame => exact .inl (hsame ▸ htask)
  | subscribed hjoined hfeed =>
    obtain ⟨newcomer, hnew, hnew', hothers⟩ := hjoined.exists_task
    by_cases hnewcomer : task = newcomer
    · subst hnewcomer
      exact .inr ⟨Option.some.inj (htask.symm.trans hnew'), hfeed, hnew, hothers⟩
    · exact .inl (hothers task hnewcomer ▸ htask)
  | handed hspares hjoined =>
    obtain ⟨newcomer, hnew, hnew', hothers⟩ := hjoined.exists_task
    by_cases hnewcomer : task = newcomer
    · subst hnewcomer
      exact absurd (Option.some.inj (hnew'.symm.trans htask)) hspares
    · exact .inl (hothers task hnewcomer ▸ htask)

/-- Whatever happens, listeners have subscribed. -/
theorem Subscribed.happens (hσ : Transport.Publishes σ takes) (hn : n.Subscribed i)
    (h : Happens (Act.Spares takes i) n n') : n'.Subscribed i := by
  intro task htask
  rcases listener_origin hσ h htask with hold | ⟨hi, hfeed, -⟩
  · exact Nat.lt_of_lt_of_le (hn task hold) (next_le_of_happens hσ h)
  · rw [hfeed, hi]
    simp [Feed.next, Feed.subscribe]

/-- Listeners have subscribed in every state that a node gets into. -/
theorem Subscribed.reachable (hσ : Transport.Publishes σ takes) (hn : n.Subscribed i)
    (h : Reachable (Act.Spares takes i) n n') : n'.Subscribed i := by
  induction h with
  | first => exact hn
  | next _ hstep ih => exact ih.happens hσ hstep

/-- Whatever happens, nobody begins to listen to a subscription that is there already. -/
theorem Sole.happens (hσ : Transport.Publishes σ takes) {listener : Task} (hn : n.Sole listener i)
    (h : Happens (Act.Spares takes i) n n') : n'.Sole listener i where
  lt_next := Nat.lt_of_lt_of_le hn.lt_next (next_le_of_happens hσ h)
  others task htask hlistens := by
    rcases listener_origin hσ h hlistens with hold | ⟨hi, -⟩
    · exact hn.others task htask hold
    · exact absurd hn.lt_next (hi ▸ Nat.lt_irrefl _)

/-- A task that has just subscribed listens alone. -/
theorem Subscribed.sole (hσ : Transport.Publishes σ takes) (hn : n.Subscribed i)
    (h : Happens (Act.Spares takes i) n n') (hi : i = (Transport.feed n.transport).next)
    {listener : Task} (hlistens : n'.subscription? listener = some i) : n'.Sole listener i := by
  have hnobody (task : Task) : n.subscription? task ≠ some i := fun hlistens =>
    absurd (hn task hlistens) (hi ▸ Nat.lt_irrefl _)
  rcases listener_origin hσ h hlistens with hold | ⟨-, hfeed, -, hothers⟩
  · exact absurd hold (hnobody _)
  · exact ⟨by rw [hfeed, hi]; simp [Feed.next, Feed.subscribe], fun task htask =>
      hothers task htask ▸ hnobody task⟩

/-- Whatever happens, the watcher of an attempt stays alone. -/
theorem Alone.happens (hσ : Transport.Publishes σ takes) (hn : n.Alone k i)
    (h : Happens (Act.Spares takes i) n n') : n'.Alone k i :=
  have hsole : n'.Sole (.watcher k) i := Sole.happens hσ ⟨hn.lt_next, hn.others⟩ h
  ⟨hsole.lt_next, hsole.others⟩

/-- The watcher of an attempt that has just subscribed is alone. -/
theorem Subscribed.alone (hσ : Transport.Publishes σ takes) (hn : n.Subscribed i)
    (h : Happens (Act.Spares takes i) n n') (hi : i = (Transport.feed n.transport).next)
    (hk : n'.subscription? (.watcher k) = some i) : n'.Alone k i :=
  have hsole : n'.Sole (.watcher k) i := hn.sole hσ h hi hk
  ⟨hsole.lt_next, hsole.others⟩

end Node

end PeerProbe
