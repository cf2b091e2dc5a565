import PeerProbe.Proofs.Feed.Delivery

/-!
# What the owners of subscriptions take

Only its owner takes anything from a subscription or drops it. What somebody is handed is therefore
known from his own uses of the feed, and however he and others use it, the events he is handed are
the first ones that were sent since he subscribed.
-/

namespace PeerProbe

namespace Feed

variable {f f' : Feed} {i : Nat} {us : List Use}

/-! ## Events in the order of sending -/

/-- Uses behind others. -/
theorem used_append (f : Feed) (us vs : List Use) : f.used (us ++ vs) = (f.used us).used vs :=
  List.foldl_append ..

/-- Numbers are not given back. -/
theorem next_le_used (f : Feed) (us : List Use) : f.next ≤ (f.used us).next := by
  induction us generalizing f with
  | nil => exact Nat.le_refl _
  | cons u us ih =>
    refine Nat.le_trans ?_ (ih (f.use u))
    rw [next_use]
    split <;> omega

/-- What is handed over in uses behind others comes behind what these hand over. -/
theorem received_append (f : Feed) (i : Nat) (us vs : List Use) :
    f.received i (us ++ vs) = f.received i us ++ (f.used us).received i vs := by
  induction us generalizing f with
  | nil => rfl
  | cons u us ih =>
    rw [List.cons_append, received, received, ih, List.append_assoc]
    rfl

/-- Events sent behind others. -/
theorem sent_append (us vs : List Use) : sent (us ++ vs) = sent us ++ sent vs :=
  List.filterMap_append ..

/-- A life is the beginning of what is done to the feed. -/
theorem lifeFrom_uses_initial (i n : Nat) (us : List Use) : (lifeFrom i n us).uses <+: us := by
  induction us generalizing n with
  | nil => exact List.prefix_rfl
  | cons u us ih =>
    unfold lifeFrom
    split
    · exact List.nil_prefix
    · exact List.prefix_cons_inj u |>.mpr (ih _)

/-- So is the whole life of a subscription. -/
theorem life_uses_initial (closed : Bool) (i : Nat) (us : List Use) :
    (life closed i us).uses <+: us := by
  cases closed with
  | true => exact List.nil_prefix
  | false => exact lifeFrom_uses_initial i 0 us

/-- Nothing is handed over from a subscription that was dropped. -/
theorem received_of_dropped (hi : i < f.next) (hlistening : (f.get i).listening = false)
    (hbuffer : (f.get i).buffer = []) (us : List Use) : f.received i us = [] := by
  induction us generalizing f with
  | nil => rfl
  | cons u us ih =>
    have hhanded : f.handedBy i u = [] := by
      cases u with
      | receive j =>
        change (if j = i then ((f.receive? i).map (·.1)).toList else []) = []
        rw [receive?_of_nil hbuffer, Option.map_none, Option.toList_none, ite_self]
      | act | subscribe | count | takeError | drop => rfl
    have hused : ((f.get i).used i u).listening = false ∧ ((f.get i).used i u).buffer = [] := by
      generalize f.get i = s at hlistening hbuffer
      cases u with
      | act a =>
        cases a <;> cases hactive : s.active <;>
          simp [Subscription.used, Subscription.acted, Subscription.offered, Subscription.accepts,
            Subscription.ended, hlistening, hbuffer, hactive]
      | subscribe => exact ⟨hlistening, hbuffer⟩
      | count => simp [Subscription.used, hlistening, hbuffer]
      | receive j | takeError j | drop j =>
        by_cases hj : j = i <;> simp [Subscription.used, hj, hlistening, hbuffer]
    rw [← get_use hi] at hused
    rw [received, hhanded, ih (lt_next_use hi u) hused.1 hused.2, List.append_nil]

/-- What a new subscriber is handed are the first events that are sent since. -/
theorem received_prefix_sent (f : Feed) (us : List Use) :
    f.subscribe.received f.next us <+: sent us := by
  have hnext : f.next < f.subscribe.next := by simp [next, subscribe]
  -- as long as he has not dropped the subscription, what he was handed belongs to its life
  have hkept (vs : List Use) (hvs : .drop f.next ∉ vs) :
      f.subscribe.received f.next vs <+: sent vs := by
    have hevents := (account_of_subscribe f hvs).1
    have hlife : sent (life f.closed f.next vs).uses <+: sent vs := (life_uses_initial ..).filterMap _
    exact (List.prefix_append ..).trans (hevents ▸ hlife)
  by_cases hdrop : .drop f.next ∈ us
  · obtain ⟨vs, ws, rfl, hvs⟩ := List.eq_append_cons_of_mem hdrop
    have hlt : f.next < (f.subscribe.used vs).next := Nat.lt_of_lt_of_le hnext (next_le_used _ vs)
    have hget : ((f.subscribe.used vs).use (.drop f.next)).get f.next =
        ((f.subscribe.used vs).get f.next).used f.next (.drop f.next) := get_use hlt _
    have hnothing : ((f.subscribe.used vs).use (.drop f.next)).received f.next ws = [] :=
      received_of_dropped (lt_next_use hlt _) (by rw [hget]; simp [Subscription.used])
        (by rw [hget]; simp [Subscription.used]) ws
    rw [received_append, received, hnothing, sent_append]
    exact (by simpa [handedBy] using hkept vs hvs :
      f.subscribe.received f.next vs ++ ((f.subscribe.used vs).handedBy f.next (.drop f.next) ++ [])
        <+: sent vs).trans (List.prefix_append ..)
  · exact hkept us hdrop

/-! ## Owners -/

/-- The subscription whose owner uses the feed. -/
def Use.owner? : Use → Option Nat
  | .receive i | .takeError i | .drop i => some i
  | _ => none

/-- Uses of others hand over nothing. -/
theorem received_of_others (h : ∀ u ∈ us, u.owner? ≠ some i) : f.received i us = [] := by
  induction us generalizing f with
  | nil => rfl
  | cons u us ih =>
    have hhanded : f.handedBy i u = [] := by
      cases u with
      | receive j =>
        have hj : j ≠ i := fun hj => h _ List.mem_cons_self (by rw [hj]; rfl)
        exact if_neg hj
      | act | subscribe | count | takeError | drop => rfl
    rw [received, hhanded, ih fun v hv => h v (List.mem_cons_of_mem _ hv), List.append_nil]

/-- What becomes of a feed while only some owners use it, beside those who send on it, end it, open
it or subscribe. -/
def UsedBy (owners : Nat → Prop) (f f' : Feed) : Prop :=
  ∃ us, f' = f.used us ∧ ∀ u ∈ us, ∀ i, u.owner? = some i → owners i

/-- Nothing may become of it. -/
theorem UsedBy.refl (owners : Nat → Prop) (f : Feed) : f.UsedBy owners f := ⟨[], rfl, by simp⟩

/-- One use. -/
theorem usedBy_use {owners : Nat → Prop} {u : Use} (h : ∀ i, u.owner? = some i → owners i) :
    f.UsedBy owners (f.use u) := ⟨[u], rfl, by simpa using h⟩

/-- What becomes of it later becomes of it. -/
theorem UsedBy.trans {owners : Nat → Prop} {f'' : Feed} (h : f.UsedBy owners f')
    (h' : f'.UsedBy owners f'') : f.UsedBy owners f'' := by
  obtain ⟨us, rfl, hus⟩ := h
  obtain ⟨vs, rfl, hvs⟩ := h'
  exact ⟨us ++ vs, (used_append ..).symm, fun u hu =>
    (List.mem_append.mp hu).elim (hus u) (hvs u)⟩

/-- What happens to a feed is nobody's use of a subscription. -/
theorem Acted.usedBy (h : f.Acted f') (owners : Nat → Prop) : f.UsedBy owners f' := by
  obtain ⟨acts, rfl⟩ := h
  refine ⟨acts.map .act, by rw [used, List.foldl_map]; rfl, fun u hu i hi => ?_⟩
  obtain ⟨a, -, rfl⟩ := List.mem_map.mp hu
  contradiction

/-- Numbers are not given back meanwhile. -/
theorem UsedBy.next_le {owners : Nat → Prop} (h : f.UsedBy owners f') : f.next ≤ f'.next := by
  obtain ⟨us, rfl, -⟩ := h
  exact next_le_used f us

end Feed

end PeerProbe
