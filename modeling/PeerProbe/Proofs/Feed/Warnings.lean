import PeerProbe.Proofs.Feed.Owners

/-!
# Warnings on a subscription

A subscription tells its owner that an identity is gone in two ways: the drop of the identity is
among the events that wait, or the subscription has ended. Only the owner can take such a warning
away, so it stands until he has looked at it, whatever is sent and whoever else subscribes.
-/

namespace PeerProbe

/-- A subscription has ended, or the drop of an identity is among its events. -/
def Subscription.Warns (s : Subscription) (id : NodeId) : Prop :=
  s.active = false ∨ ∃ e ∈ s.buffer, e.change = .dropped ∧ e.peer.id = id

namespace Feed

variable {f f' : Feed} {i : Nat} {id : NodeId}

/-- Only its owner takes a warning from a subscription. -/
theorem warns_used {s : Subscription} (h : s.Warns id) {u : Use} (hu : u.owner? ≠ some i) :
    (s.used i u).Warns id := by
  have hended (e : SubscriptionError) : (s.ended e).Warns id := by
    unfold Subscription.ended
    split
    · exact .inl rfl
    · exact h
  cases u with
  | act a =>
    cases a with
    | send e =>
      simp only [Subscription.used, Subscription.acted, Subscription.offered]
      split
      · exact h.imp_right (Exists.imp fun _ he => he.imp_left (List.mem_append_left _))
      · split
        · exact hended _
        · exact .inl rfl
    | fail e => exact hended e
    | close => exact hended _
    | reopen => exact h
  | subscribe => exact h
  | count =>
    simp only [Subscription.used]
    split
    · exact h
    · exact .inl rfl
  | receive j | takeError j | drop j =>
    have hj : j ≠ i := fun hj => hu (hj ▸ rfl)
    simpa [Subscription.used, hj] using h

/-- A warning stays while the feed is used by others. -/
theorem UsedBy.warns (h : f.UsedBy (· ≠ i) f') (hi : i < f.next) (hwarns : (f.get i).Warns id) :
    (f'.get i).Warns id := by
  obtain ⟨us, rfl, hus⟩ := h
  induction us generalizing f with
  | nil => exact hwarns
  | cons u us ih =>
    have hu : u.owner? ≠ some i := fun hu => hus u List.mem_cons_self i hu rfl
    refine ih (f := f.use u) (lt_next_use hi u) ?_ fun v hv => hus v (List.mem_cons_of_mem _ hv)
    rw [get_use hi]
    exact warns_used hwarns hu

/-- It stays whatever happens to the feed. -/
theorem Acted.warns (h : f.Acted f') (hwarns : (f.get i).Warns id) : (f'.get i).Warns id := by
  obtain ⟨acts, rfl⟩ := h
  induction acts generalizing f with
  | nil => exact hwarns
  | cons a acts ih =>
    refine ih (f := f.act a) ?_
    rw [get_act]
    exact warns_used (i := i) (u := .act a) hwarns nofun

/-- The drop of an identity warns everybody, also those whom it does not reach. -/
theorem warns_send (f : Feed) (i : Nat) (p : PeerRef) :
    ((f.send ⟨.dropped, p⟩).get i).Warns p.id := by
  change ((f.act (.send ⟨.dropped, p⟩)).get i).Warns p.id
  rw [get_act]
  simp only [Subscription.acted, Subscription.offered]
  split
  · exact .inr ⟨⟨.dropped, p⟩, by simp, rfl, rfl⟩
  · left
    unfold Subscription.ended
    split
    · split
      · rfl
      · next hactive => simpa using hactive
    · rfl

/-- So does the end of the feed. -/
theorem warns_close (f : Feed) (i : Nat) (id : NodeId) : (f.close.get i).Warns id := by
  change ((f.act .close).get i).Warns id
  rw [get_act]
  left
  simp only [Subscription.acted, Subscription.ended]
  split
  · rfl
  · next hactive => simpa using hactive

end Feed

end PeerProbe
