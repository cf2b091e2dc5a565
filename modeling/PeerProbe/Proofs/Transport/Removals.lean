import PeerProbe.Proofs.Feed.Warnings
import PeerProbe.Proofs.Transport.InProcess

/-!
# Removals on the transport inside one process

The transport remembers for which identities it has handed out a connection. Nothing but a removal
or a stop makes it forget one, and both say so on the feed: a removal sends a drop, a stop ends
every subscription. A subscription that is there meanwhile is therefore warned.
-/

namespace PeerProbe

namespace InProcess

variable {t t' t'' : InProcess} {i : Nat} {id : NodeId} {p : PeerRef}

/-! ## Disconnecting -/

/-- How often the removal of an identity was asked for. -/
def removalsOf (t : InProcess) (id : NodeId) : Nat := t.removals.countP (·.id = id)

/-- An identity is disconnected: its removal is asked for, or the transport stops. -/
def Disconnects (id : NodeId) (t t' : InProcess) : Prop :=
  t.removalsOf id < t'.removalsOf id ∨ t.running = true ∧ t'.running = false

/-- What neither removes nor stops leaves it known which connections were handed out. -/
structure Calm (t t' : InProcess) : Prop where
  removals : t'.removals = t.removals
  running : t.running = true → t'.running = true
  taken : ∀ id ∈ t.taken, id ∈ t'.taken

/-- What is calm disconnects nobody. -/
theorem Calm.not_disconnects (h : t.Calm t') : ¬ Disconnects id t t' := by
  rintro (hremoved | ⟨hrunning, hstopped⟩)
  · rw [removalsOf, removalsOf, h.removals] at hremoved
    exact Nat.lt_irrefl _ hremoved
  · rw [h.running hrunning] at hstopped
    contradiction

theorem Quiet.calm (h : t.Quiet t') : t.Calm t' :=
  ⟨h.removals, fun hrunning => h.running.trans hrunning, fun _ hid => h.taken ▸ hid⟩

theorem calm_take (p : PeerRef) (t : InProcess) : t.Calm (t.take p).2 := by
  unfold take
  split
  · exact ⟨rfl, id, fun _ => List.mem_cons_of_mem _⟩
  · exact (Quiet.refl t).calm

theorem calm_attach (l : Link) (t : InProcess) : t.Calm (t.attach l).2 := by
  unfold attach
  dsimp only
  split
  · next old _ =>
    have hreleased := (quiet_release old t).calm
    exact ⟨hreleased.removals, hreleased.running, hreleased.taken⟩
  · exact ⟨rfl, id, fun _ => id⟩

theorem calm_start (t : InProcess) : t.Calm t.start.2 := by
  unfold start
  split
  · exact (Quiet.refl t).calm
  · split
    · exact (Quiet.refl t).calm
    · exact ⟨rfl, fun _ => rfl, fun _ => id⟩

/-- What a removal does: it is noted, what is attached and what was handed out for the identity is
forgotten, and the drop is sent if something was handed out. -/
structure Removes (p : PeerRef) (t t' : InProcess) : Prop where
  removals : t'.removals = t.removals ++ [p]
  taken : t'.taken = t.taken.filter (· ≠ p.id)
  attached : t'.attached ⊆ t.attached
  peers : t'.peers = t.peers
  warns : p.id ∈ t.taken → ∀ i, (t'.feed.get i).Warns p.id

theorem removes_remove (p : PeerRef) (t : InProcess) : Removes p t (t.remove p) := by
  unfold remove
  extract_lets noted had detached forgotten
  have hdetached : detached.removals = noted.removals ∧ detached.taken = noted.taken ∧
      detached.attached ⊆ noted.attached ∧ detached.peers = noted.peers := by
    unfold detached
    split
    · next c _ =>
      have hquiet := quiet_release c noted
      refine ⟨hquiet.removals, hquiet.taken, fun a ha => ?_, hquiet.peers⟩
      exact hquiet.attached ▸ (List.mem_filter.mp ha).1
    · exact ⟨rfl, rfl, List.Subset.refl _, rfl⟩
  obtain ⟨hremovals, htaken, hattached, hpeers⟩ := hdetached
  have hforgotten : forgotten.taken = t.taken.filter (· ≠ p.id) := by
    change detached.taken.filter (· ≠ p.id) = _
    rw [htaken]
  split
  · exact ⟨hremovals, hforgotten, hattached, hpeers, fun _ i => Feed.warns_send forgotten.feed i p⟩
  · next hhad =>
    refine ⟨hremovals, hforgotten, hattached, hpeers, fun hid => absurd ?_ hhad⟩
    have hcontains : noted.taken.contains p.id = true := List.contains_iff_mem.mpr hid
    simp only [had, hcontains, Bool.true_or]

/-- A removal disconnects its identity and no other one. -/
theorem disconnects_remove_iff : Disconnects id t (t.remove p) ↔ p.id = id := by
  have hremoves := removes_remove p t
  unfold Disconnects removalsOf
  rw [hremoves.removals, (onward_remove p t).running, List.countP_append]
  by_cases hp : p.id = id <;> simp [hp]

/-- What a stop does while the transport runs: everybody is warned, and everything is forgotten but
the peers. -/
structure Stops (t t' : InProcess) : Prop where
  stopped : t'.running = false
  removals : t'.removals = t.removals
  attached : t'.attached = []
  peers : t'.peers = t.peers
  warns : ∀ i id, (t'.feed.get i).Warns id

theorem stops_stop (hrunning : t.running = true) : t.Stops t.stop := by
  have hall := quiet_releaseAll t.attached { t with running := false, feed := t.feed.close }
  unfold stop
  rw [if_pos hrunning]
  exact ⟨hall.running, hall.removals, rfl, hall.peers,
    fun i id => hall.feed.warns (Feed.warns_close t.feed i id)⟩

theorem stop_eq_self (hstopped : t.running = false) : t.stop = t := by simp [stop, hstopped]

/-- A stop disconnects everybody if the transport runs, and nobody otherwise. -/
theorem disconnects_stop_iff : Disconnects id t t.stop ↔ t.running = true := by
  cases hrunning : t.running with
  | true => exact iff_of_true (.inr ⟨hrunning, (stops_stop hrunning).stopped⟩) rfl
  | false =>
    rw [stop_eq_self hrunning]
    exact iff_of_false (Quiet.refl t).calm.not_disconnects nofun

/-- What is done about peers and connections is calm, but for removals. -/
theorem calm_of_touch (h : Transport.Touch t t') : t.Calm t' ∨ ∃ p, t' = t.remove p := by
  obtain hquiet | ⟨p, rfl⟩ | hremove := quiet_of_touch h
  · exact .inl hquiet.calm
  · exact .inl (calm_take p t)
  · exact .inr hremove

/-- So is what happens from outside. -/
theorem calm_of_move (now : Nat) (m : Move) (t : InProcess) :
    t.Calm (t.move now m) ∨ ∃ p, t.move now m = t.remove p := by
  obtain hquiet | ⟨f, -, hmove⟩ | ⟨l, hmove⟩ | ⟨p, hmove⟩ | hremove := quiet_of_move now m t
  · exact .inl hquiet.calm
  · exact .inl (hmove ▸ ⟨rfl, id, fun _ => id⟩)
  · exact .inl (hmove ▸ calm_attach l t)
  · exact .inl (hmove ▸ calm_take p t)
  · exact .inr hremove

/-! ## Who is forgotten and who is warned -/

/-- Nobody is disconnected in two steps if nobody is in either of them. -/
theorem not_disconnects_trans (h : ¬ Disconnects id t t') (h' : ¬ Disconnects id t' t'') :
    ¬ Disconnects id t t'' := by
  simp only [Disconnects, not_or, not_and, Bool.not_eq_false] at h h' ⊢
  exact ⟨by omega, fun hrunning => h'.2 (h.2 hrunning)⟩

/-- Removals that were asked for stay so, and an identity is not forgotten unless it is
disconnected. -/
structure Remembers (id : NodeId) (t t' : InProcess) : Prop where
  removals : t.removalsOf id ≤ t'.removalsOf id
  taken : id ∈ t.taken → id ∈ t'.taken ∨ Disconnects id t t'

theorem remembers_of_calm (h : t.Calm t') : Remembers id t t' :=
  ⟨Nat.le_of_eq (by rw [removalsOf, removalsOf, h.removals]), fun hid => .inl (h.taken id hid)⟩

theorem remembers_remove (p : PeerRef) (t : InProcess) : Remembers id t (t.remove p) := by
  have hremoves := removes_remove p t
  refine ⟨?_, fun hid => ?_⟩
  · rw [removalsOf, removalsOf, hremoves.removals, List.countP_append]
    exact Nat.le_add_right _ _
  · by_cases hp : p.id = id
    · exact .inr (disconnects_remove_iff.mpr hp)
    · rw [hremoves.taken]
      exact .inl (List.mem_filter.mpr ⟨hid, by simpa using Ne.symm hp⟩)

theorem remembers_of_touch (h : Transport.Touch t t') : Remembers id t t' := by
  obtain hcalm | ⟨p, rfl⟩ := calm_of_touch h
  · exact remembers_of_calm hcalm
  · exact remembers_remove p t

/-- What was remembered, or disconnected, still is behind something done about a peer or a
connection. -/
theorem Remembers.touch (h : Remembers id t t') (htouch : Transport.Touch t' t'') :
    Remembers id t t'' := by
  have hnext : Remembers id t' t'' := remembers_of_touch htouch
  have hrunning := (onward_of_touch htouch).running
  refine ⟨Nat.le_trans h.removals hnext.removals, fun hid => ?_⟩
  obtain hid' | hremoved | ⟨hran, hstopped⟩ := h.taken hid
  · refine (hnext.taken hid').imp_right ?_
    rintro (hremoved | ⟨hran, hstopped⟩)
    · exact .inl (Nat.lt_of_le_of_lt h.removals hremoved)
    · rw [hrunning, hran] at hstopped
      contradiction
  · exact .inr (.inl (Nat.lt_of_lt_of_le hremoved hnext.removals))
  · exact .inr (.inr ⟨hran, hrunning.trans hstopped⟩)

/-- Whatever is done to the transport, nobody is forgotten who is not disconnected. -/
theorem bridges_remembers (id : NodeId) :
    Transport.Bridges (σ := InProcess) Move.takes (fun _ => True) (Remembers id) where
  refl t := remembers_of_calm (Quiet.refl t).calm
  start t := remembers_of_calm (calm_start t)
  stop t := by
    change Remembers id t t.stop
    cases hrunning : t.running with
    | true =>
      have hstops := stops_stop hrunning
      exact ⟨Nat.le_of_eq (by rw [removalsOf, removalsOf, hstops.removals]),
        fun _ => .inr (disconnects_stop_iff.mpr hrunning)⟩
    | false =>
      rw [stop_eq_self hrunning]
      exact remembers_of_calm (Quiet.refl t).calm
  touch _ _ _ h htouch := h.touch htouch
  withFeed _ _ _ h _ := ⟨h.removals, h.taken⟩
  move now m t _ := by
    obtain hcalm | ⟨p, hmove⟩ := calm_of_move now m t
    · exact remembers_of_calm hcalm
    · rw [show Transport.move now m t = t.remove p from hmove]
      exact remembers_remove p t

/-- Seen from a subscription that is there: a warning stays, and an identity whose connection was
handed out is warned of or still remembered, and not disconnected meanwhile. -/
structure Watched (i : Nat) (id : NodeId) (t t' : InProcess) : Prop where
  next_le : t.feed.next ≤ t'.feed.next
  warned : i < t.feed.next → (t.feed.get i).Warns id → (t'.feed.get i).Warns id
  taken : i < t.feed.next → id ∈ t.taken →
    (t'.feed.get i).Warns id ∨ id ∈ t'.taken ∧ ¬ Disconnects id t t'

theorem Watched.refl (i : Nat) (id : NodeId) (t : InProcess) : Watched i id t t :=
  ⟨Nat.le_refl _, fun _ h => h, fun _ hid => .inr ⟨hid, (Quiet.refl t).calm.not_disconnects⟩⟩

theorem Watched.trans (h : Watched i id t t') (h' : Watched i id t' t'') : Watched i id t t'' := by
  refine ⟨Nat.le_trans h.next_le h'.next_le, fun hi hwarns => ?_, fun hi hid => ?_⟩
  · exact h'.warned (Nat.lt_of_lt_of_le hi h.next_le) (h.warned hi hwarns)
  · have hi' := Nat.lt_of_lt_of_le hi h.next_le
    obtain hwarns | ⟨hid', hkept⟩ := h.taken hi hid
    · exact .inl (h'.warned hi' hwarns)
    · exact (h'.taken hi' hid').imp_right fun ⟨hid'', hkept'⟩ =>
        ⟨hid'', not_disconnects_trans hkept hkept'⟩

/-- What is calm and leaves the subscription to its owner. -/
theorem watched_of_calm (h : t.Calm t') (hfeed : t.feed.UsedBy (· ≠ i) t'.feed) :
    Watched i id t t' :=
  ⟨hfeed.next_le, fun hi hwarns => hfeed.warns hi hwarns,
    fun _ hid => .inr ⟨h.taken id hid, h.not_disconnects⟩⟩

theorem watched_remove (p : PeerRef) (t : InProcess) : Watched i id t (t.remove p) := by
  have hremoves := removes_remove p t
  have hfeed := (onward_remove p t).feed
  refine ⟨Nat.le_of_eq hfeed.next.symm, fun _ => hfeed.warns, fun _ hid => ?_⟩
  by_cases hp : p.id = id
  · subst hp
    exact .inl (hremoves.warns hid i)
  · rw [hremoves.taken]
    exact .inr ⟨List.mem_filter.mpr ⟨hid, by simpa using Ne.symm hp⟩,
      fun hdisconnects => hp (disconnects_remove_iff.mp hdisconnects)⟩

theorem watched_stop (t : InProcess) : Watched i id t t.stop := by
  cases hrunning : t.running with
  | true =>
    have hwarns := (stops_stop hrunning).warns i id
    exact ⟨Nat.le_of_eq (stop_spec t).2.next.symm, fun _ _ => hwarns, fun _ _ => .inl hwarns⟩
  | false =>
    rw [stop_eq_self hrunning]
    exact .refl i id t

/-- Whatever is done to the transport by others than the owner of a subscription, he is warned of
every identity that is disconnected, if its connection was handed out. -/
theorem bridges_watched (i : Nat) (id : NodeId) :
    Transport.Bridges (σ := InProcess) Move.takes (· ≠ i) (Watched i id) where
  refl t := .refl i id t
  start t := watched_of_calm (calm_start t) ((publishes.start t).usedBy _)
  stop t := watched_stop t
  touch t t' t'' h htouch := h.trans <| by
    obtain hcalm | ⟨p, rfl⟩ := calm_of_touch htouch
    · exact watched_of_calm hcalm ((publishes.touch _ _ htouch).usedBy _)
    · exact watched_remove p t'
  withFeed t t' f h hused := h.trans (watched_of_calm ⟨rfl, fun h => h, fun _ h => h⟩ hused)
  move now m t howners := by
    obtain hcalm | ⟨p, hmove⟩ := calm_of_move now m t
    · obtain ⟨us, hus, hmine⟩ := publishes.move now m t
      exact watched_of_calm hcalm ⟨us, hus, fun u hu j hj => howners j (hmine u hu j hj)⟩
    · rw [show Transport.move now m t = t.remove p from hmove]
      exact watched_remove p t

end InProcess

end PeerProbe
