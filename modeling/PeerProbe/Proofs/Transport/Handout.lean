import PeerProbe.Proofs.Transport.Removals

/-!
# Connections that the transport hands out

Connections are known by their numbers, and a number is attached for the identity at its other end.
Once it was handed out it is never attached again, so it is handed out once at most.
-/

namespace PeerProbe

namespace InProcess

variable {t t' t'' : InProcess} {id : NodeId} {c : ConnId} {p : PeerRef}

/-- Connections that are attached for an identity lead to it. -/
def Addressed (t : InProcess) : Prop :=
  ∀ id c, (id, c) ∈ t.attached → ∃ p, t.peers[c]? = some p ∧ p.id = id

/-- A connection was there and is not attached any more. -/
structure HandedOut (c : ConnId) (t : InProcess) : Prop where
  given : c < t.peers.length
  detached : ∀ id, (id, c) ∉ t.attached

/-- Connections keep their peers, and only new ones are attached, for the identities that they lead
to. -/
structure Numbered (t t' : InProcess) : Prop where
  peers : t.peers <+: t'.peers
  attached : ∀ id c, (id, c) ∈ t'.attached →
    (id, c) ∈ t.attached ∨ t.peers.length ≤ c ∧ ∃ p, t'.peers[c]? = some p ∧ p.id = id

/-- The peer at the other end of a connection stays the same. -/
theorem Numbered.peer (h : t.Numbered t') {q : PeerRef} (hq : t.peers[c]? = some q) :
    t'.peers[c]? = some q := by
  obtain ⟨hlt, rfl⟩ := List.getElem?_eq_some_iff.mp hq
  exact List.prefix_iff_getElem?.mp h.peers c hlt

theorem Numbered.trans (h : t.Numbered t') (h' : t'.Numbered t'') : t.Numbered t'' := by
  refine ⟨h.peers.trans h'.peers, fun id c hc => ?_⟩
  obtain hc' | ⟨hnew, hpeer⟩ := h'.attached id c hc
  · refine (h.attached id c hc').imp_right fun ⟨hnew, p, hp, hid⟩ =>
      ⟨hnew, p, h'.peer hp, hid⟩
  · exact .inr ⟨Nat.le_trans h.peers.length_le hnew, hpeer⟩

/-- What attaches nothing. -/
theorem numbered_of_subset (hpeers : t'.peers = t.peers) (hattached : t'.attached ⊆ t.attached) :
    t.Numbered t' :=
  ⟨hpeers ▸ List.prefix_rfl, fun _ _ hc => .inl (hattached hc)⟩

theorem Quiet.numbered (h : t.Quiet t') : t.Numbered t' :=
  numbered_of_subset h.peers (h.attached ▸ List.Subset.refl _)

theorem numbered_take (p : PeerRef) (t : InProcess) : t.Numbered (t.take p).2 := by
  unfold take
  split
  · exact numbered_of_subset rfl fun _ ha => (List.mem_filter.mp ha).1
  · exact (Quiet.refl t).numbered

theorem numbered_remove (p : PeerRef) (t : InProcess) : t.Numbered (t.remove p) :=
  numbered_of_subset (removes_remove p t).peers (removes_remove p t).attached

theorem numbered_start (t : InProcess) : t.Numbered t.start.2 := by
  unfold start
  split
  · exact (Quiet.refl t).numbered
  · split <;> exact numbered_of_subset rfl (List.Subset.refl _)

theorem numbered_stop (t : InProcess) : t.Numbered t.stop := by
  cases hrunning : t.running with
  | true =>
    have hstops := stops_stop hrunning
    exact numbered_of_subset hstops.peers (hstops.attached ▸ List.nil_subset _)
  | false =>
    rw [stop_eq_self hrunning]
    exact (Quiet.refl t).numbered

theorem numbered_attach (l : Link) (t : InProcess) : t.Numbered (t.attach l).2 := by
  unfold attach
  extract_lets identity new released kept
  have hreleased : t.Quiet released := by
    unfold released
    split
    · exact quiet_release _ t
    · exact .refl t
  have hpeers : t.peers ++ [linkPeer l] = (released.links ++ [l]).map linkPeer := by
    rw [List.map_append, ← hreleased.peers]
    rfl
  refine ⟨⟨[linkPeer l], hpeers⟩, fun id c hc => ?_⟩
  obtain hold | hnew := List.mem_append.mp hc
  · exact .inl (hreleased.attached ▸ (List.mem_filter.mp hold).1)
  · obtain ⟨rfl, rfl⟩ := Prod.mk.inj (List.mem_singleton.mp hnew)
    refine .inr ⟨by simp [InProcess.peers, new], linkPeer l, ?_, rfl⟩
    change ((released.links ++ [l]).map linkPeer)[new]? = _
    rw [← hpeers]
    simp [InProcess.peers, new]

/-- Whatever is done to the transport, connections are numbered. -/
theorem bridges_numbered : Transport.Bridges Move.takes (fun _ => True) Numbered where
  refl t := (Quiet.refl t).numbered
  start := numbered_start
  stop := numbered_stop
  touch t t' t'' h htouch := h.trans <| by
    obtain hquiet | ⟨p, rfl⟩ | ⟨p, rfl⟩ := quiet_of_touch htouch
    · exact hquiet.numbered
    · exact numbered_take p t'
    · exact numbered_remove p t'
  withFeed _ _ _ h _ := ⟨h.peers, h.attached⟩
  move now m t _ := by
    change t.Numbered (t.move now m)
    obtain hquiet | ⟨f, -, hmove⟩ | ⟨l, hmove⟩ | ⟨p, hmove⟩ | ⟨p, hmove⟩ := quiet_of_move now m t
    · exact hquiet.numbered
    · exact hmove ▸ numbered_of_subset rfl (List.Subset.refl _)
    · exact hmove ▸ numbered_attach l t
    · exact hmove ▸ numbered_take p t
    · exact hmove ▸ numbered_remove p t

/-- Attached connections still lead to their identities. -/
theorem Addressed.numbered (h : t.Addressed) (h' : t.Numbered t') : t'.Addressed := by
  intro id c hc
  obtain hold | ⟨-, hpeer⟩ := h'.attached id c hc
  · obtain ⟨p, hp, hid⟩ := h id c hold
    exact ⟨p, h'.peer hp, hid⟩
  · exact hpeer

/-- What was handed out is not attached again. -/
theorem HandedOut.numbered (h : HandedOut c t) (h' : t.Numbered t') : HandedOut c t' := by
  refine ⟨Nat.lt_of_lt_of_le h.given h'.peers.length_le, fun id hc => ?_⟩
  obtain hold | ⟨hnew, -⟩ := h'.attached id c hc
  · exact h.detached id hold
  · exact absurd h.given (Nat.not_lt.mpr hnew)

/-- The peer behind a number. -/
theorem remote_eq {q : PeerRef} (h : t.peers[c]? = some q) : t.remote c = q := by
  rw [InProcess.peers, List.getElem?_map] at h
  rw [remote, h, Option.getD_some]

/-- A connection that is taken was attached; it is detached and its identity remembered. -/
theorem attached_of_take (h : t.take p = (some c, t')) :
    (p.id, c) ∈ t.attached ∧ t' = { t.detach p.id with taken := p.id :: t.taken } := by
  unfold take at h
  split at h
  · next d hd =>
    cases h
    obtain ⟨before, behind, hattached, -⟩ := List.lookup_eq_some_iff.mp hd
    exact ⟨hattached ▸ List.mem_append_right _ List.mem_cons_self, rfl⟩
  · cases h

/-- What is taken leads to the identity that is remembered for it, and is handed out for good. -/
theorem Addressed.take (h : t.Addressed) (htake : t.take p = (some c, t')) :
    ∃ q, t'.peers[c]? = some q ∧ q.id ∈ t'.taken ∧ HandedOut c t' := by
  obtain ⟨hmem, rfl⟩ := attached_of_take htake
  obtain ⟨q, hq, hid⟩ := h p.id c hmem
  refine ⟨q, hq, hid ▸ List.mem_cons_self, (List.getElem?_eq_some_iff.mp hq).1, fun id hc => ?_⟩
  obtain ⟨hattached, hne⟩ := List.mem_filter.mp hc
  obtain ⟨q', hq', hid'⟩ := h id c hattached
  obtain rfl := Option.some.inj (hq.symm.trans hq')
  simp [← hid, ← hid'] at hne

/-- What was handed out is not taken. -/
theorem HandedOut.take_ne (h : HandedOut c t) : t.take p ≠ (some c, t') :=
  fun htake => h.detached p.id (attached_of_take htake).1

end InProcess

end PeerProbe
