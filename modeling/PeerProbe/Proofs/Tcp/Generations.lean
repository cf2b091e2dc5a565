import PeerProbe.Proofs.Tcp.Table

/-!
# Generations

Every connection has a generation, and whoever ends a connection does so on behalf of it: the owner
who lets go, a read that fails, a removal that found it in the table. A slot is given up only on
behalf of its own generation, so what comes too late, when another connection has replaced the one
it is about, does nothing to the table, the successor or the feed.

A generation that has left the table never comes back, since a registration needs one that is still
pending. Hence its drop is announced at most once.
-/

namespace PeerProbe

namespace Tcp

open Transport (Change)

variable {t t' t'' : Tcp} {id : NodeId} {s : PeerSlot} {g : ConnId}

/-! ## Releases -/

/-- A connection is ended on behalf of its generation: its owner lets go of it, a read on it fails,
or its peer is removed. -/
inductive ReleasedBy (g : ConnId) (t : Tcp) : Tcp → Prop where
  | dropped : ReleasedBy g t (t.release g)
  | failed {now : Nat} {taken : List UInt8} {e : TransportError} {t' : Tcp}
      (h : t.read now g taken = .ready (.error e) t') : ReleasedBy g t t'
  | removed {p : PeerRef} {s : PeerSlot} (hslot : t.slot? p.id = some s) (hg : s.generation = g) :
      ReleasedBy g t (t.remove p)

/-- What a release on behalf of a generation does: it gives up the slot of that generation, if there
is one, with an announcement, and touches nothing that belongs to another generation. -/
structure GivesUp (g : ConnId) (t t' : Tcp) : Prop where
  others : ∀ id s, t.slot? id = some s → s.generation ≠ g → t'.slot? id = some s
  conns : ∀ g', g' ≠ g → t'.conns[g']? = t.conns[g']?
  cancelled : ∀ c, t'.conns[g]? = some c → c.cancelled = true
  stale : (∀ id s, t.slot? id = some s → s.generation ≠ g) →
    t'.slots = t.slots ∧ t'.feed = t.feed
  own : ∀ id s, t.slot? id = some s → s.generation = g →
    t'.slot? id = none ∧ t'.feed = t.feed.send ⟨.dropped, s.peer⟩

/-- A release behind a change that leaves the slots, the feed and the other connections alone. -/
theorem GivesUp.behind (h : t'.GivesUp g t'') (hslots : t'.slots = t.slots)
    (hfeed : t'.feed = t.feed) (hconns : ∀ g', g' ≠ g → t'.conns[g']? = t.conns[g']?) :
    t.GivesUp g t'' := by
  have hslot (id : NodeId) : t.slot? id = t'.slot? id := by rw [slot?, slot?, hslots]
  refine ⟨fun id s hs => h.others id s (hslot id ▸ hs), fun g' hg => (h.conns g' hg).trans
    (hconns g' hg), h.cancelled, fun hstale => ?_, fun id s hs hg => ?_⟩
  · obtain ⟨hslots', hfeed'⟩ := h.stale fun id s hs => hstale id s ((hslot id).trans hs)
    exact ⟨hslots'.trans hslots, hfeed'.trans hfeed⟩
  · obtain ⟨hnone, hfeed'⟩ := h.own id s (hslot id ▸ hs) hg
    exact ⟨hnone, hfeed'.trans (by rw [hfeed])⟩

theorem conns_cancel_ne (t : Tcp) {g g' : ConnId} (h : g' ≠ g) :
    (t.cancel g).conns[g']? = t.conns[g']? :=
  List.getElem?_modify_ne _ _ (Ne.symm h)

theorem cancelled_of_cancel {c : TcpConn} (h : (t.cancel g).conns[g]? = some c) :
    c.cancelled = true := by
  rw [cancel, List.getElem?_modify_eq] at h
  obtain ⟨c', -, rfl⟩ := Option.map_eq_some_iff.mp h
  rfl

/-- Giving up the slot of an identity on behalf of a generation that no other identity has, and that
this one has unless its connection is cancelled already. -/
theorem givesUp_releaseSlot (hcancelled : (∃ s, t.slot? id = some s ∧ s.generation = g) ∨
      ∀ c, t.conns[g]? = some c → c.cancelled = true)
    (hid : ∀ id' s, t.slot? id' = some s → s.generation = g → id' = id) :
    t.GivesUp g (t.releaseSlot id g) := by
  unfold releaseSlot
  split
  next s hslot =>
    split
    next hg =>
      have hslot' (id' : NodeId) : ((((t.withoutSlot id).cancel g).logged .info
          "peer_disconnected" (some s.peer.tcpEndpoint.text)
          (some ("id=" ++ s.peer.shortId))).announce .dropped s.peer).slot? id' =
            if id' = id then none else t.slot? id' := slot?_withoutSlot t id id'
      refine ⟨fun id' s' hs' hne => ?_, fun g' hg' => conns_cancel_ne t hg',
        fun c hc => cancelled_of_cancel (t := t) hc, fun hstale => absurd hg (hstale id s hslot),
        fun id' s' hs' hg' => ?_⟩
      · rw [hslot', if_neg, hs']
        rintro rfl
        obtain rfl := Option.some.inj (hs'.symm.trans hslot)
        exact hne hg
      · obtain rfl := hid id' s' hs' hg'
        obtain rfl := Option.some.inj (hs'.symm.trans hslot)
        exact ⟨by rw [hslot', if_pos rfl], rfl⟩
    next hne =>
      have hcancelled := hcancelled.resolve_left fun ⟨s', hs', hg'⟩ =>
        hne (Option.some.inj (hslot.symm.trans hs') ▸ hg')
      refine ⟨fun _ _ hs _ => hs, fun _ _ => rfl, hcancelled, fun _ => ⟨rfl, rfl⟩,
        fun id' s' hs' hg' => ?_⟩
      obtain rfl := hid id' s' hs' hg'
      obtain rfl := Option.some.inj (hs'.symm.trans hslot)
      exact absurd hg' hne
  next hnone =>
    have hcancelled := hcancelled.resolve_left fun ⟨s', hs', _⟩ => nomatch hnone.symm.trans hs'
    refine ⟨fun _ _ hs _ => hs, fun _ _ => rfl, hcancelled, fun _ => ⟨rfl, rfl⟩,
      fun id' s' hs' hg' => ?_⟩
    obtain rfl := hid id' s' hs' hg'
    rw [hnone] at hs'
    cases hs'

/-- In a sound table only the identity of its peer has the slot of a connection. -/
theorem Sound.id_of_generation (h : t.Sound) {c : TcpConn} (hc : t.conns[g]? = some c)
    (hslot : t.slot? id = some s) (hg : s.generation = g) : id = c.peer.id := by
  obtain ⟨hid, d, hd, hpeer⟩ := h.entry id _ _ (occupant?_of_slot? hslot)
  rw [hg] at hd
  obtain rfl := Option.some.inj (hc.symm.trans hd)
  rw [← hid, hpeer]

theorem givesUp_release (h : t.Sound) : t.GivesUp g (t.release g) := by
  unfold release
  split
  next c hc =>
    refine (givesUp_releaseSlot (t := t.cancel g) (.inr fun d hd => cancelled_of_cancel hd)
      fun id s hslot hg => h.id_of_generation hc hslot hg).behind rfl rfl
        fun g' hg' => conns_cancel_ne t hg'
  next hnone =>
    refine ⟨fun _ _ hs _ => hs, fun _ _ => rfl, fun c hc => ?_, fun _ => ⟨rfl, rfl⟩,
      fun id s hslot hg => ?_⟩
    · rw [hnone] at hc
      cases hc
    · obtain ⟨-, d, hd, -⟩ := h.entry id _ _ (occupant?_of_slot? hslot)
      rw [hg, hnone] at hd
      cases hd

theorem givesUp_remove (h : t.Sound) {p : PeerRef} (hslot : t.slot? p.id = some s)
    (hg : s.generation = g) : t.GivesUp g (t.remove p) := by
  obtain ⟨hid, c, hc, hpeer⟩ := h.entry p.id _ _ (occupant?_of_slot? hslot)
  simp only [remove, hslot]
  rw [hg] at hc ⊢
  refine givesUp_releaseSlot (.inl ⟨s, hslot, hg⟩) fun id' s' hs' hg' => ?_
  rw [h.id_of_generation hc hs' hg', hpeer, hid]

theorem givesUp_read (h : t.Sound) {now : Nat} {taken : List UInt8} {e : TransportError}
    (hread : t.read now g taken = .ready (.error e) t') : t.GivesUp g t' := by
  unfold read at hread
  split at hread
  · cases hread
  · split at hread
    · cases hread
      exact givesUp_release h
    · split at hread
      · cases hread
      next c _ _ _ _ stream _ =>
        cases hread
        have hsound : (t.setStream c.stream stream).Sound :=
          h.turn (.quiet (quiet_of_eq rfl rfl rfl rfl))
        exact (givesUp_release hsound).behind rfl rfl fun _ _ => rfl
      · cases hread
      · cases hread

/-- A release gives up the slot of its generation at most. -/
theorem GivesUp.of_releasedBy (h : t.Sound) (hr : t.ReleasedBy g t') : t.GivesUp g t' := by
  cases hr with
  | dropped => exact givesUp_release h
  | failed hread => exact givesUp_read h hread
  | removed hslot hg => exact givesUp_remove h hslot hg

/-! ## Generations that are gone -/

/-- A generation that was given, is not pending and has no slot. -/
structure Spent (g : ConnId) (t : Tcp) : Prop where
  given : g < t.conns.length
  settled : ∀ i peer session, ¬ t.Pending i peer g session
  slotless : ∀ id p, t.occupant? id ≠ some (p, g)

/-- What is gone stays gone. -/
theorem Spent.turn (h : t.Spent g) (hturn : t.Turn t') : t'.Spent g := by
  have hgiven := hturn.connsKept.lt_length h.given
  cases hturn with
  | quiet hq =>
    exact ⟨hgiven, fun i p s hp => h.settled i p s (hq.pending i p g s hp),
      fun id p he => h.slotless id p (hq.entry id ▸ he)⟩
  | released hr =>
    refine ⟨hgiven, fun i p s hp => h.settled i p s (hr.pending i p g s hp), fun id p he => ?_⟩
    rw [hr.entry] at he
    split at he
    · cases he
    · exact h.slotless id p he
  | numbered _ hentry _ hpending =>
    refine ⟨hgiven, fun i p s hp => ?_, fun id p he => h.slotless id p (hentry id ▸ he)⟩
    obtain hp | ⟨-, -, hlen, -⟩ := hpending i p g s hp
    · exact h.settled i p s hp
    · exact absurd h.given (hlen ▸ Nat.lt_irrefl _)
  | @registered i peer g' session _ hown hentry _ _ hpending =>
    refine ⟨hgiven, fun j p s hp => h.settled j p s (hpending j p g s hp).2, fun id p he => ?_⟩
    rw [hentry] at he
    split at he
    · cases he
      exact h.settled i _ session hown
    · exact h.slotless id p he
  | started _ _ hentry _ hpending =>
    exact ⟨hgiven, fun i p s hp => h.settled i p s (hpending i p g s hp),
      fun id p he => h.slotless id p (hentry id ▸ he)⟩
  | stopped _ hentry _ hpending =>
    exact ⟨hgiven, fun i p s hp => h.settled i p s (hpending i p g s hp),
      fun id p he => nomatch (hentry id).symm.trans he⟩

/-- A generation whose slot is lost in a turn is gone. -/
theorem Sound.spent_of_turn (h : t.Sound) (hturn : t.Turn t') {p : PeerRef}
    (hslot : t.occupant? id = some (p, g)) (hlost : t'.occupant? id ≠ some (p, g)) :
    t'.Spent g := by
  obtain ⟨-, c, hc, -⟩ := h.entry id p g hslot
  have hgiven := hturn.connsKept.lt_length (List.getElem?_eq_some_iff.mp hc).1
  have hsettled (i : Nat) (peer : PeerRef) (session : Nat) : ¬ t.Pending i peer g session :=
    fun hp => h.apart i peer g session hp id p hslot
  cases hturn with
  | quiet hq => exact absurd ((hq.entry id).trans hslot) hlost
  | numbered _ hentry => exact absurd ((hentry id).trans hslot) hlost
  | started _ _ hentry => exact absurd ((hentry id).trans hslot) hlost
  | stopped _ hentry _ hpending =>
    exact ⟨hgiven, fun i peer s hp => hsettled i peer s (hpending i peer g s hp),
      fun id' p' he => nomatch (hentry id').symm.trans he⟩
  | released hr =>
    refine ⟨hgiven, fun i peer s hp => hsettled i peer s (hr.pending i peer g s hp),
      fun id' p' he => ?_⟩
    rw [hr.entry] at he hlost
    split at he
    · cases he
    next hne =>
      obtain ⟨rfl, -⟩ := h.entry_unique hslot he
      exact hlost (by rw [if_neg hne, hslot])
  | @registered i peer g' session _ hown hentry _ _ hpending =>
    refine ⟨hgiven, fun j peer s hp => hsettled j peer s (hpending j peer g s hp).2,
      fun id' p' he => ?_⟩
    rw [hentry] at he hlost
    split at he
    · cases he
      exact hsettled i _ session hown
    next hne =>
      obtain ⟨rfl, -⟩ := h.entry_unique hslot he
      exact hlost (by rw [if_neg hne, hslot])

/-! ## Runs -/

/-- The drop of a generation is announced: its slot is given up, and its peer is said to be gone. -/
def AnnouncesDrop (g : ConnId) (t t' : Tcp) : Prop :=
  ∃ id s, t.slot? id = some s ∧ s.generation = g ∧ t'.slot? id = none ∧
    t'.feed = t.feed.send ⟨.dropped, s.peer⟩

/-- A generation whose drop is announced is gone. -/
theorem Sound.spent_of_announcesDrop (h : t.Sound) (hturn : t.Turn t')
    (ha : t.AnnouncesDrop g t') : t'.Spent g := by
  obtain ⟨id, s, hslot, rfl, hnone, -⟩ := ha
  refine h.spent_of_turn hturn (occupant?_of_slot? hslot) ?_
  rw [occupant?_eq_none_iff.mpr hnone]
  nofun

/-- What is gone is not announced any more. -/
theorem Spent.not_announcesDrop (h : t.Spent g) : ¬ t.AnnouncesDrop g t' := by
  rintro ⟨id, s, hslot, rfl, -⟩
  exact h.slotless id s.peer (occupant?_of_slot? hslot)

variable {config : TcpConfig} {own : NodeId} {bound : Except String Endpoint}

/-- What is gone at some time of a run is gone at any later one. -/
theorem Spent.onwards (r : Run Change (create config own bound)) {k m : Nat} (hkm : k ≤ m)
    (h : (r.state k).Spent g) : (r.state m).Spent g :=
  r.onwards (fun _ _ hstep hs => hs.turn (turn_of_change hstep)) hkm h

/-- A drop is not announced again. -/
theorem not_announcesDrop_of_lt (r : Run Change (create config own bound)) {i j : Nat}
    (hi : (r.state i).AnnouncesDrop g (r.state (i + 1))) (hij : i < j) :
    ¬ (r.state j).AnnouncesDrop g (r.state (j + 1)) := by
  have hspent := (sound_of_run r i).spent_of_announcesDrop (turn_of_run r i) hi
  exact (hspent.onwards r hij).not_announcesDrop

/-- A cancelled connection stays cancelled. -/
theorem cancelled_onwards (r : Run Change (create config own bound)) {k m : Nat} (hkm : k ≤ m)
    (h : ∃ c, (r.state k).conns[g]? = some c ∧ c.cancelled = true) :
    ∃ c, (r.state m).conns[g]? = some c ∧ c.cancelled = true := by
  refine r.onwards (p := fun t => ∃ c, t.conns[g]? = some c ∧ c.cancelled = true) ?_ hkm h
  rintro t t' hstep ⟨c, hc, hcancelled⟩
  obtain ⟨c', hc', hkeeps⟩ := (turn_of_change hstep).connsKept g c hc
  exact ⟨c', hc', hkeeps.cancelled hcancelled⟩

/-- A read that fails leaves its connection cancelled. -/
theorem cancelled_of_read (h : t.Sound) {now : Nat} {taken : List UInt8} {e : TransportError}
    (hread : t.read now g taken = .ready (.error e) t') :
    ∃ c, t'.conns[g]? = some c ∧ c.cancelled = true := by
  have hc : ∃ c, t.conns[g]? = some c := by
    cases hc : t.conns[g]? with
    | some c => exact ⟨c, rfl⟩
    | none => simp [read, hc] at hread
  obtain ⟨c, hc⟩ := hc
  have hturn := (gives_read (.inl ⟨_, hread⟩)).turn
  obtain ⟨c', hc', -⟩ := hturn.connsKept g c hc
  exact ⟨c', hc', (givesUp_read h hread).cancelled c' hc'⟩

/-- Nothing but the end comes from a cancelled connection. -/
theorem read_send_of_cancelled {c : TcpConn} (hc : t.conns[g]? = some c)
    (hcancelled : c.cancelled = true) (now : Nat) :
    (∀ taken, t.read now g taken = .ready (.error .disconnected) (t.release g)) ∧
      ∀ code payload, t.send now g code payload = some (.error .disconnected, t) := by
  have hover : t.isCancelled c = true := by rw [isCancelled, hcancelled, Bool.true_or]
  exact ⟨fun taken => by simp [read, hc, hover], fun code payload => by simp [send, hc, hover]⟩

/-- What generations keep to in a run. A release does what it does to its own generation only; the
drop of a generation is announced at most once, and by a release that finds it in the table; and a
read that failed is the last one to say anything but that the connection is over. -/
structure GenerationsApart (r : Run Change (create config own bound)) : Prop where
  released (m : Nat) (g : ConnId) (t : Tcp) :
    (r.state m).ReleasedBy g t → (r.state m).GivesUp g t
  announcedOnce (g : ConnId) (i j : Nat) : (r.state i).AnnouncesDrop g (r.state (i + 1)) →
    (r.state j).AnnouncesDrop g (r.state (j + 1)) → i = j
  announced (m : Nat) (id : NodeId) (s : PeerSlot) (t : Tcp) : (r.state m).slot? id = some s →
    (r.state m).ReleasedBy s.generation t → (r.state m).AnnouncesDrop s.generation t
  ended (k m now now' : Nat) (g : ConnId) (taken : List UInt8) (e : TransportError) :
    (r.state k).read now g taken = .ready (.error e) (r.state (k + 1)) → k < m →
      (∀ taken', (r.state m).read now' g taken' =
          .ready (.error .disconnected) ((r.state m).release g)) ∧
        ∀ code payload, (r.state m).send now' g code payload =
          some (.error .disconnected, r.state m)

/-- Every run keeps generations apart. -/
theorem generationsApart_of_run (r : Run Change (create config own bound)) :
    GenerationsApart r where
  released m _ _ h := .of_releasedBy (sound_of_run r m) h
  announcedOnce g i j hi hj := by
    obtain h | h | h := Nat.lt_trichotomy i j
    · exact absurd hj (not_announcesDrop_of_lt r hi h)
    · exact h
    · exact absurd hi (not_announcesDrop_of_lt r hj h)
  announced m id s t hslot h := by
    obtain ⟨hnone, hfeed⟩ := (GivesUp.of_releasedBy (sound_of_run r m) h).own id s hslot rfl
    exact ⟨id, s, hslot, rfl, hnone, hfeed⟩
  ended k m now now' g taken e hread hkm := by
    have hcancelled := cancelled_of_read (sound_of_run r k) hread
    obtain ⟨c, hc, hover⟩ := cancelled_onwards r hkm hcancelled
    exact read_send_of_cancelled hc hover now'

end Tcp

end PeerProbe
