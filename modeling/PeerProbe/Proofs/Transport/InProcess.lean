import PeerProbe.InProcess
import PeerProbe.Proofs.Transport.Publishing

/-!
# What is done to the transport inside one process

Nothing but a start sets the flag that says that it runs, and nothing but a stop takes it back. The
feed is only ever sent to, ended and reopened, but for other users who subscribe, take from their
subscriptions and drop them.

Most of what is done touches at most the feed, the streams and the dials. Connections are attached,
taken and dropped by attaching, by taking, by removing and by a stop.
-/

namespace PeerProbe

/-- The peer at the other end of a script stays when its next item is read. -/
theorem Script.peer_of_read? {s s' : Script} {now : Nat} {item : Except TransportError Frame}
    (h : s.read? now = some (item, s')) : s'.peer = s.peer := by
  unfold read? at h
  split at h
  · contradiction
  · obtain ⟨-, h⟩ := Option.ite_none_right_eq_some.mp h
    cases h
    rfl

/-- It stays when something is sent. -/
theorem Script.peer_of_send? {s s' : Script} {now : Nat} {f : Frame}
    {r : Except TransportError Unit} (h : s.send? now f = some (r, s')) : s'.peer = s.peer := by
  unfold send? at h
  obtain ⟨-, h⟩ := Option.ite_none_right_eq_some.mp h
  split at h <;> cases h <;> rfl

namespace InProcess

variable {t t' t'' : InProcess}

/-- What every use of the transport leaves to it: the flag, and the feed but for what is announced
there. -/
structure Onward (t t' : InProcess) : Prop where
  running : t'.running = t.running
  feed : t.feed.Acted t'.feed

/-- A use that leaves the flag and the feed as they are. -/
theorem onward_of_eq (hrunning : t'.running = t.running) (hfeed : t'.feed = t.feed) :
    t.Onward t' := ⟨hrunning, hfeed ▸ .refl _⟩

/-- A use goes on where another one ended. -/
theorem Onward.trans (h : t.Onward t') (h' : t'.Onward t'') : t.Onward t'' :=
  ⟨h'.running.trans h.running, h.feed.trans h'.feed⟩

/-- The peers at the other ends of all connections there have been. -/
def peers (t : InProcess) : List PeerRef := t.links.map linkPeer

/-- What leaves everything alone that a peer or a connection is known by. -/
structure Quiet (t t' : InProcess) : Prop extends Onward t t' where
  removals : t'.removals = t.removals
  taken : t'.taken = t.taken
  attached : t'.attached = t.attached
  peers : t'.peers = t.peers

/-- Nothing at all is quiet. -/
theorem Quiet.refl (t : InProcess) : t.Quiet t := ⟨onward_of_eq rfl rfl, rfl, rfl, rfl, rfl⟩

/-- What is quiet goes on where something quiet ended. -/
theorem Quiet.trans (h : t.Quiet t') (h' : t'.Quiet t'') : t.Quiet t'' :=
  ⟨h.toOnward.trans h'.toOnward, h'.removals.trans h.removals, h'.taken.trans h.taken,
    h'.attached.trans h.attached, h'.peers.trans h.peers⟩

/-- One thing that happens to the feed. -/
theorem quiet_act (t : InProcess) (a : Feed.Act) : t.Quiet { t with feed := t.feed.act a } :=
  ⟨⟨rfl, Feed.acted_act t.feed a⟩, rfl, rfl, rfl, rfl⟩

/-! ## Connections -/

/-- A link to the same peer is as good as the one before. -/
theorem quiet_setLink {c : ConnId} {l l' : Link} (hl : t.links[c]? = some l)
    (hpeer : linkPeer l' = linkPeer l) : t.Quiet (t.setLink c l') := by
  refine ⟨onward_of_eq rfl rfl, rfl, rfl, rfl, ?_⟩
  obtain ⟨hlt, rfl⟩ := List.getElem?_eq_some_iff.mp hl
  simp only [InProcess.peers, setLink]
  rw [List.map_set, hpeer, ← List.getElem_map linkPeer (h := by simpa using hlt),
    List.set_getElem_self]

/-- Letting go is quiet. -/
theorem quiet_release (c : ConnId) (t : InProcess) : t.Quiet (t.release c) := by
  unfold release
  split
  · next hl => exact quiet_setLink hl rfl
  · exact .refl t

/-- So is a read that comes to something. -/
theorem quiet_read {now : Nat} {c : ConnId} {taken : List UInt8}
    (h : (∃ item, t.read now c taken = .ready item t') ∨
      ∃ taken', t.read now c taken = .ahead taken' t') : t.Quiet t' := by
  unfold read at h
  rcases h with ⟨item, h⟩ | ⟨taken', h⟩
  · split at h
    · next hl =>
      split at h
      · cases h
        exact quiet_setLink hl rfl
      · split at h
        · contradiction
        · cases h
          exact .refl t
    · next hl =>
      split at h
      · next hread =>
        cases h
        exact quiet_setLink hl (Script.peer_of_read? hread)
      · contradiction
    · contradiction
  · split at h
    · split at h
      · contradiction
      · split at h <;> contradiction
    · split at h <;> contradiction
    · contradiction

/-- So is a send. -/
theorem quiet_send {now : Nat} {c : ConnId} {code : UInt64} {payload : List UInt8}
    {r : Except TransportError Unit} (h : t.send now c code payload = some (r, t')) :
    t.Quiet t' := by
  unfold send at h
  dsimp only at h
  split at h
  · next hl =>
    split at h
    · cases h
      exact quiet_setLink hl rfl
    · cases h
      exact .refl t
  · next hl =>
    obtain ⟨s, hs, hpair⟩ := Option.map_eq_some_iff.mp h
    cases hpair
    exact quiet_setLink hl (Script.peer_of_send? hs)
  · contradiction

/-- Attaching touches neither the flag nor the feed. -/
theorem onward_attach (l : Link) (t : InProcess) : t.Onward (t.attach l).2 := by
  unfold attach
  dsimp only
  split
  · exact (quiet_release _ t).toOnward.trans (onward_of_eq rfl rfl)
  · exact onward_of_eq rfl rfl

/-- Nor does taking. -/
theorem onward_take (p : PeerRef) (t : InProcess) : t.Onward (t.take p).2 := by
  unfold take
  split <;> exact onward_of_eq rfl rfl

/-! ## Peers -/

/-- A removal announces the drop at most. -/
theorem onward_remove (p : PeerRef) (t : InProcess) : t.Onward (t.remove p) := by
  unfold remove
  extract_lets noted had detached forgotten
  have hnoted : t.Onward noted := onward_of_eq rfl rfl
  have hdetached : noted.Onward detached := by
    unfold detached
    split
    · next c _ => exact (quiet_release c noted).toOnward.trans (onward_of_eq rfl rfl)
    · exact onward_of_eq rfl rfl
  have hforgotten : detached.Onward forgotten := onward_of_eq rfl rfl
  have hsofar := (hnoted.trans hdetached).trans hforgotten
  split
  · exact hsofar.trans (quiet_act forgotten (.send ⟨.dropped, p⟩)).toOnward
  · exact hsofar

/-- The rules for a dial announce what they say. -/
theorem quiet_applyRules (p : PeerRef) (acted : Bool) (rules : List DialRule) (t : InProcess) :
    t.Quiet (applyRules p acted rules t) := by
  induction rules generalizing acted t with
  | nil => exact .refl t
  | cons r rest ih =>
    unfold applyRules
    split
    · split
      · exact (quiet_act t _).trans (ih _ _)
      · extract_lets later
        have hlater : t.Quiet { t with delayed := t.delayed ++ [later] } :=
          ⟨onward_of_eq rfl rfl, rfl, rfl, rfl, rfl⟩
        exact hlater.trans (ih _ _)
    · exact ih _ _

/-- Dialling announces what the rules say. -/
theorem quiet_dial (now : Nat) (p : PeerRef) (t : InProcess) : t.Quiet (t.dial now p) :=
  have hnoted : t.Quiet { t with dials := t.dials ++ [p] } :=
    ⟨onward_of_eq rfl rfl, rfl, rfl, rfl, rfl⟩
  hnoted.trans (quiet_applyRules p false t.rules _)

/-- A delayed effect of a dial announces what its rule says. -/
theorem quiet_background {now i : Nat} (h : t.background now i = some t') : t.Quiet t' := by
  unfold background at h
  split at h
  · exact Option.some.inj h ▸ ⟨onward_of_eq rfl rfl, rfl, rfl, rfl, rfl⟩
  · obtain ⟨-, h⟩ := Option.ite_none_right_eq_some.mp h
    exact Option.some.inj h ▸ ⟨⟨rfl, Feed.acted_act _ _⟩, rfl, rfl, rfl, rfl⟩
  · contradiction

/-- What is done about a peer or a connection is quiet, unless the connection to a peer is taken or
the peer is removed. -/
theorem quiet_of_touch (h : Transport.Touch t t') :
    t.Quiet t' ∨ (∃ p, t' = (t.take p).2) ∨ ∃ p, t' = t.remove p := by
  cases h with
  | dial now p => exact .inl (quiet_dial now p t)
  | remove p => exact .inr (.inr ⟨p, rfl⟩)
  | take p => exact .inr (.inl ⟨p, rfl⟩)
  | ready h => exact .inl (quiet_read (.inl ⟨_, h⟩))
  | ahead h => exact .inl (quiet_read (.inr ⟨_, h⟩))
  | send h => exact .inl (quiet_send h)
  | release c => exact .inl (quiet_release c t)
  | background h => exact .inl (quiet_background h)

/-- Whatever is done about a peer or a connection leaves this to the transport. -/
theorem onward_of_touch (h : Transport.Touch t t') : t.Onward t' := by
  obtain hquiet | ⟨p, rfl⟩ | ⟨p, rfl⟩ := quiet_of_touch h
  · exact hquiet.toOnward
  · exact onward_take p t
  · exact onward_remove p t

/-! ## Other users -/

/-- The subscriptions that a move takes from. -/
def Move.takes : Move → Nat → Prop
  | .receive i, j | .takeError i, j | .unsubscribe i, j => i = j
  | _, _ => False

/-- What happens from outside is quiet, but for uses of the feed and for what another user attaches,
takes and removes. -/
theorem quiet_of_move (now : Nat) (m : Move) (t : InProcess) :
    t.Quiet (t.move now m) ∨
      (∃ f, t.feed.UsedBy m.takes f ∧ t.move now m = { t with feed := f }) ∨
        (∃ l, t.move now m = (t.attach l).2) ∨ (∃ p, t.move now m = (t.take p).2) ∨
          ∃ p, t.move now m = t.remove p := by
  have hsame : t.Quiet t := .refl t
  cases m with
  | subscribe => exact .inr (.inl ⟨_, Feed.usedBy_use (u := .subscribe) nofun, rfl⟩)
  | receive i =>
    exact .inr (.inl ⟨_, Feed.usedBy_use (u := .receive i) fun _ => Option.some.inj, rfl⟩)
  | takeError i =>
    exact .inr (.inl ⟨_, Feed.usedBy_use (u := .takeError i) fun _ => Option.some.inj, rfl⟩)
  | unsubscribe i =>
    exact .inr (.inl ⟨_, Feed.usedBy_use (u := .drop i) fun _ => Option.some.inj, rfl⟩)
  | attach l => exact .inr (.inr (.inl ⟨l, rfl⟩))
  | take p => exact .inr (.inr (.inr (.inl ⟨p, rfl⟩)))
  | remove p => exact .inr (.inr (.inr (.inr ⟨p, rfl⟩)))
  | feed a => exact .inl (quiet_act t a)
  | dial p => exact .inl (quiet_dial now p t)
  | release c => exact .inl (quiet_release c t)
  | remoteSend c f =>
    left
    simp only [move, remoteSend]
    split
    · next hl =>
      split
      · exact hsame
      · split
        · exact quiet_setLink hl rfl
        · exact hsame
    · exact hsame
  | remoteRead c =>
    left
    simp only [move, remoteRead]
    split
    · next hl =>
      split
      · exact hsame
      · split
        · exact quiet_setLink hl rfl
        · exact hsame
    · exact hsame
  | remoteClose c =>
    left
    simp only [move, remoteClose]
    split
    · next hl => exact quiet_setLink hl rfl
    · exact hsame
  | read c =>
    left
    simp only [move]
    split
    · next hread => exact quiet_read (.inl ⟨_, hread⟩)
    · next hread => exact quiet_read (.inr ⟨_, hread⟩)
    · exact hsame
  | send c code payload =>
    left
    simp only [move]
    cases hsend : t.send now c code payload with
    | none => exact hsame
    | some r => exact quiet_send hsend

/-- What happens from outside leaves the flag alone, and takes from the feed what it says. -/
theorem move_spec (now : Nat) (m : Move) (t : InProcess) :
    (t.move now m).running = t.running ∧ t.feed.UsedBy m.takes (t.move now m).feed := by
  have honward {t' : InProcess} (h : t.Onward t') :
      t'.running = t.running ∧ t.feed.UsedBy m.takes t'.feed := ⟨h.running, h.feed.usedBy _⟩
  obtain hquiet | ⟨f, hused, hmove⟩ | ⟨l, hmove⟩ | ⟨p, hmove⟩ | ⟨p, hmove⟩ := quiet_of_move now m t
  · exact honward hquiet.toOnward
  · rw [hmove]
    exact ⟨rfl, hused⟩
  · exact hmove ▸ honward (onward_attach l t)
  · exact hmove ▸ honward (onward_take p t)
  · exact hmove ▸ honward (onward_remove p t)

/-! ## Starting and stopping -/

/-- To let go of all that is attached is quiet. -/
theorem quiet_releaseAll (attached : List (NodeId × ConnId)) (t : InProcess) :
    t.Quiet (attached.foldl (fun t a => t.release a.2) t) := by
  induction attached generalizing t with
  | nil => exact .refl t
  | cons a rest ih => exact (quiet_release a.2 t).trans (ih _)

/-- A stop closes the feed at most, and the flag is off behind it. -/
theorem stop_spec (t : InProcess) : t.stop.running = false ∧ t.feed.Acted t.stop.feed := by
  unfold stop
  cases hrunning : t.running with
  | false => exact ⟨hrunning, .refl _⟩
  | true =>
    have hall := quiet_releaseAll t.attached { t with running := false, feed := t.feed.close }
    exact ⟨hall.running, (Feed.acted_act t.feed .close).trans hall.feed⟩

/-- The transport inside one process runs from a start to a stop. -/
theorem switched : Transport.Switched InProcess where
  start t t' e hstopped h := by
    change t.start = _ at h
    unfold start at h
    split at h
    · cases h
      exact hstopped
    · split at h <;> cases h
  stop t := (stop_spec t).1
  use t t' h := by
    rcases h.touch_or with htouch | ⟨f, rfl⟩ | ⟨now, m, rfl⟩
    · exact (onward_of_touch htouch).running
    · rfl
    · exact (move_spec now m t).1

/-- The transport inside one process takes nothing from anybody's subscription. -/
theorem publishes : Transport.Publishes InProcess Move.takes where
  feed_withFeed _ _ := rfl
  start t := by
    change t.feed.Acted t.start.2.feed
    unfold start
    split
    · exact .refl _
    · split
      · exact .refl _
      · exact Feed.acted_act t.feed .reopen
  stop t := (stop_spec t).2
  touch _ _ h := (onward_of_touch h).feed
  move now m t := (move_spec now m t).2

end InProcess

end PeerProbe
