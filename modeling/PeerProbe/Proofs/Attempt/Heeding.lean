import PeerProbe.Proofs.Transport.Removals

/-!
# How a held peer's task heeds a warning

The task that holds a peer goes through the events of its subscription. It skips what is not the
drop of its peer, so a warning that is among them stays there until the task finds it and lets go.
Only a task whose subscription overflowed or failed stops looking, and holds on as long as its
connection lasts.
-/

namespace PeerProbe

namespace HeldPeer

section Steps

variable {σ : Type} [Transport σ] {h : HeldPeer} {now : Nat} {t : σ} {r : Stepped σ}

/-- What a look at the events comes to: it skips an event, finds the drop of its peer, or finds that
the subscription has ended, and why. -/
inductive Looks (h : HeldPeer) (t : σ) : HeldPeer → σ → Prop where
  | skipped {e : PeerEvent} {f : Feed}
      (hreceive : (Transport.feed t).receive? h.subscription = some (e, f))
      (hother : h.isRemoval e = false) : Looks h t h.reread (Transport.withFeed f t)
  | removed {e : PeerEvent} {f : Feed}
      (hreceive : (Transport.feed t).receive? h.subscription = some (e, f))
      (hremoval : h.isRemoval e = true) :
      Looks h t { h with phase := .leaving } (Transport.withFeed f t)
  | deafened {e : SubscriptionError}
      (herror : ((Transport.feed t).takeError h.subscription).1 = some e) (he : e ≠ .closed) :
      Looks h t { h.reread with watching := false }
        (Transport.withFeed ((Transport.feed t).takeError h.subscription).2 t)
  | closed :
      Looks h t { h with phase := .leaving }
        (Transport.withFeed ((Transport.feed t).takeError h.subscription).2 t)

theorem looks_of_lookAtEvents? (hr : h.lookAtEvents? t = some r) : h.Looks t r.1 r.2.1 := by
  unfold lookAtEvents? at hr
  dsimp only at hr
  split at hr
  · next hreceive =>
    split at hr
    · next hremoval =>
      obtain rfl := Option.some.inj hr
      exact .removed hreceive hremoval
    · next hremoval =>
      obtain rfl := Option.some.inj hr
      exact .skipped hreceive (Bool.eq_false_iff.mpr hremoval)
  · split at hr
    · split at hr
      · next herror =>
        obtain rfl := Option.some.inj hr
        exact .deafened herror nofun
      · next herror =>
        obtain rfl := Option.some.inj hr
        exact .deafened herror nofun
      · obtain rfl := Option.some.inj hr
        exact .closed
    · contradiction

/-- What stays of a task behind a look at its connection. -/
structure Stays (h h' : HeldPeer) : Prop where
  conn : h'.conn = h.conn
  peer : h'.peer = h.peer
  subscription : h'.subscription = h.subscription
  watching : h'.watching = h.watching

theorem stays_of_lookAtConnection? (hr : h.lookAtConnection? now t = some r) : h.Stays r.1 := by
  unfold lookAtConnection? at hr
  split at hr
  · next item t' _ =>
    obtain rfl := Option.some.inj hr
    unfold onItem
    dsimp only
    split <;> exact ⟨rfl, rfl, rfl, rfl⟩
  · obtain rfl := Option.some.inj hr
    exact ⟨rfl, rfl, rfl, rfl⟩
  · contradiction

/-- What a step of the task comes to: a look at the events, a look at the connection when there is
no event to look at, or a step on its way out. -/
theorem cases_of_step? (hr : h.step? now t = some r) :
    h.phase = .holding ∧ h.watching = true ∧ h.Looks t r.1 r.2.1 ∨
      h.phase = .holding ∧ h.lookAtConnection? now t = some r ∨
        r.1.phase ≠ .holding ∧ h.Stays r.1 := by
  unfold step? at hr
  split at hr
  · next hphase =>
    split at hr
    · next hlook =>
      obtain rfl := Option.some.inj hr
      obtain ⟨hwatching, hlook⟩ := Option.ite_none_right_eq_some.mp hlook
      exact .inl ⟨hphase, hwatching, looks_of_lookAtEvents? hlook⟩
    · exact .inr (.inl ⟨hphase, hr⟩)
  · obtain rfl := Option.some.inj hr
    exact .inr (.inr ⟨nofun, rfl, rfl, rfl, rfl⟩)
  · obtain rfl := Option.some.inj hr
    exact .inr (.inr ⟨nofun, rfl, rfl, rfl, rfl⟩)
  · contradiction

/-- The connection and the peer of a task stay the same. -/
theorem same_of_step? (hr : h.step? now t = some r) : r.1.conn = h.conn ∧ r.1.peer = h.peer := by
  obtain ⟨-, -, hlooks⟩ | ⟨-, hconnection⟩ | ⟨-, hstays⟩ := cases_of_step? hr
  · generalize r.1 = h', r.2.1 = t' at hlooks
    cases hlooks <;> exact ⟨rfl, rfl⟩
  · have hstays := stays_of_lookAtConnection? hconnection
    exact ⟨hstays.conn, hstays.peer⟩
  · exact ⟨hstays.conn, hstays.peer⟩

/-- A subscription has overflowed or failed, and its owner has not seen that yet. -/
def Deafens (t : σ) (i : Nat) : Prop :=
  ∃ e, ((Transport.feed t).takeError i).1 = some e ∧ e ≠ .closed

/-- A task that stops looking at its events has found that its subscription overflowed or failed. -/
theorem deafens_of_step? (hr : h.step? now t = some r) (hdeaf : r.1.watching = false) :
    h.watching = false ∨ Deafens t h.subscription := by
  obtain ⟨-, hwatching, hlooks⟩ | ⟨-, hconnection⟩ | ⟨-, hstays⟩ := cases_of_step? hr
  · generalize r.1 = h', r.2.1 = t' at hlooks hdeaf
    cases hlooks with
    | deafened herror he => exact .inr ⟨_, herror, he⟩
    | skipped | removed | closed => exact .inl hdeaf
  · exact .inl ((stays_of_lookAtConnection? hconnection).watching ▸ hdeaf)
  · exact .inl (hstays.watching ▸ hdeaf)

end Steps

variable {h : HeldPeer} {now : Nat} {t : InProcess} {r : Stepped InProcess}

/-- A task that looks at its events and has nothing to do is not warned. -/
theorem not_warns_of_step?_eq_none (hphase : h.phase = .holding) (hwatching : h.watching = true)
    (hsettled : h.step? now t = none) (id : NodeId) :
    ¬ (t.feed.get h.subscription).Warns id := by
  have hlook : h.lookAtEvents? t = none := by
    simp only [step?, hphase, hwatching, ↓reduceIte] at hsettled
    split at hsettled
    · contradiction
    · next hlook => exact hlook
  have hfeed : Transport.feed t = t.feed := rfl
  unfold lookAtEvents? at hlook
  rw [hfeed] at hlook
  dsimp only at hlook
  rintro (hinactive | ⟨e, he, -⟩)
  · have hover : t.feed.isOver h.subscription = true := by simp [Feed.isOver, hinactive]
    split at hlook
    · split at hlook <;> contradiction
    · simp only [hover, ↓reduceIte] at hlook
      split at hlook <;> contradiction
  · cases hbuffer : (t.feed.get h.subscription).buffer with
    | nil => simp [hbuffer] at he
    | cons e' rest =>
      simp only [Feed.receive?_of_cons hbuffer] at hlook
      split at hlook <;> contradiction

/-- Skipping an event that is not the drop of the peer leaves a warning of it. -/
theorem watched_skipped {e : PeerEvent} {f : Feed}
    (hreceive : t.feed.receive? h.subscription = some (e, f)) (hother : h.isRemoval e = false) :
    t.Watched h.subscription h.peer.id { t with feed := f } := by
  cases hbuffer : (t.feed.get h.subscription).buffer with
  | nil =>
    rw [Feed.receive?_of_nil hbuffer] at hreceive
    contradiction
  | cons e' rest =>
    rw [Feed.receive?_of_cons hbuffer] at hreceive
    obtain ⟨rfl, rfl⟩ := Prod.mk.inj (Option.some.inj hreceive)
    have hcalm : t.Calm
        { t with feed := t.feed.update h.subscription fun s => { s with buffer := rest } } :=
      ⟨rfl, id, fun _ => id⟩
    refine ⟨Nat.le_of_eq (by simp [Feed.update, Feed.next]), fun hi hwarns => ?_,
      fun _ hid => .inr ⟨hcalm.taken _ hid, hcalm.not_disconnects⟩⟩
    rw [Feed.get_update hi]
    obtain hdeaf | ⟨d, hd, hdropped, hpeer⟩ := hwarns
    · exact .inl hdeaf
    refine .inr ⟨d, ?_, hdropped, hpeer⟩
    rw [hbuffer] at hd
    refine (List.mem_cons.mp hd).resolve_left ?_
    rintro rfl
    simp [isRemoval, hdropped, PeerRef.samePeer, hpeer] at hother

/-- A step of the task that leaves it holding and looking at its events leaves a warning too. -/
theorem watched_of_step? (hr : h.step? now t = some r) (hholding : r.1.phase = .holding)
    (hwatching : r.1.watching = true) :
    h.phase = .holding ∧ h.watching = true ∧ t.Watched h.subscription h.peer.id r.2.1 := by
  obtain ⟨hphase, hwatched, hlooks⟩ | ⟨hphase, hconnection⟩ | ⟨hended, -⟩ := cases_of_step? hr
  · refine ⟨hphase, hwatched, ?_⟩
    generalize r.1 = h', r.2.1 = t' at hlooks hholding hwatching
    cases hlooks with
    | skipped hreceive hother => exact watched_skipped hreceive hother
    | deafened | removed | closed => contradiction
  · have hstays := stays_of_lookAtConnection? hconnection
    exact ⟨hphase, hstays.watching ▸ hwatching,
      (InProcess.bridges_watched _ _).lookAtConnection? hconnection⟩
  · exact absurd hholding hended

end HeldPeer

end PeerProbe
