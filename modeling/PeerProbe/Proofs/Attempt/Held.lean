import PeerProbe.Attempt.Held
import PeerProbe.Proofs.Feed.Owners

/-!
# When a held peer is let go

The task that holds a peer looks at its events first and at the connection only when there is none.
It lets go for two reasons: a signal from the feed, which is a removal of its peer or the end of the
feed, or a read that fails. Nothing else ends the holding.
-/

namespace PeerProbe

namespace HeldPeer

variable {σ : Type}

/-! ## Dealing with an item -/

/-- A read begins anew behind every item. -/
theorem taken_onItem (h : HeldPeer) (item : Except TransportError Frame) (t : σ) :
    (h.onItem item t).1.taken = [] := by
  unfold onItem
  dsimp only
  split <;> rfl

/-- The connection stays the same. -/
theorem conn_onItem (h : HeldPeer) (item : Except TransportError Frame) (t : σ) :
    (h.onItem item t).1.conn = h.conn := by
  unfold onItem
  dsimp only
  split <;> rfl

/-- So does the subscription. -/
theorem subscription_onItem (h : HeldPeer) (item : Except TransportError Frame) (t : σ) :
    (h.onItem item t).1.subscription = h.subscription := by
  unfold onItem
  dsimp only
  split <;> rfl

/-- An item is dealt with outside the transport. -/
theorem transport_onItem (h : HeldPeer) (item : Except TransportError Frame) (t : σ) :
    (h.onItem item t).2.1 = t := by
  unfold onItem
  dsimp only
  split <;> rfl

/-- A frame is never the end of the holding, whatever the reader makes of it. -/
theorem phase_onItem_ok (h : HeldPeer) (f : Frame) (t : σ) :
    (h.onItem (.ok f) t).1.phase = h.phase := by
  unfold onItem Eth.Reading.next
  dsimp only
  split
  · rfl
  · rfl
  · next e hreport =>
    simp only [Eth.Reading.report] at hreport
    split at hreport
    · simp at hreport
    · split at hreport <;> simp at hreport

/-- An error of the connection is the end. -/
theorem phase_onItem_error (h : HeldPeer) (e : TransportError) (t : σ) :
    (h.onItem (.error e) t).1.phase = .leaving := rfl

/-! ## The end of holding -/

variable [Transport σ]

/-- The next thing on the subscription says that the peer was removed, or that the feed closed. -/
inductive Signalled (h : HeldPeer) (t : σ) : Prop where
  | removal {e : PeerEvent} {f : Feed} (hwatching : h.watching = true)
      (hreceive : (Transport.feed t).receive? h.subscription = some (e, f))
      (hremoval : h.isRemoval e = true)
  | closed (hwatching : h.watching = true)
      (hreceive : (Transport.feed t).receive? h.subscription = none)
      (hover : (Transport.feed t).isOver h.subscription = true)
      (herror : ((Transport.feed t).takeError h.subscription).1 = none ∨
        ((Transport.feed t).takeError h.subscription).1 = some .closed)

/-- The connection has failed or was closed by the remote. -/
def ReadFails (h : HeldPeer) (now : Nat) (t : σ) : Prop :=
  ∃ e t', Transport.read now h.conn h.taken t = .ready (.error e) t'

/-- A look at the events takes one thing from the subscription, and is the end of the holding or
begins the read anew. -/
theorem use_of_lookAtEvents? {h : HeldPeer} {t : σ} {r : Stepped σ}
    (hr : h.lookAtEvents? t = some r) :
    ∃ u : Feed.Use, u.owner? = some h.subscription ∧
      r.2.1 = Transport.withFeed ((Transport.feed t).use u) t ∧
      (r.1.phase = .leaving ∨ r.1.phase = h.phase ∧ r.1.taken = [] ∧ r.1.conn = h.conn) := by
  unfold lookAtEvents? at hr
  dsimp only at hr
  split at hr
  · next e f hreceive =>
    have huse : (Transport.feed t).use (.receive h.subscription) = f := by
      rw [Feed.use, hreceive]
      rfl
    subst huse
    split at hr
    · obtain rfl := Option.some.inj hr
      exact ⟨.receive h.subscription, rfl, rfl, .inl rfl⟩
    · obtain rfl := Option.some.inj hr
      exact ⟨.receive h.subscription, rfl, rfl, .inr ⟨rfl, rfl, rfl⟩⟩
  · split at hr
    · split at hr
      · obtain rfl := Option.some.inj hr
        exact ⟨.takeError h.subscription, rfl, rfl, .inr ⟨rfl, rfl, rfl⟩⟩
      · obtain rfl := Option.some.inj hr
        exact ⟨.takeError h.subscription, rfl, rfl, .inr ⟨rfl, rfl, rfl⟩⟩
      · obtain rfl := Option.some.inj hr
        exact ⟨.takeError h.subscription, rfl, rfl, .inl rfl⟩
    · contradiction

/-- The task listens to one subscription all the time. -/
theorem subscription_of_step? {h : HeldPeer} {now : Nat} {t : σ} {r : Stepped σ}
    (hr : h.step? now t = some r) : r.1.subscription = h.subscription := by
  unfold step? at hr
  split at hr
  · split at hr
    · next hevents =>
      obtain rfl := Option.some.inj hr
      obtain ⟨-, hevents⟩ := Option.ite_none_right_eq_some.mp hevents
      unfold lookAtEvents? at hevents
      dsimp only at hevents
      split at hevents
      · split at hevents <;> exact Option.some.inj hevents ▸ rfl
      · split at hevents
        · split at hevents <;> exact Option.some.inj hevents ▸ rfl
        · contradiction
    · unfold lookAtConnection? at hr
      split at hr
      · obtain rfl := Option.some.inj hr
        exact subscription_onItem ..
      · exact Option.some.inj hr ▸ rfl
      · contradiction
  · exact Option.some.inj hr ▸ rfl
  · exact Option.some.inj hr ▸ rfl
  · contradiction

/-- A look at the events ends the holding exactly on a signal. -/
theorem ends_iff_of_lookAtEvents? {h : HeldPeer} {t : σ} {r : Stepped σ}
    (hphase : h.phase = .holding) (hwatching : h.watching = true)
    (hr : h.lookAtEvents? t = some r) : r.1.phase ≠ .holding ↔ h.Signalled t := by
  unfold lookAtEvents? at hr
  cases hreceive : (Transport.feed t).receive? h.subscription with
  | some x =>
    obtain ⟨e, f⟩ := x
    simp only [hreceive] at hr
    split at hr
    · next hremoval =>
      obtain rfl := Option.some.inj hr
      exact iff_of_true (by simp [leave]) (.removal hwatching hreceive hremoval)
    · next hremoval =>
      obtain rfl := Option.some.inj hr
      refine iff_of_false (by simp [reread, hphase]) fun hsignal => ?_
      cases hsignal with
      | removal _ hreceive' hremoval' =>
        obtain ⟨rfl, -⟩ := Prod.mk.inj (Option.some.inj (hreceive.symm.trans hreceive'))
        exact hremoval hremoval'
      | closed _ hreceive' => simp [hreceive] at hreceive'
  | none =>
    simp only [hreceive] at hr
    split at hr
    · next hover =>
      have hsignal_iff : h.Signalled t ↔
          ((Transport.feed t).takeError h.subscription).1 = none ∨
            ((Transport.feed t).takeError h.subscription).1 = some .closed := by
        refine ⟨fun hsignal => ?_, .closed hwatching hreceive hover⟩
        cases hsignal with
        | removal _ hreceive' => simp [hreceive] at hreceive'
        | closed _ _ _ herror => exact herror
      rw [hsignal_iff]
      cases herror : ((Transport.feed t).takeError h.subscription).1 with
      | none =>
        simp only [herror, Option.some.injEq] at hr
        subst hr
        simp [leave]
      | some e =>
        cases e with
        | closed =>
          simp only [herror, Option.some.injEq] at hr
          subst hr
          simp [leave]
        | overflow | transport =>
          simp only [herror, Option.some.injEq] at hr
          subst hr
          simp [reread, hphase]
    · contradiction

/-- A look at the connection ends the holding exactly when the read fails. -/
theorem ends_iff_of_lookAtConnection? {h : HeldPeer} {now : Nat} {t : σ} {r : Stepped σ}
    (hphase : h.phase = .holding) (hr : h.lookAtConnection? now t = some r) :
    r.1.phase ≠ .holding ↔ h.ReadFails now t := by
  unfold lookAtConnection? at hr
  cases hread : Transport.read now h.conn h.taken t with
  | waiting => simp [hread] at hr
  | ahead taken t' =>
    simp only [hread, Option.some.injEq] at hr
    subst hr
    simp [ReadFails, hread, hphase]
  | ready item t' =>
    simp only [hread, Option.some.injEq] at hr
    subst hr
    cases item with
    | error e => exact iff_of_true (by simp [phase_onItem_error]) ⟨e, t', hread⟩
    | ok f => exact iff_of_false (by simp [phase_onItem_ok, hphase]) (by simp [ReadFails, hread])

/-- A step of a holding task ends the holding exactly on a signal, or when there is no event to look
at and the read fails. -/
theorem ends_iff_of_step? {h : HeldPeer} {now : Nat} {t : σ} {r : Stepped σ}
    (hphase : h.phase = .holding) (hr : h.step? now t = some r) :
    r.1.phase ≠ .holding ↔
      h.Signalled t ∨ (h.ReadFails now t ∧ (h.watching = true → h.lookAtEvents? t = none)) := by
  have hunwatched : h.watching = false → ¬ h.Signalled t := fun hw hsignal => by
    cases hsignal <;> simp_all
  simp only [step?, hphase] at hr
  cases hwatching : h.watching with
  | false =>
    simp only [hwatching] at hr
    have hends := ends_iff_of_lookAtConnection? hphase hr
    simp [hends, hunwatched hwatching]
  | true =>
    simp only [hwatching, ↓reduceIte] at hr
    cases hlook : h.lookAtEvents? t with
    | some stepped =>
      simp only [hlook] at hr
      obtain rfl := Option.some.inj hr
      simp [ends_iff_of_lookAtEvents? hphase hwatching hlook]
    | none =>
      simp only [hlook] at hr
      have hends := ends_iff_of_lookAtConnection? hphase hr
      have hno : ¬ h.Signalled t := fun hsignal => by
        cases hsignal with
        | removal _ hreceive hremoval => simp [lookAtEvents?, hreceive, hremoval] at hlook
        | closed _ hreceive hover herror =>
          rcases herror with herror | herror <;>
            simp [lookAtEvents?, hreceive, hover, herror] at hlook
      simp [hends, hno]

end HeldPeer

end PeerProbe
