import PeerProbe.Proofs.Attempt.Acts
import PeerProbe.Proofs.Feed.Owners

/-!
# Relations across what is done to a transport

The tasks of a node start and stop its transport, do things about peers and connections, and read
from its feed. A relation to an earlier state that holds across each of these things holds across
every step of every task. Some relations do so only while a subscription is left to its owner, so a
relation comes with the owners who may take from the feed.
-/

namespace PeerProbe

namespace Transport

variable {σ : Type} [Transport σ]

/-- A relation between states of a transport that holds across whatever is done to it, as long as
only some owners take from their subscriptions. One step may do several things about peers and
connections and read from the feed, but it starts or stops the transport by itself. -/
structure Bridges (takes : Move σ → Nat → Prop) (owners : Nat → Prop) (R : σ → σ → Prop) :
    Prop where
  refl : ∀ t, R t t
  start : ∀ t, R t (start t).2
  stop : ∀ t, R t (stop t)
  touch : ∀ t t' t'', R t t' → Touch t' t'' → R t t''
  withFeed : ∀ (t t' : σ) (f : Feed), R t t' → (feed t').UsedBy owners f → R t (withFeed f t')
  move : ∀ (now : Nat) (m : Move σ) (t : σ), (∀ i, takes m i → owners i) → R t (move now m t)

variable {takes : Move σ → Nat → Prop} {owners : Nat → Prop} {R : σ → σ → Prop}

/-- One thing that is done about a peer or a connection is bridged. -/
theorem Bridges.touched (hR : Bridges takes owners R) {t t' : σ} (h : Touch t t') : R t t' :=
  hR.touch t t t' (hR.refl t) h

/-- Nobody's subscription is taken from when somebody subscribes. -/
theorem Bridges.subscribe (hR : Bridges takes owners R) {t t' : σ} (h : R t t') :
    R t (subscribe t').2 :=
  hR.withFeed t t' _ h (Feed.usedBy_use (u := .subscribe) nofun)

/-- What an attempt asks of a transport is bridged. -/
theorem Bridges.asked (hR : Bridges takes owners R) {peer : PeerRef} {acts : List AttemptAct}
    {t t' : σ} (h : Asked peer t acts t') : R t t' := by
  induction h with
  | nothing => exact hR.refl _
  | aside _ haside ih =>
    cases haside with
    | ready h => exact hR.touch _ _ _ ih (.ready h)
    | ahead h => exact hR.touch _ _ _ ih (.ahead h)
    | send h => exact hR.touch _ _ _ ih (.send h)
    | release c => exact hR.touch _ _ _ ih (.release c)
    | subscribe => exact hR.subscribe ih
  | dial now _ ih => exact hR.touch _ _ _ ih (.dial now peer)
  | take p _ ih => exact hR.touch _ _ _ ih (.take p)
  | remove _ ih => exact hR.touch _ _ _ ih (.remove peer)
  | publish _ _ ih | report _ ih => exact ih

/-- So is a look of a held peer's task at the connection. -/
theorem Bridges.lookAtConnection? (hR : Bridges takes owners R) {h : HeldPeer} {now : Nat} {t : σ}
    {r : HeldPeer.Stepped σ} (hr : h.lookAtConnection? now t = some r) : R t r.2.1 := by
  unfold HeldPeer.lookAtConnection? at hr
  split at hr
  · next hread =>
    obtain rfl := Option.some.inj hr
    rw [HeldPeer.transport_onItem]
    exact hR.touched (.ready hread)
  · next hread =>
    obtain rfl := Option.some.inj hr
    exact hR.touched (.ahead hread)
  · contradiction

/-- Every step of the task is bridged if it may take from its subscription. -/
theorem Bridges.heldPeer (hR : Bridges takes owners R) {h : HeldPeer}
    (howner : owners h.subscription) {now : Nat} {t : σ} {r : HeldPeer.Stepped σ}
    (hr : h.step? now t = some r) : R t r.2.1 := by
  have hused {u : Feed.Use} (hu : u.owner? = some h.subscription) :
      R t (Transport.withFeed ((feed t).use u) t) :=
    hR.withFeed t t _ (hR.refl t)
      (Feed.usedBy_use fun i hi => Option.some.inj (hu.symm.trans hi) ▸ howner)
  unfold HeldPeer.step? at hr
  split at hr
  · split at hr
    · next hevents =>
      obtain rfl := Option.some.inj hr
      obtain ⟨-, hevents⟩ := Option.ite_none_right_eq_some.mp hevents
      obtain ⟨u, hu, hfeed, -⟩ := HeldPeer.use_of_lookAtEvents? hevents
      rw [hfeed]
      exact hused hu
    · exact hR.lookAtConnection? hr
  · obtain rfl := Option.some.inj hr
    exact hused (u := .drop h.subscription) rfl
  · obtain rfl := Option.some.inj hr
    exact hR.touched (.release _)
  · contradiction

end Transport

end PeerProbe
