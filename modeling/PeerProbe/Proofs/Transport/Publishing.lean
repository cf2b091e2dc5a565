import PeerProbe.Proofs.Transport.Bridges

/-!
# What is done to the feed of a transport

A transport sends on its feed, ends it and opens it again; it takes nothing from anybody's
subscription. Only the tasks that listen to one do, each from its own. Another user of the transport
may have subscriptions as well, and what the network does says from which of them it takes.
-/

namespace PeerProbe

/-- What a transport keeps to about its feed. The parameter says from which subscriptions a move
takes. -/
structure Transport.Publishes (σ : Type) [Transport σ] (takes : Move σ → Nat → Prop) : Prop where
  feed_withFeed : ∀ (f : Feed) (t : σ), feed (withFeed f t) = f
  start : ∀ t : σ, (feed t).Acted (feed (start t).2)
  stop : ∀ t : σ, (feed t).Acted (feed (stop t))
  touch : ∀ t t' : σ, Touch t t' → (feed t).Acted (feed t')
  move : ∀ (now : Nat) (m : Move σ) (t : σ), (feed t).UsedBy (takes m) (feed (move now m t))

open Transport

variable {σ : Type} [Transport σ] {takes : Move σ → Nat → Prop} {now : Nat} {t : σ}

/-- Subscribing is seen on the feed. -/
theorem Transport.Publishes.feed_subscribe (hσ : Publishes σ takes) (t : σ) :
    feed (subscribe t).2 = (feed t).subscribe :=
  hσ.feed_withFeed _ t

/-- What is done to the transport takes nothing from anybody but the owners it says. -/
theorem Transport.Publishes.bridges (hσ : Publishes σ takes) (owners : Nat → Prop) :
    Bridges takes owners fun t t' : σ => (feed t).UsedBy owners (feed t') where
  refl _ := .refl _ _
  start t := (hσ.start t).usedBy owners
  stop t := (hσ.stop t).usedBy owners
  touch _ _ _ h htouch := h.trans ((hσ.touch _ _ htouch).usedBy owners)
  withFeed _ _ _ h hused := by
    rw [hσ.feed_withFeed]
    exact h.trans hused
  move now m t howners := by
    obtain ⟨us, hus, hmove⟩ := hσ.move now m t
    exact ⟨us, hus, fun u hu i hi => howners i (hmove u hu i hi)⟩

/-! ## New listeners -/

namespace Attempt

variable {cfg : AttemptConfig} {a : Attempt} {s : Stepped σ}

/-- A turn of an exchange leaves no peer to be held. -/
theorem held_exchangeTurn? {ex : Eth.ExchangeConfig} {peer : PeerRef} {conn : ConnId}
    {legs : Eth.Legs} {deadline : Nat} {taken : List UInt8}
    (h : exchangeTurn? cfg ex a peer conn legs deadline taken now t = some s) : s.2.2.2 = none := by
  unfold exchangeTurn? at h
  split at h
  · exact Option.some.inj h ▸ rfl
  · split at h
    · exact Option.some.inj h ▸ rfl
    · split at h
      · exact Option.some.inj h ▸ rfl
      · split at h
        · exact Option.some.inj h ▸ rfl
        · obtain ⟨-, h⟩ := Option.ite_none_right_eq_some.mp h
          exact Option.some.inj h ▸ rfl

/-- Nor does a turn of observing. -/
theorem held_observeTurn? {conn : ConnId} {reading : Eth.Reading} {deadline seen : Nat}
    {taken : List UInt8} (h : observeTurn? a conn reading deadline seen taken now t = some s) :
    s.2.2.2 = none := by
  unfold observeTurn? at h
  split at h
  · exact Option.some.inj h ▸ rfl
  · split at h
    · contradiction
    · exact Option.some.inj h ▸ rfl
    · dsimp only at h
      split at h <;> exact Option.some.inj h ▸ rfl

/-- Only an attempt that hands its connection over leaves a peer to be held. -/
theorem handOver_or_held_eq_none (h : a.step? cfg now t = some s) :
    (∃ conn, a.phase = .handingOver conn ∧ s = a.handOver cfg conn t) ∨ s.2.2.2 = none := by
  unfold step? at h
  cases hphase : a.phase with
  | handingOver conn =>
    simp only [hphase, Option.some.injEq] at h
    exact .inl ⟨conn, rfl, h.symm⟩
  | watching =>
    simp only [hphase, Option.map_eq_some_iff] at h
    obtain ⟨o, -, rfl⟩ := h
    right
    unfold onOutcome
    split
    · rfl
    · rfl
    · split <;> rfl
  | taking peer =>
    simp only [hphase, Option.map_eq_some_iff] at h
    obtain ⟨ex, -, rfl⟩ := h
    right
    unfold takeForExchange
    dsimp only
    split <;> rfl
  | exchanging peer conn legs deadline taken =>
    simp only [hphase] at h
    split at h
    · exact .inr (Option.some.inj h ▸ rfl)
    · obtain ⟨ex, -, h⟩ := Option.bind_eq_some_iff.mp h
      exact .inr (held_exchangeTurn? h)
  | keeping conn =>
    simp only [hphase, Option.some.injEq] at h
    subst h
    right
    unfold keep
    dsimp only
    split <;> rfl
  | resuming conn =>
    simp only [hphase, Option.some.injEq] at h
    subst h
    right
    unfold resume
    split <;> rfl
  | observing conn reading deadline seen taken =>
    simp only [hphase] at h
    exact .inr (held_observeTurn? h)
  | finished => simp [hphase] at h
  | _ =>
    simp only [hphase, Option.some.injEq] at h
    exact .inr (h ▸ rfl)

/-- A peer that is left to be held has just subscribed. -/
theorem subscription_of_step? (hσ : Publishes σ takes) (h : a.step? cfg now t = some s)
    {peer : HeldPeer} (hpeer : s.2.2.2 = some peer) :
    peer.subscription = (feed t).next ∧ feed s.2.1 = (feed t).subscribe := by
  rcases handOver_or_held_eq_none h with ⟨conn, -, rfl⟩ | hnone
  · obtain rfl := Option.some.inj hpeer
    exact ⟨rfl, hσ.feed_withFeed _ t⟩
  · exact absurd (hpeer.symm.trans hnone) nofun

end Attempt

end PeerProbe
