import PeerProbe.Attempt.Step
import PeerProbe.Proofs.Attempt.Held

/-!
# What is done to a transport

Apart from starting and stopping it, users of a transport do a few things to it: they dial and
remove peers, take connections, read, send and let go, and read from the feed; its background tasks
and the network do the rest. The tasks that hold peers do nothing else.

Whether a transport runs is a matter of starts and stops alone.
-/

namespace PeerProbe

namespace Transport

variable {σ : Type} [Transport σ]

/-- One thing that is done to a transport, other than to start or to stop it. -/
inductive Use (t : σ) : σ → Prop where
  | dial (now : Nat) (p : PeerRef) : Use t (dial now p t)
  | remove (p : PeerRef) : Use t (remove p t)
  | take (p : PeerRef) : Use t (take p t).2
  | ready {now : Nat} {c : ConnId} {taken : List UInt8} {item : Except TransportError Frame}
      {t' : σ} (h : read now c taken t = .ready item t') : Use t t'
  | ahead {now : Nat} {c : ConnId} {taken taken' : List UInt8} {t' : σ}
      (h : read now c taken t = .ahead taken' t') : Use t t'
  | send {now : Nat} {c : ConnId} {code : UInt64} {payload : List UInt8}
      {r : Except TransportError Unit} {t' : σ} (h : send now c code payload t = some (r, t')) :
      Use t t'
  | release (c : ConnId) : Use t (release c t)
  | withFeed (f : Feed) : Use t (withFeed f t)
  | background {now i : Nat} {t' : σ} (h : background now i t = some t') : Use t t'
  | move (now : Nat) (m : Move σ) : Use t (move now m t)

/-- One thing that is done to a transport by whoever has a peer or a connection, or by one of its
background tasks. -/
inductive Touch (t : σ) : σ → Prop where
  | dial (now : Nat) (p : PeerRef) : Touch t (dial now p t)
  | remove (p : PeerRef) : Touch t (remove p t)
  | take (p : PeerRef) : Touch t (take p t).2
  | ready {now : Nat} {c : ConnId} {taken : List UInt8} {item : Except TransportError Frame}
      {t' : σ} (h : read now c taken t = .ready item t') : Touch t t'
  | ahead {now : Nat} {c : ConnId} {taken taken' : List UInt8} {t' : σ}
      (h : read now c taken t = .ahead taken' t') : Touch t t'
  | send {now : Nat} {c : ConnId} {code : UInt64} {payload : List UInt8}
      {r : Except TransportError Unit} {t' : σ} (h : send now c code payload t = some (r, t')) :
      Touch t t'
  | release (c : ConnId) : Touch t (release c t)
  | background {now i : Nat} {t' : σ} (h : background now i t = some t') : Touch t t'

/-- Whatever else is done is to read from the feed or what the network does. -/
theorem Use.touch_or {t t' : σ} (h : Use t t') :
    Touch t t' ∨ (∃ f, t' = Transport.withFeed f t) ∨
      ∃ now m, t' = Transport.move now m t := by
  cases h with
  | dial now p => exact .inl (.dial now p)
  | remove p => exact .inl (.remove p)
  | take p => exact .inl (.take p)
  | ready h => exact .inl (.ready h)
  | ahead h => exact .inl (.ahead h)
  | send h => exact .inl (.send h)
  | release c => exact .inl (.release c)
  | withFeed f => exact .inr (.inl ⟨f, rfl⟩)
  | background h => exact .inl (.background h)
  | move now m => exact .inr (.inr ⟨now, m, rfl⟩)

/-- Some things that are done to a transport, one after the other. -/
inductive Uses (t : σ) : σ → Prop where
  | none : Uses t t
  | more {t' t'' : σ} (h : Uses t t') (h' : Use t' t'') : Uses t t''

/-- One thing is some. -/
theorem Use.uses {t t' : σ} (h : Use t t') : Uses t t' := .more .none h

/-- What is done after something else is done as well. -/
theorem Uses.trans {t t' t'' : σ} (h : Uses t t') (h' : Uses t' t'') : Uses t t'' := by
  induction h' with
  | none => exact h
  | more _ huse ih => exact .more ih huse

/-- What a transport keeps to about running: a start that fails leaves it stopped, a stop stops it,
and nothing else makes it run or stop. -/
structure Switched (σ : Type) [Transport σ] : Prop where
  start : ∀ (t t' : σ) (e : TransportError), isRunning t = false → start t = (.error e, t') →
    isRunning t' = false
  stop : ∀ t : σ, isRunning (stop t) = false
  use : ∀ t t' : σ, Use t t' → isRunning t' = isRunning t

/-- Whatever is done to a transport does not make it run or stop. -/
theorem Switched.isRunning_uses (hσ : Switched σ) {t t' : σ} (h : Uses t t') :
    isRunning t' = isRunning t := by
  induction h with
  | none => rfl
  | more _ huse ih => rw [hσ.use _ _ huse, ih]

/-- Whatever is done to a transport, starts and stops included, leaves a property of it true. -/
structure Lasts (p : σ → Prop) : Prop where
  start : ∀ t, p t → p (start t).2
  stop : ∀ t, p t → p (stop t)
  use : ∀ t t', p t → Use t t' → p t'

/-- What lasts stays true while some things are done. -/
theorem Lasts.uses {p : σ → Prop} (hp : Lasts p) {t t' : σ} (ht : p t) (h : Uses t t') : p t' := by
  induction h with
  | none => exact ht
  | more _ huse ih => exact hp.use _ _ ih huse

end Transport

open Transport

variable {σ : Type} [Transport σ]

namespace HeldPeer

variable {h : HeldPeer} {now : Nat} {t : σ} {r : Stepped σ}

/-- A look at the events only reads from the feed. -/
theorem uses_of_lookAtEvents? (hr : h.lookAtEvents? t = some r) : Uses t r.2.1 := by
  obtain ⟨u, -, hu, -⟩ := use_of_lookAtEvents? hr
  rw [hu]
  exact (Use.withFeed _).uses

/-- A look at the connection only reads. -/
theorem uses_of_lookAtConnection? (hr : h.lookAtConnection? now t = some r) : Uses t r.2.1 := by
  unfold lookAtConnection? at hr
  split at hr
  · next item t' hread =>
    obtain rfl := Option.some.inj hr
    rw [transport_onItem]
    exact (Use.ready hread).uses
  · next hread =>
    obtain rfl := Option.some.inj hr
    exact (Use.ahead hread).uses
  · contradiction

/-- A step of the task that holds a peer neither starts nor stops the transport. -/
theorem uses_of_step? (hr : h.step? now t = some r) : Uses t r.2.1 := by
  unfold step? at hr
  split at hr
  · split at hr
    · next hevents =>
      obtain rfl := Option.some.inj hr
      obtain ⟨-, hevents⟩ := Option.ite_none_right_eq_some.mp hevents
      exact uses_of_lookAtEvents? hevents
    · exact uses_of_lookAtConnection? hr
  · obtain rfl := Option.some.inj hr
    exact (Use.withFeed _).uses
  · obtain rfl := Option.some.inj hr
    exact (Use.release _).uses
  · contradiction

end HeldPeer

end PeerProbe
