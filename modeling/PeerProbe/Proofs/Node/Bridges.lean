import PeerProbe.Proofs.Attempt.Course
import PeerProbe.Proofs.Node.Frame
import PeerProbe.Proofs.Transport.Bridges
import PeerProbe.Proofs.Watch.Seen

/-!
# What a node does to its transport

Whatever happens to a node, its transport is used as transports are: a step of a task takes from the
subscription that the task listens to, and from no other.
-/

namespace PeerProbe

namespace Node

variable {σ : Type} [Transport σ] {takes : Transport.Move σ → Nat → Prop} {owners : Nat → Prop}
  {R : σ → σ → Prop} {n n' : Node σ}

/-- What bridges everything that is done to a transport bridges a step of a call. -/
theorem bridged_of_callStep? (hR : Transport.Bridges takes owners R) {j : Nat} {c : Call}
    (h : n.callStep? j c = some n') : R n.transport n'.transport := by
  have hstart {r : Except TransportError Unit} {t : σ} (ht : Transport.start n.transport = (r, t)) :
      R n.transport t := by
    have hstarted := hR.start n.transport
    rwa [ht] at hstarted
  cases callStepped_of_callStep? h with
  | transportUp _ ht | transportFailed _ ht => exact hstart ht
  | directStart => exact hstart rfl
  | abortDown | transportDown | directStop => exact hR.stop _
  | removed => exact hR.touched (.remove _)
  | subscribed => exact hR.subscribe (hR.refl _)
  | @joined purpose => cases purpose <;> exact hR.refl _
  | _ => exact hR.refl _

/-- It bridges the step of any task that may take from what it listens to. -/
theorem bridged_of_step? (hR : Transport.Bridges takes owners R) {task : Task}
    (h : n.step? task = some n') (howner : ∀ i, n.subscription? task = some i → owners i) :
    R n.transport n'.transport := by
  have hwatcher {w : Watcher} {cancelled : Bool} {r : Watcher × Feed × List Log.Entry}
      (hw : n.subscription? task = some w.subscription)
      (hr : w.step? n.now cancelled (Transport.feed n.transport) = some r) :
      R n.transport (Transport.withFeed r.2.1 n.transport) :=
    hR.withFeed _ _ _ (hR.refl _) ⟨_, Watcher.feed_of_step? hr, fun u hu i hi =>
      howner i (by rw [hw, Watcher.owner?_of_mem_uses hu hi])⟩
  cases stepped_of_step? h with
  | attempt _ _ hs =>
    have hasked := hR.asked (Attempt.does_of_step? hs).asked
    split <;> exact hasked
  | watcher ha hr =>
    obtain ⟨w, hw, rfl⟩ := Attempt.exists_of_watcherStep? hr
    exact hwatcher (by simp [subscription?, ha]) hw
  | openWatch hw hr => exact hwatcher (by simp [subscription?, hw]) hr
  | held hh hr => exact hR.heldPeer (howner _ (by simp [subscription?, hh])) hr
  | background ht => exact hR.touched (.background ht)
  | call hc hstep => exact bridged_of_callStep? hR hstep

/-- It bridges what is done to a node by somebody who may take from what he takes from. -/
theorem bridged_of_act (hR : Transport.Bridges takes owners R) {act : Act σ}
    (howner : ∀ m, act = .move m → ∀ i, takes m i → owners i) :
    R n.transport (n.act act).transport := by
  cases act with
  | move m => exact hR.move _ m _ (howner m rfl)
  | order | watch | cancelWatch | cancelAttempt | addSlot | wait => exact hR.refl _

/-- What bridges everything whoever takes from the feed bridges whatever happens. -/
theorem bridged_of_happens (hR : Transport.Bridges takes (fun _ => True) R) {allowed : Act σ → Prop}
    (h : Happens allowed n n') : R n.transport n'.transport := by
  cases h with
  | step task h => exact bridged_of_step? hR h fun _ _ => trivial
  | act => exact bridged_of_act hR fun _ _ _ _ => trivial

end Node

end PeerProbe
