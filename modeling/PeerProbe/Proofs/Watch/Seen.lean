import PeerProbe.Proofs.Feed.Owners
import PeerProbe.Watch

/-!
# What a watcher has seen

A watcher takes events one at a time, and stops at the first one about its target, or before that
when it is cancelled, its subscription is over or its timer fires. So the events that it has taken
say whether it came to a connection: exactly if the first one about the target is an arrival.
-/

namespace PeerProbe

/-- The first event about a peer. -/
def PeerEvent.first? (about : PeerRef) (events : List PeerEvent) : Option PeerEvent :=
  events.find? (·.peer.samePeer about)

open PeerEvent (first?)

namespace Watcher

variable {w : Watcher} {seen : List PeerEvent} {now : Nat} {cancelled : Bool} {f : Feed}
  {r : Watcher × Feed × List Log.Entry}

/-- What a step of the watcher does to the feed. -/
def uses (w : Watcher) (cancelled : Bool) (f : Feed) : List Feed.Use :=
  match w.phase with
  | .waiting _ =>
    if cancelled then []
    else match f.receive? w.subscription with
      | some _ => [.receive w.subscription]
      | none => if f.isOver w.subscription then [.takeError w.subscription] else []
  | .decided _ => [.drop w.subscription]
  | .created | .done _ => []

/-- The events that a step of the watcher takes. -/
def takes (w : Watcher) (cancelled : Bool) (f : Feed) : List PeerEvent :=
  f.received w.subscription (w.uses cancelled f)

/-- What a watcher has decided in the light of the events that it has taken. One that still looks for
an event about its target has not taken any. -/
def Saw (w : Watcher) (seen : List PeerEvent) : Prop :=
  match w.phase with
  | .created | .waiting _ => first? w.target seen = none
  | .decided o | .done o => ∀ p, o = some (.connected p) ↔ first? w.target seen = some ⟨.added, p⟩

/-- A new watcher has taken nothing. -/
theorem saw_create (target : PeerRef) (subscription timeout : Nat) :
    (create target subscription timeout).Saw [] := rfl

/-- An event about the target means a connection exactly if it is an arrival. -/
theorem ofEvent_eq_connected {e : PeerEvent} {p : PeerRef} :
    Outcome.ofEvent e = .connected p ↔ e = ⟨.added, p⟩ := by
  obtain ⟨change, peer⟩ := e
  cases change <;> simp [Outcome.ofEvent]

/-- A turn of a waiting watcher takes an event, or it takes none and decides that there is no
connection. -/
theorem turn?_cases {deadline : Nat} (hphase : w.phase = .waiting deadline)
    (h : w.turn? deadline now cancelled f = some r) :
    r.2.1 = f.used (w.uses cancelled f) ∧
      ((∃ e, w.takes cancelled f = [e] ∧
          r.1 = if e.peer.samePeer w.target then w.concluded (some (.ofEvent e)) else w) ∨
        (w.takes cancelled f = [] ∧ ∃ o, (∀ p, o ≠ some (.connected p)) ∧ r.1 = w.concluded o)) := by
  simp only [takes, uses, hphase]
  unfold turn? at h
  split at h
  · next hcancelled =>
    obtain rfl := Option.some.inj h
    rw [if_pos hcancelled]
    exact ⟨rfl, .inr ⟨rfl, none, nofun, rfl⟩⟩
  · next hcancelled =>
    rw [if_neg hcancelled]
    split at h
    · next e f' hreceive =>
      have hused : f.used [.receive w.subscription] = f' := by
        simp [Feed.used, Feed.use, hreceive]
      have hhanded : f.received w.subscription [.receive w.subscription] = [e] := by
        simp [Feed.received, Feed.handedBy, hreceive]
      simp only [hreceive, hused, hhanded]
      split at h
      · next habout =>
        obtain rfl := Option.some.inj h
        exact ⟨rfl, .inl ⟨e, rfl, (if_pos habout).symm⟩⟩
      · next habout =>
        obtain rfl := Option.some.inj h
        exact ⟨rfl, .inl ⟨e, rfl, (if_neg habout).symm⟩⟩
    · next hreceive =>
      simp only [hreceive]
      split at h
      · next hover =>
        obtain rfl := Option.some.inj h
        rw [if_pos hover]
        exact ⟨rfl, .inr ⟨rfl, _, by simp, rfl⟩⟩
      · next hover =>
        obtain ⟨-, h⟩ := Option.ite_none_right_eq_some.mp h
        obtain rfl := Option.some.inj h
        rw [if_neg hover]
        exact ⟨rfl, .inr ⟨rfl, _, by simp, rfl⟩⟩

/-- What a step of a watcher does to the feed. -/
theorem feed_of_step? (h : w.step? now cancelled f = some r) :
    r.2.1 = f.used (w.uses cancelled f) := by
  unfold step? at h
  split at h
  · next hphase =>
    obtain rfl := Option.some.inj h
    simp [uses, hphase, Feed.used]
  · next hphase => exact (turn?_cases hphase h).1
  · next hphase =>
    obtain rfl := Option.some.inj h
    simp [uses, hphase, Feed.used, Feed.use]
  · contradiction

/-- Every step of a watcher leaves it with a decision that fits what it has taken by then. -/
theorem Saw.step? (hw : w.Saw seen) (h : w.step? now cancelled f = some r) :
    r.1.Saw (seen ++ w.takes cancelled f) := by
  unfold Watcher.step? at h
  cases hphase : w.phase with
  | created =>
    simp only [hphase, Option.some.injEq] at h
    subst h
    rw [Saw, hphase] at hw
    simpa [takes, uses, hphase, Feed.received, Saw] using hw
  | waiting deadline =>
    simp only [hphase] at h
    replace hw : first? w.target seen = none := by rwa [Saw, hphase] at hw
    rw [first?] at hw
    obtain ⟨-, ⟨e, htakes, hr⟩ | ⟨htakes, o, ho, hr⟩⟩ := turn?_cases hphase h
    · rw [hr, htakes]
      split
      · next habout =>
        have hfirst : first? w.target (seen ++ [e]) = some e := by
          rw [first?, List.find?_append, hw, Option.none_or, List.find?_singleton, if_pos habout]
        intro p
        change _ ↔ first? w.target (seen ++ [e]) = _
        rw [hfirst, Option.some_inj, Option.some_inj, ofEvent_eq_connected]
      · next habout =>
        rw [Saw, hphase]
        change (seen ++ [e]).find? _ = none
        rw [List.find?_append, hw, Option.none_or, List.find?_singleton, if_neg habout]
    · rw [hr, htakes, List.append_nil]
      intro p
      change _ ↔ seen.find? (·.peer.samePeer w.target) = _
      rw [hw]
      exact iff_of_false (ho p) (Option.some_ne_none _).symm
  | decided o =>
    simp only [hphase, Option.some.injEq] at h
    subst h
    rw [Saw, hphase] at hw
    simpa [takes, uses, hphase, Feed.received, Feed.handedBy, Saw] using hw
  | done o => simp [hphase] at h

/-- The result of a watcher is a connection exactly if the first event about its target that it has
taken is an arrival. -/
theorem Saw.result? (hw : w.Saw seen) {o : Option Outcome} (ho : w.result? = some o) (p : PeerRef) :
    o = some (.connected p) ↔ first? w.target seen = some ⟨.added, p⟩ := by
  unfold Watcher.result? at ho
  split at ho
  · next hphase =>
    obtain rfl := Option.some.inj ho
    rw [Saw, hphase] at hw
    exact hw p
  · contradiction

/-- A watcher uses no subscription but its own. -/
theorem owner?_of_mem_uses {u : Feed.Use} (hu : u ∈ w.uses cancelled f) {i : Nat}
    (hi : u.owner? = some i) : i = w.subscription := by
  unfold uses at hu
  split at hu
  · split at hu
    · contradiction
    · split at hu
      · rw [List.mem_singleton.mp hu] at hi
        exact (Option.some.inj hi).symm
      · split at hu
        · rw [List.mem_singleton.mp hu] at hi
          exact (Option.some.inj hi).symm
        · contradiction
  · rw [List.mem_singleton.mp hu] at hi
    exact (Option.some.inj hi).symm
  · contradiction
  · contradiction

/-- Target and subscription of a watcher stay what they are. -/
theorem step?_target (h : w.step? now cancelled f = some r) :
    r.1.target = w.target ∧ r.1.subscription = w.subscription := by
  unfold Watcher.step? at h
  split at h
  · obtain rfl := Option.some.inj h
    exact ⟨rfl, rfl⟩
  · unfold turn? at h
    split at h
    · obtain rfl := Option.some.inj h
      exact ⟨rfl, rfl⟩
    · split at h
      · split at h <;>
        · obtain rfl := Option.some.inj h
          exact ⟨rfl, rfl⟩
      · split at h
        · obtain rfl := Option.some.inj h
          exact ⟨rfl, rfl⟩
        · obtain ⟨-, h⟩ := Option.ite_none_right_eq_some.mp h
          obtain rfl := Option.some.inj h
          exact ⟨rfl, rfl⟩
  · obtain rfl := Option.some.inj h
    exact ⟨rfl, rfl⟩
  · contradiction

end Watcher

end PeerProbe
