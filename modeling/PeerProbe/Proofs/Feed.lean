import Mathlib.Data.List.GetD
import PeerProbe.Feed

/-!
# What a feed does to one subscription

Whatever happens to a feed happens to each of its subscriptions by itself. One that has been
ended only changes when its owner takes something from it.
-/

namespace PeerProbe

/-- A subscription after something happened to its feed. -/
def Subscription.acted (s : Subscription) : Feed.Act → Subscription
  | .send e => s.offered e
  | .fail e => s.ended e
  | .close => s.ended .closed
  | .reopen => s

/-- An ended subscription that is listened to is left as it is. -/
theorem Subscription.acted_of_not_active {s : Subscription} (hactive : s.active = false)
    (hlistening : s.listening = true) (a : Feed.Act) : s.acted a = s := by
  cases a <;> simp [acted, offered, accepts, ended, hactive, hlistening]

namespace Feed

/-- A change to every subscription is seen at each number, also at those that nobody has, if it
leaves alone the subscription they stand for. -/
theorem get_map (f : Feed) (closed : Bool) {g : Subscription → Subscription}
    (hg : g ⟨[], false, none, false⟩ = ⟨[], false, none, false⟩) (i : Nat) :
    (⟨f.subscriptions.map g, closed⟩ : Feed).get i = g (f.get i) := by
  have hmap := List.getD_map f.subscriptions ⟨[], false, none, false⟩ g (n := i)
  rwa [hg] at hmap

/-- What happens to the feed happens to each subscription. -/
theorem get_act (f : Feed) (a : Act) (i : Nat) : (f.act a).get i = (f.get i).acted a := by
  cases a with
  | send e => exact get_map f f.closed rfl i
  | fail e => exact get_map f f.closed rfl i
  | close => exact get_map f true rfl i
  | reopen => rfl

/-- A change to a subscription is seen there. -/
theorem get_update {f : Feed} {i : Nat} (hi : i < f.next) (g : Subscription → Subscription) :
    (f.update i g).get i = g (f.get i) := by
  simp only [get, update, next, List.getD_eq_getElem?_getD] at hi ⊢
  rw [List.getElem?_modify_eq, List.getElem?_eq_getElem hi]
  rfl

/-- What happens to the feed makes no subscription. -/
theorem next_act (f : Feed) (a : Act) : (f.act a).next = f.next := by
  cases a <;> simp [act, send, failAll, close, reopen, next]

/-- A feed after some things happened to it. -/
def Acted (f f' : Feed) : Prop := ∃ acts : List Act, f' = acts.foldl act f

/-- Nothing may have happened to it. -/
theorem Acted.refl (f : Feed) : f.Acted f := ⟨[], rfl⟩

/-- One thing may have happened to it. -/
theorem acted_act (f : Feed) (a : Act) : f.Acted (f.act a) := ⟨[a], rfl⟩

/-- What happens later happens as well. -/
theorem Acted.trans {f f' f'' : Feed} (h : f.Acted f') (h' : f'.Acted f'') : f.Acted f'' := by
  obtain ⟨acts, rfl⟩ := h
  obtain ⟨acts', rfl⟩ := h'
  exact ⟨acts ++ acts', (List.foldl_append ..).symm⟩

/-- What happens to a feed makes no subscription. -/
theorem Acted.next {f f' : Feed} (h : f.Acted f') : f'.next = f.next := by
  obtain ⟨acts, rfl⟩ := h
  induction acts generalizing f with
  | nil => rfl
  | cons a acts ih => rw [List.foldl_cons, ih, next_act]

/-- The new subscription is fresh unless the feed is closed. -/
theorem get_subscribe (f : Feed) :
    f.subscribe.get f.next = if f.closed then .refused else .fresh := by
  simp [subscribe, get, next]

/-- Only somebody's subscription has an event to take. -/
theorem lt_next_of_buffer {f : Feed} {i : Nat} (h : (f.get i).buffer ≠ []) : i < f.next := by
  refine Nat.lt_of_not_le fun hi => h ?_
  have hget : f.get i = ⟨[], false, none, false⟩ := List.getD_eq_default _ _ hi
  rw [hget]

/-- From an empty buffer nothing is taken. -/
theorem receive?_of_nil {f : Feed} {i : Nat} (h : (f.get i).buffer = []) : f.receive? i = none := by
  simp [receive?, h]

/-- From a buffer the oldest event is taken, and the rest stays. -/
theorem receive?_of_cons {f : Feed} {i : Nat} {e : PeerEvent} {rest : List PeerEvent}
    (h : (f.get i).buffer = e :: rest) :
    f.receive? i = some (e, f.update i fun s => { s with buffer := rest }) := by
  simp [receive?, h]

end Feed

end PeerProbe
