import PeerProbe.Proofs.Feed

/-!
# What subscribers get from a feed

A feed is used in any order: by whoever sends on it, ends it or opens it again, and by the owners of
its subscriptions, who take events and errors or stop listening. Subscriptions know nothing of each
other, so each has a life of its own, from the moment it was made to the first use that ends it.

What its owner has received and what is still buffered are exactly the events sent during that life,
and the one error that it leaves says what ended it. Whatever is done to the feed afterwards,
opening it again included, adds nothing.
-/

namespace PeerProbe

namespace Feed

/-- One use of a feed: something happens to it, somebody subscribes or counts the subscriptions, or
the owner of a subscription takes an event or the error, or stops listening. -/
inductive Use where
  | act (a : Act)
  | subscribe
  | count
  | receive (i : Nat)
  | takeError (i : Nat)
  | drop (i : Nat)
  deriving DecidableEq

/-- The feed after one use. -/
def use (f : Feed) : Use → Feed
  | .act a => f.act a
  | .subscribe => f.subscribe
  | .count => f.prune
  | .receive i => ((f.receive? i).map (·.2)).getD f
  | .takeError i => (f.takeError i).2
  | .drop i => f.unsubscribe i

/-- The feed after some uses. -/
def used (f : Feed) (us : List Use) : Feed := us.foldl use f

/-- The event that a use hands to the owner of a subscription. -/
def handedBy (f : Feed) (i : Nat) : Use → List PeerEvent
  | .receive j => if j = i then ((f.receive? i).map (·.1)).toList else []
  | _ => []

/-- The error that a use hands to the owner of a subscription. -/
def errorBy (f : Feed) (i : Nat) : Use → List SubscriptionError
  | .takeError j => if j = i then (f.takeError i).1.toList else []
  | _ => []

/-- All events that the owner of a subscription receives in some uses. -/
def received (f : Feed) (i : Nat) : List Use → List PeerEvent
  | [] => []
  | u :: us => f.handedBy i u ++ (f.use u).received i us

/-- All errors that the owner of a subscription takes in some uses. -/
def errors (f : Feed) (i : Nat) : List Use → List SubscriptionError
  | [] => []
  | u :: us => f.errorBy i u ++ (f.use u).errors i us

/-- The event that a use sends. -/
def Use.sent? : Use → Option PeerEvent
  | .act (.send e) => some e
  | _ => none

/-- The events that some uses send. -/
def sent (us : List Use) : List PeerEvent := us.filterMap Use.sent?

/-- How many events a subscription with some number has undrained after a use, if it had so many
before and the use did not end it. -/
def Use.undrained (i n : Nat) : Use → Nat
  | .act (.send _) => n + 1
  | .receive j => if j = i then n - 1 else n
  | _ => n

/-- The error with which a use ends a living subscription that has so many events undrained. -/
def Use.ending? (n : Nat) : Use → Option SubscriptionError
  | .act (.send _) => if feedBuffer ≤ n then some .overflow else none
  | .act (.fail e) => some e
  | .act .close => some .closed
  | _ => none

/-- The life of a subscription: the uses before the one that ends it, and the error of that one. -/
structure Life where
  uses : List Use
  ending : Option SubscriptionError

/-- The rest of a life, from a moment at which so many events are undrained. -/
def lifeFrom (i n : Nat) : List Use → Life
  | [] => ⟨[], none⟩
  | u :: us =>
    match u.ending? n with
    | some e => ⟨[], some e⟩
    | none =>
      ⟨u :: (lifeFrom i (u.undrained i n) us).uses, (lifeFrom i (u.undrained i n) us).ending⟩

/-- The life of the subscription with some number, from the moment it is made. On a closed feed it
has none. -/
def life (closed : Bool) (i : Nat) (us : List Use) : Life :=
  if closed then ⟨[], some .closed⟩ else lifeFrom i 0 us

end Feed

/-! ## One subscription by itself -/

namespace Subscription

/-- What a use of the feed makes of the subscription with some number. -/
def used (s : Subscription) (i : Nat) : Feed.Use → Subscription
  | .act a => s.acted a
  | .subscribe => s
  | .count => if s.listening then s else { s with active := false }
  | .receive j => if j = i then { s with buffer := s.buffer.tail } else s
  | .takeError j => if j = i then { s with error := none } else s
  | .drop j => if j = i then { s with listening := false, buffer := [] } else s

/-- A subscription that is sent to and listened to, with some events buffered. -/
def alive (buffer : List PeerEvent) : Subscription := ⟨buffer, true, none, true⟩

end Subscription

namespace Feed

variable {f : Feed} {i : Nat}

/-- A change to one subscription is not seen at another. -/
theorem get_update_of_ne {j : Nat} (h : j ≠ i) (g : Subscription → Subscription) :
    (f.update j g).get i = f.get i := by
  simp only [get, update, List.getD_eq_getElem?_getD]
  rw [List.getElem?_modify_ne _ _ h]

/-- A new subscription is not seen at an older one. -/
theorem get_subscribe_of_lt (hi : i < f.next) : f.subscribe.get i = f.get i := by
  simp only [get, subscribe, List.getD_eq_getElem?_getD]
  rw [List.getElem?_append_left hi]

/-- Only subscribing gives out a number. -/
theorem next_use (f : Feed) (u : Use) :
    (f.use u).next = if u = .subscribe then f.next + 1 else f.next := by
  cases u with
  | act a => cases a <;> simp [use, act, send, failAll, close, reopen, next]
  | subscribe => simp [use, subscribe, next]
  | count => simp [use, prune, next]
  | receive j =>
    cases hbuffer : (f.get j).buffer with
    | nil => simp [use, receive?_of_nil hbuffer]
    | cons e rest => simp [use, receive?_of_cons hbuffer, update, next]
  | takeError j => simp [use, takeError, update, next]
  | drop j => simp [use, unsubscribe, update, next]

/-- No use takes a number away. -/
theorem lt_next_use (hi : i < f.next) (u : Use) : i < (f.use u).next := by
  rw [next_use]
  split <;> omega

/-- A use of the feed is seen at each subscription by itself. -/
theorem get_use (hi : i < f.next) (u : Use) : (f.use u).get i = (f.get i).used i u := by
  have hupdate (j : Nat) (g : Subscription → Subscription) :
      (f.update j g).get i = if j = i then g (f.get i) else f.get i := by
    by_cases hj : j = i
    · subst hj
      rw [if_pos rfl, get_update hi]
    · rw [if_neg hj, get_update_of_ne hj]
  cases u with
  | act a => exact get_act f a i
  | subscribe => exact get_subscribe_of_lt hi
  | count => exact get_map f f.closed rfl i
  | takeError j => exact hupdate j _
  | drop j => exact hupdate j _
  | receive j =>
    cases hbuffer : (f.get j).buffer with
    | nil =>
      rw [use, receive?_of_nil hbuffer]
      by_cases hj : j = i
      · subst hj
        have hsame : { f.get j with buffer := (f.get j).buffer.tail } = f.get j := by
          rw [hbuffer, List.tail_nil, ← hbuffer]
        simp [Subscription.used, hsame]
      · simp [Subscription.used, hj]
    | cons e rest =>
      rw [use, receive?_of_cons hbuffer]
      refine (hupdate j _).trans ?_
      by_cases hj : j = i
      · subst hj
        simp [Subscription.used, hbuffer]
      · simp [Subscription.used, hj]

/-- Taking an event hands over the oldest one. -/
theorem handedBy_receive (f : Feed) (i : Nat) :
    f.handedBy i (.receive i) = (f.get i).buffer.take 1 := by
  unfold handedBy receive?
  cases (f.get i).buffer <;> simp

/-! ## One use -/

/-- A use that ends a living subscription leaves it with what was buffered and with its error. -/
theorem used_of_ending {buffer : List PeerEvent} {u : Use} {e : SubscriptionError}
    (hs : f.get i = .alive buffer) (h : u.ending? buffer.length = some e) :
    (f.get i).used i u = ⟨buffer, false, some e, true⟩ ∧ f.handedBy i u = [] ∧
      f.errorBy i u = [] := by
  cases u with
  | act a =>
    refine ⟨?_, rfl, rfl⟩
    rw [hs]
    cases a with
    | send ev =>
      obtain ⟨hfull, he⟩ := Option.ite_none_right_eq_some.mp h
      obtain rfl := Option.some.inj he
      have hno : ¬ buffer.length < feedBuffer := Nat.not_lt.mpr hfull
      simp [Subscription.used, Subscription.acted, Subscription.offered, Subscription.accepts,
        Subscription.ended, Subscription.alive, hno]
    | fail e' =>
      obtain rfl := Option.some.inj h
      rfl
    | close =>
      obtain rfl := Option.some.inj h
      rfl
    | reopen => contradiction
  | subscribe | count | receive | takeError | drop => contradiction

/-- Any other use leaves it alive: what it hands over and what is buffered then is what was buffered
before and what is sent. -/
theorem used_of_not_ending {buffer : List PeerEvent} {u : Use} (hs : f.get i = .alive buffer)
    (hu : u ≠ .drop i) (h : u.ending? buffer.length = none) :
    ∃ buffer', (f.get i).used i u = .alive buffer' ∧
      buffer'.length = u.undrained i buffer.length ∧ f.errorBy i u = [] ∧
      f.handedBy i u ++ buffer' = buffer ++ u.sent?.toList := by
  have hnothing : [] ++ buffer = buffer ++ [] := (List.append_nil buffer).symm
  cases u with
  | act a =>
    rw [hs]
    cases a with
    | send e =>
      refine ⟨buffer ++ [e], ?_, List.length_append, rfl, rfl⟩
      have hfits : buffer.length < feedBuffer := Nat.lt_of_not_le fun hfull => by
        simp [Use.ending?, hfull] at h
      simp [Subscription.used, Subscription.acted, Subscription.offered, Subscription.accepts,
        Subscription.alive, hfits]
    | fail e => contradiction
    | close => contradiction
    | reopen => exact ⟨buffer, rfl, rfl, rfl, hnothing⟩
  | subscribe => exact ⟨buffer, hs, rfl, rfl, hnothing⟩
  | count => exact ⟨buffer, by rw [hs]; rfl, rfl, rfl, hnothing⟩
  | receive j =>
    by_cases hj : j = i
    · subst hj
      refine ⟨buffer.tail, by simp [hs, Subscription.used, Subscription.alive],
        by simp [Use.undrained], rfl, ?_⟩
      rw [handedBy_receive, hs]
      cases buffer <;> simp [Subscription.alive, Use.sent?]
    · exact ⟨buffer, by simp [hs, Subscription.used, hj], by simp [Use.undrained, hj], rfl,
        by simp [handedBy, hj, Use.sent?]⟩
  | takeError j =>
    refine ⟨buffer, ?_, rfl, ?_, hnothing⟩
    · by_cases hj : j = i <;> simp [hs, Subscription.used, Subscription.alive, hj]
    · by_cases hj : j = i <;> simp [errorBy, takeError, hs, Subscription.alive, hj]
  | drop j =>
    have hj : j ≠ i := fun hj => hu (by rw [hj])
    exact ⟨buffer, by simp [hs, Subscription.used, hj], rfl, rfl, hnothing⟩

/-- A subscription that has ended only gives out what it has. -/
theorem used_of_not_active {u : Use} (hactive : (f.get i).active = false)
    (hlistening : (f.get i).listening = true) (hu : u ≠ .drop i) :
    ((f.get i).used i u).active = false ∧ ((f.get i).used i u).listening = true ∧
      f.handedBy i u ++ ((f.get i).used i u).buffer = (f.get i).buffer ∧
      f.errorBy i u ++ ((f.get i).used i u).error.toList = (f.get i).error.toList := by
  cases u with
  | act a =>
    have hsame := Subscription.acted_of_not_active hactive hlistening a
    exact ⟨by rw [Subscription.used, hsame, hactive], by rw [Subscription.used, hsame, hlistening],
      by rw [Subscription.used, hsame]; rfl, by rw [Subscription.used, hsame]; rfl⟩
  | subscribe => exact ⟨hactive, hlistening, rfl, rfl⟩
  | count => simp [Subscription.used, hlistening, hactive, handedBy, errorBy]
  | receive j =>
    by_cases hj : j = i
    · subst hj
      refine ⟨by simp [Subscription.used, hactive], by simp [Subscription.used, hlistening], ?_,
        by simp [Subscription.used, errorBy]⟩
      rw [handedBy_receive]
      cases hbuffer : (f.get j).buffer <;> simp [Subscription.used, hbuffer]
    · simp [Subscription.used, hj, hactive, hlistening, handedBy, errorBy]
  | takeError j =>
    by_cases hj : j = i
    · simp [Subscription.used, hj, hactive, hlistening, handedBy, errorBy, takeError]
    · simp [Subscription.used, hj, hactive, hlistening, handedBy, errorBy]
  | drop j =>
    have hj : j ≠ i := fun hj => hu (by rw [hj])
    simp [Subscription.used, hj, hactive, hlistening, handedBy, errorBy]

/-! ## Any uses -/

/-- Once it has ended, a subscription gives out what it has and gets nothing more. -/
theorem account_of_not_active (hi : i < f.next) (hactive : (f.get i).active = false)
    (hlistening : (f.get i).listening = true) {us : List Use} (hkept : .drop i ∉ us) :
    f.received i us ++ ((f.used us).get i).buffer = (f.get i).buffer ∧
      f.errors i us ++ ((f.used us).get i).error.toList = (f.get i).error.toList := by
  induction us generalizing f with
  | nil => exact ⟨rfl, rfl⟩
  | cons u us ih =>
    obtain ⟨hactive', hlistening', hevents, herrors⟩ :=
      used_of_not_active hactive hlistening (List.ne_of_not_mem_cons hkept).symm
    rw [← get_use hi] at hactive' hlistening' hevents herrors
    obtain ⟨ihevents, iherrors⟩ :=
      ih (lt_next_use hi u) hactive' hlistening' (List.not_mem_of_not_mem_cons hkept)
    constructor
    · rw [received, List.append_assoc, ← hevents, ← ihevents]
      rfl
    · rw [errors, List.append_assoc, ← herrors, ← iherrors]
      rfl

/-- A living subscription gives out and keeps what it had and what is sent during the rest of its
life, and what ends it is its one error. -/
theorem account_of_alive {buffer : List PeerEvent} (hi : i < f.next)
    (hs : f.get i = .alive buffer) {us : List Use} (hkept : .drop i ∉ us) :
    f.received i us ++ ((f.used us).get i).buffer =
        buffer ++ sent (lifeFrom i buffer.length us).uses ∧
      f.errors i us ++ ((f.used us).get i).error.toList =
        (lifeFrom i buffer.length us).ending.toList := by
  induction us generalizing f buffer with
  | nil => simp [received, errors, used, lifeFrom, sent, hs, Subscription.alive]
  | cons u us ih =>
    have hi' : i < (f.use u).next := lt_next_use hi u
    have hus : .drop i ∉ us := List.not_mem_of_not_mem_cons hkept
    cases hending : u.ending? buffer.length with
    | some e =>
      obtain ⟨hsub, hhanded, herror⟩ := used_of_ending hs hending
      rw [← get_use hi] at hsub
      obtain ⟨hevents, herrors⟩ :=
        account_of_not_active hi' (by rw [hsub]) (by rw [hsub]) hus
      rw [hsub] at hevents herrors
      simp only [received, errors, lifeFrom, hending, hhanded, herror, List.nil_append]
      exact ⟨hevents.trans (List.append_nil buffer).symm, herrors⟩
    | none =>
      obtain ⟨buffer', hsub, hlength, herror, hevents⟩ :=
        used_of_not_ending hs (List.ne_of_not_mem_cons hkept).symm hending
      rw [← get_use hi] at hsub
      obtain ⟨ihevents, iherrors⟩ := ih hi' hsub hus
      rw [hlength] at ihevents iherrors
      have hsent (us : List Use) : sent (u :: us) = u.sent?.toList ++ sent us := by
        cases hu : u.sent? <;> simp [sent, hu]
      simp only [received, errors, lifeFrom, hending, herror, List.nil_append]
      refine ⟨?_, iherrors⟩
      rw [hsent, ← List.append_assoc, ← hevents, List.append_assoc, List.append_assoc, ← ihevents]
      rfl

/-- The rest of a life that has ended is not changed by what comes behind it. -/
theorem lifeFrom_append {n : Nat} {us : List Use} (h : (lifeFrom i n us).ending.isSome = true)
    (vs : List Use) : lifeFrom i n (us ++ vs) = lifeFrom i n us := by
  induction us generalizing n with
  | nil => simp [lifeFrom] at h
  | cons u us ih =>
    cases hending : u.ending? n with
    | some e => simp [lifeFrom, hending]
    | none =>
      simp only [lifeFrom, hending] at h
      simp only [List.cons_append, lifeFrom, hending, ih h]

/-- Nor is the whole life of a subscription that has ended. -/
theorem life_append {closed : Bool} {us : List Use}
    (h : (life closed i us).ending.isSome = true) (vs : List Use) :
    life closed i (us ++ vs) = life closed i us := by
  cases closed with
  | true => rfl
  | false => exact lifeFrom_append h vs

/-- The next subscription gives out and keeps what is sent during its life, and its error says what
ended it. -/
theorem account_of_subscribe (f : Feed) {us : List Use} (hkept : .drop f.next ∉ us) :
    f.subscribe.received f.next us ++ ((f.subscribe.used us).get f.next).buffer =
        sent (life f.closed f.next us).uses ∧
      f.subscribe.errors f.next us ++ ((f.subscribe.used us).get f.next).error.toList =
        (life f.closed f.next us).ending.toList := by
  have hnext : f.next < f.subscribe.next := by simp [next, subscribe]
  have hget := get_subscribe f
  cases hclosed : f.closed with
  | true =>
    rw [hclosed, if_pos rfl] at hget
    obtain ⟨hevents, herrors⟩ :=
      account_of_not_active hnext (by rw [hget]; rfl) (by rw [hget]; rfl) hkept
    rw [hget] at hevents herrors
    exact ⟨hevents, herrors⟩
  | false =>
    rw [hclosed] at hget
    exact account_of_alive hnext hget hkept

/-! ## Sending and closing -/

/-- The subscriptions of a feed are those that have a number. -/
theorem subscriptions_eq_map_get (f : Feed) :
    f.subscriptions = (List.range f.next).map f.get := by
  refine List.ext_getElem (by simp [next]) fun j hj _ => ?_
  simp [get, List.getD_eq_getElem?_getD, List.getElem?_eq_getElem hj]

/-- A subscription accepts an event exactly if the event is buffered. -/
theorem accepts_iff (s : Subscription) (e : PeerEvent) :
    s.accepts = true ↔ (s.offered e).buffer = s.buffer ++ [e] := by
  unfold Subscription.offered
  cases s.accepts with
  | true => simp
  | false =>
    have hne : s.buffer ≠ s.buffer ++ [e] := fun h => by simpa using congrArg List.length h
    cases s.listening <;> cases hactive : s.active <;> simp [Subscription.ended, hactive]

/-- What a send reports is the number of subscriptions that buffered the event. -/
theorem audience_eq_countP (f : Feed) (e : PeerEvent) :
    f.audience = (List.range f.next).countP fun j =>
      decide (((f.send e).get j).buffer = (f.get j).buffer ++ [e]) := by
  rw [audience, subscriptions_eq_map_get, List.countP_map]
  refine List.countP_congr fun j _ => ?_
  have hget : (f.send e).get j = (f.get j).offered e := get_act f (.send e) j
  rw [hget, decide_eq_true_iff, ← accepts_iff]
  rfl

/-- A closed feed sends to nobody. -/
def Quiet (f : Feed) : Prop := f.closed = true → ∀ j < f.next, (f.get j).active = false

/-- What is not sent to is not sent to after a use either. -/
theorem active_used {s : Subscription} (h : s.active = false) (u : Use) :
    (s.used i u).active = false := by
  cases u with
  | act a =>
    cases a <;> cases hlistening : s.listening <;>
      simp [Subscription.used, Subscription.acted, Subscription.offered, Subscription.accepts,
        Subscription.ended, h, hlistening]
  | subscribe => exact h
  | count => cases hlistening : s.listening <;> simp [Subscription.used, h, hlistening]
  | receive j | takeError j | drop j => by_cases hj : j = i <;> simp [Subscription.used, h, hj]

/-- A feed is closed after a use that closes it, and stays closed unless it is opened again. -/
theorem closed_use_iff (f : Feed) (u : Use) :
    (f.use u).closed = true ↔ u = .act .close ∨ u ≠ .act .reopen ∧ f.closed = true := by
  cases u with
  | act a => cases a <;> simp [use, act, send, failAll, close, reopen]
  | receive j =>
    cases hbuffer : (f.get j).buffer with
    | nil => simp [use, receive?_of_nil hbuffer]
    | cons e rest => simp [use, receive?_of_cons hbuffer, update]
  | subscribe | count | takeError | drop =>
    simp [use, subscribe, prune, takeError, unsubscribe, update]

/-- A close is among some uses, and nothing behind it opens the feed again. -/
def EndsClosed (us : List Use) : Prop :=
  ∃ earlier later, us = earlier ++ .act .close :: later ∧ .act .reopen ∉ later

theorem endsClosed_cons {u : Use} {us : List Use} :
    EndsClosed (u :: us) ↔ u = .act .close ∧ .act .reopen ∉ us ∨ EndsClosed us := by
  constructor
  · rintro ⟨_ | ⟨v, earlier⟩, later, heq, hlater⟩
    · obtain ⟨rfl, rfl⟩ := List.cons.inj heq
      exact .inl ⟨rfl, hlater⟩
    · exact .inr ⟨earlier, later, (List.cons.inj heq).2, hlater⟩
  · rintro (⟨rfl, hus⟩ | ⟨earlier, later, rfl, hlater⟩)
    · exact ⟨[], us, rfl, hus⟩
    · exact ⟨u :: earlier, later, rfl, hlater⟩

/-- A feed is closed after some uses exactly if the last of them that closed or opened it closed it,
or if it was closed before and they did not open it. -/
theorem closed_used_iff (f : Feed) (us : List Use) :
    (f.used us).closed = true ↔ EndsClosed us ∨ .act .reopen ∉ us ∧ f.closed = true := by
  induction us generalizing f with
  | nil => simp [used, EndsClosed]
  | cons u us ih =>
    have hstep : (f.used (u :: us)).closed = ((f.use u).used us).closed := rfl
    rw [hstep, ih, endsClosed_cons, closed_use_iff, List.mem_cons, not_or]
    grind

/-- Uses keep a closed feed quiet. -/
theorem Quiet.use (hf : f.Quiet) (u : Use) : (f.use u).Quiet := by
  intro hclosed j hj
  rw [next_use] at hj
  rcases (f.closed_use_iff u).mp hclosed with rfl | ⟨-, hclosed'⟩
  · have hget : (f.use (.act .close)).get j = (f.get j).ended .closed := get_act f .close j
    rw [hget]
    unfold Subscription.ended
    cases hactive : (f.get j).active <;> simp [hactive]
  · by_cases hlt : j < f.next
    · rw [get_use hlt]
      exact active_used (hf hclosed' j hlt) u
    · split at hj
      · next hu =>
        obtain rfl : j = f.next := by omega
        subst hu
        have hget : (f.use .subscribe).get f.next = .refused := by
          rw [Feed.use, get_subscribe, hclosed', if_pos rfl]
        rw [hget]
        rfl
      · contradiction

/-- A feed that was used from the beginning is quiet when it is closed. -/
theorem quiet_used (us : List Use) : (empty.used us).Quiet := by
  suffices h : ∀ f : Feed, f.Quiet → (f.used us).Quiet from h _ nofun
  induction us with
  | nil => exact fun f hf => hf
  | cons u us ih => exact fun f hf => ih _ (hf.use u)

/-- However a feed is used, the owner of a subscription who keeps it receives, and finds buffered,
exactly the events sent during its life, in order, and has exactly the error that ended it, if
anything did; what is done after the end adds nothing. At any time a send reports how many
subscriptions buffered the event, and a closed feed sends to nobody; the feed is closed exactly if the
last of its uses that closed or opened it closed it. -/
theorem received_append_buffer_eq_sent (before : List Use) :
    let f := empty.used before
    (∀ after : List Use, .drop f.next ∉ after →
      let g := f.subscribe.used after
      let lived := life f.closed f.next after
      f.subscribe.received f.next after ++ (g.get f.next).buffer = sent lived.uses ∧
        f.subscribe.errors f.next after ++ (g.get f.next).error.toList = lived.ending.toList ∧
        (lived.ending.isSome = true → ∀ more : List Use, .drop f.next ∉ more →
          f.subscribe.received f.next (after ++ more) ++ ((g.used more).get f.next).buffer =
              sent lived.uses ∧
            f.subscribe.errors f.next (after ++ more) ++
                ((g.used more).get f.next).error.toList =
              lived.ending.toList)) ∧
      (∀ e, f.audience = (List.range f.next).countP fun j =>
        decide (((f.send e).get j).buffer = (f.get j).buffer ++ [e])) ∧
      (f.closed = true → f.count = 0 ∧ ∀ s ∈ f.subscriptions, s.active = false) ∧
      (f.closed = true ↔ EndsClosed before) := by
  intro f
  refine ⟨fun after hkept => ?_, audience_eq_countP f, fun hclosed => ?_, ?_⟩
  · intro g lived
    obtain ⟨hevents, herrors⟩ := account_of_subscribe f hkept
    refine ⟨hevents, herrors, fun hended more hmore => ?_⟩
    have hkept' : .drop f.next ∉ after ++ more := fun hdrop =>
      (List.mem_append.mp hdrop).elim hkept hmore
    have hg : g.used more = f.subscribe.used (after ++ more) := by
      simp only [g, used, List.foldl_append]
    have haccount := account_of_subscribe f hkept'
    rwa [life_append hended, ← hg] at haccount
  · have hactive : ∀ s ∈ f.subscriptions, s.active = false := by
      rw [subscriptions_eq_map_get]
      simpa using quiet_used before hclosed
    refine ⟨List.countP_eq_zero.mpr fun s hs => ?_, hactive⟩
    simp [hactive s hs]
  · rw [closed_used_iff]
    simp [empty]

/-- An event about a peer on the local host. -/
def someEvent : PeerEvent := ⟨.added, ⟨.replicate 64 1, .v4 .loopback, 30303, 30303⟩⟩

/-- One send more than a subscription buffers, and sends behind the end of the feed. -/
def crowdedUses : List Use :=
  .act (.send someEvent) :: .receive 1 :: List.replicate 65 (.act (.send someEvent)) ++
    [.act .close, .act .reopen, .act (.send someEvent), .receive 1]

/-- The second subscription is offered too much at once and the feed is closed and opened again
afterwards: what it got before is all it gets. -/
theorem received_append_buffer_eq_sent_crowded :
    .drop (empty.used [.subscribe]).next ∉ crowdedUses ∧
      (empty.used [.subscribe]).subscribe.received 1 crowdedUses ++
          (((empty.used [.subscribe]).subscribe.used crowdedUses).get 1).buffer =
        List.replicate 65 someEvent ∧
      (empty.used [.subscribe]).subscribe.errors 1 crowdedUses ++
          (((empty.used [.subscribe]).subscribe.used crowdedUses).get 1).error.toList =
        [.overflow] := by
  have hkept : .drop (empty.used [.subscribe]).next ∉ crowdedUses := by decide
  obtain ⟨hevents, herrors, -⟩ := (received_append_buffer_eq_sent [.subscribe]).1 crowdedUses hkept
  exact ⟨hkept, hevents.trans (by decide +kernel), herrors.trans (by decide +kernel)⟩

end Feed

end PeerProbe
