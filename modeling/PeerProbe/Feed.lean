import PeerProbe.PeerRef

/-!
# The feed of peer events

A transport tells any number of subscriptions which peers came and went. A subscription buffers a
bounded number of events; the send that finds its buffer full ends it without delivering the
event. Whatever ends a subscription leaves one error with it, and the events buffered before stay
readable.

Subscriptions are known by the order in which they were made, and none is ever revived.
-/

namespace PeerProbe

/-- Whether a peer came or went. -/
inductive PeerChange where
  | added
  | dropped
  deriving DecidableEq, Repr

/-- The name of a change. -/
def PeerChange.name : PeerChange → String
  | .added => "add"
  | .dropped => "drop"

/-- A peer that came or went. -/
structure PeerEvent where
  change : PeerChange
  peer : PeerRef
  deriving DecidableEq

/-- An event in log lines. -/
def PeerEvent.text (e : PeerEvent) : String := e.change.name ++ " " ++ e.peer.text

/-- Why a subscription ended. -/
inductive SubscriptionError where
  | overflow
  | closed
  | transport (reason : String)
  deriving DecidableEq, Repr

/-- The wording of an end. -/
def SubscriptionError.message : SubscriptionError → String
  | .overflow => "subscriber fell behind the event feed"
  | .closed => "event feed closed"
  | .transport reason => "transport failure: " ++ reason

/-- The most events a subscription buffers. -/
def feedBuffer : Nat := 64

/-- One subscription: the events nobody has taken yet, whether the feed still sends to it, the
error that ended it until somebody takes it, and whether its owner still listens. -/
structure Subscription where
  buffer : List PeerEvent
  active : Bool
  error : Option SubscriptionError
  listening : Bool
  deriving DecidableEq

namespace Subscription

/-- A subscription to an open feed. -/
def fresh : Subscription := ⟨[], true, none, true⟩

/-- A subscription to a closed feed. -/
def refused : Subscription := ⟨[], false, some .closed, true⟩

/-- The subscription after the feed ended it. -/
def ended (s : Subscription) (e : SubscriptionError) : Subscription :=
  if s.active then { s with active := false, error := some e } else s

/-- Whether a send reaches the subscription. -/
def accepts (s : Subscription) : Bool :=
  s.active && s.listening && decide (s.buffer.length < feedBuffer)

/-- The subscription after a send. A full buffer ends it; one that nobody listens to is
forgotten. -/
def offered (s : Subscription) (e : PeerEvent) : Subscription :=
  if s.accepts then { s with buffer := s.buffer ++ [e] }
  else if s.listening then s.ended .overflow
  else { s with active := false }

end Subscription

/-- A feed with all subscriptions ever made. -/
structure Feed where
  subscriptions : List Subscription
  closed : Bool
  deriving DecidableEq

namespace Feed

/-- An open feed without subscriptions. -/
def empty : Feed := ⟨[], false⟩

/-- The number the next subscription gets. -/
def next (f : Feed) : Nat := f.subscriptions.length

/-- Subscribe; the number of the new subscription is `Feed.next`. -/
def subscribe (f : Feed) : Feed :=
  { f with subscriptions := f.subscriptions ++ [if f.closed then .refused else .fresh] }

/-- How many subscriptions a send reaches. -/
def audience (f : Feed) : Nat := f.subscriptions.countP Subscription.accepts

/-- Deliver an event to every subscription. -/
def send (f : Feed) (e : PeerEvent) : Feed :=
  { f with subscriptions := f.subscriptions.map (·.offered e) }

/-- End every subscription. -/
def failAll (f : Feed) (e : SubscriptionError) : Feed :=
  { f with subscriptions := f.subscriptions.map (·.ended e) }

/-- End every subscription and refuse new ones. -/
def close (f : Feed) : Feed := { f.failAll .closed with closed := true }

/-- Take subscriptions again. -/
def reopen (f : Feed) : Feed := { f with closed := false }

/-- How many subscriptions are sent to and listened to. -/
def count (f : Feed) : Nat := f.subscriptions.countP fun s => s.active && s.listening

/-- Forget the subscriptions that nobody listens to any more, as a count does. -/
def prune (f : Feed) : Feed :=
  { f with
    subscriptions := f.subscriptions.map fun s =>
      if s.listening then s else { s with active := false } }

/-- One of the subscriptions. A number nobody has counts as one that ended silently. -/
def get (f : Feed) (i : Nat) : Subscription := f.subscriptions.getD i ⟨[], false, none, false⟩

/-- Change one of the subscriptions. -/
def update (f : Feed) (i : Nat) (g : Subscription → Subscription) : Feed :=
  { f with subscriptions := f.subscriptions.modify i g }

/-- Take the next event of a subscription. -/
def receive? (f : Feed) (i : Nat) : Option (PeerEvent × Feed) :=
  match (f.get i).buffer with
  | [] => none
  | e :: rest => some (e, f.update i fun s => { s with buffer := rest })

/-- Whether nothing can ever come again from a subscription with an empty buffer. -/
def isOver (f : Feed) (i : Nat) : Bool := !(f.get i).active

/-- Take the error of a subscription. -/
def takeError (f : Feed) (i : Nat) : Option SubscriptionError × Feed :=
  ((f.get i).error, f.update i fun s => { s with error := none })

/-- Stop listening. -/
def unsubscribe (f : Feed) (i : Nat) : Feed :=
  f.update i fun s => { s with listening := false, buffer := [] }

/-- Something that happens to a feed. -/
inductive Act where
  | send (e : PeerEvent)
  | fail (e : SubscriptionError)
  | close
  | reopen
  deriving DecidableEq

/-- The feed after something happened to it. -/
def act (f : Feed) : Act → Feed
  | .send e => f.send e
  | .fail e => f.failAll e
  | .close => f.close
  | .reopen => f.reopen

end Feed

end PeerProbe
