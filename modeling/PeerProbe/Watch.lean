import PeerProbe.Eth.Exchange
import PeerProbe.Feed

/-!
# Watching for one peer

A watcher reduces a subscription, its error, a timer and a cancellation to one outcome for one
peer. At every turn it looks at them in that order of urgency: cancellation first, then the
buffered events, then the end of the subscription, then the timer. Only a cancelled watcher has
no outcome.
-/

namespace PeerProbe

/-- Why no connection came about. -/
inductive FailureReason where
  | dropped
  | subscription (e : SubscriptionError)
  | timedOut
  | exchange (e : Eth.ExchangeError)
  deriving DecidableEq

/-- The wording of a failure. -/
def FailureReason.message : FailureReason → String
  | .dropped => "peer dropped"
  | .subscription e => "subscription error: " ++ e.message
  | .timedOut => "timed out"
  | .exchange e => "handshake failed: " ++ e.message

/-- What became of an attempt to connect to a peer. -/
inductive Outcome where
  | connected (peer : PeerRef)
  | failed (reason : FailureReason)
  deriving DecidableEq

namespace Outcome

/-- Whether there is a connection. -/
def isConnected : Outcome → Bool
  | .connected _ => true
  | .failed _ => false

/-- Why there is none. -/
def failure? : Outcome → Option FailureReason
  | .connected _ => none
  | .failed reason => some reason

/-- An outcome in log lines. -/
def text : Outcome → String
  | .connected peer => "connected to " ++ peer.text
  | .failed reason => "failed: " ++ reason.message

/-- The outcome that an event about the watched peer means. -/
def ofEvent (e : PeerEvent) : Outcome :=
  match e.change with
  | .added => .connected e.peer
  | .dropped => .failed .dropped

/-- How much an outcome matters in the log. -/
def level : Outcome → Log.Level
  | .failed (.subscription _) => .error
  | _ => .info

end Outcome

/-- How far a watcher has come. A decided watcher has yet to let go of its subscription and to
hand over its outcome. -/
inductive WatcherPhase where
  | created
  | waiting (deadline : Nat)
  | decided (outcome : Option Outcome)
  | done (outcome : Option Outcome)
  deriving DecidableEq

/-- A watcher on a task of its own. Times are in milliseconds. -/
structure Watcher where
  target : PeerRef
  subscription : Nat
  timeout : Nat
  phase : WatcherPhase
  deriving DecidableEq

namespace Watcher

/-- A watcher that has not run yet. -/
def create (target : PeerRef) (subscription timeout : Nat) : Watcher :=
  ⟨target, subscription, timeout, .created⟩

/-- The log entry about an outcome. -/
def outcomeEntry (w : Watcher) (o : Outcome) : Log.Entry :=
  .network "watcher" o.level "outcome" (some w.target.shortId) (some o.text)

/-- The log entry about a cancellation. -/
def cancelEntry (w : Watcher) : Log.Entry :=
  .network "watcher" .debug "cancelled" (some w.target.shortId) none

/-- The log entry about an event of another peer. -/
def unrelatedEntry (e : PeerEvent) : Log.Entry :=
  .network "watcher" .debug "unrelated_event" (some e.peer.shortId) (some e.text)

/-- The watcher with its outcome. -/
def concluded (w : Watcher) (o : Option Outcome) : Watcher := { w with phase := .decided o }

/-- What one turn of a waiting watcher comes to: the watcher, the feed and what is logged. -/
def turn? (w : Watcher) (deadline now : Nat) (cancelled : Bool) (feed : Feed) :
    Option (Watcher × Feed × List Log.Entry) :=
  if cancelled then some (w.concluded none, feed, [w.cancelEntry])
  else match feed.receive? w.subscription with
    | some (e, feed) =>
      if e.peer.samePeer w.target then
        some (w.concluded (some (.ofEvent e)), feed, [w.outcomeEntry (.ofEvent e)])
      else some (w, feed, [unrelatedEntry e])
    | none =>
      if feed.isOver w.subscription then
        let (e, feed) := feed.takeError w.subscription
        let o := Outcome.failed (.subscription (e.getD .closed))
        some (w.concluded (some o), feed, [w.outcomeEntry o])
      else if deadline ≤ now then
        let o := Outcome.failed .timedOut
        some (w.concluded (some o), feed, [w.outcomeEntry o])
      else none

/-- One step of a watcher, unless it has to wait or is done. -/
def step? (w : Watcher) (now : Nat) (cancelled : Bool) (feed : Feed) :
    Option (Watcher × Feed × List Log.Entry) :=
  match w.phase with
  | .created => some ({ w with phase := .waiting (now + w.timeout) }, feed, [])
  | .waiting deadline => w.turn? deadline now cancelled feed
  | .decided o => some ({ w with phase := .done o }, feed.unsubscribe w.subscription, [])
  | .done _ => none

/-- The time at which the timer of a waiting watcher fires. -/
def dues (w : Watcher) : List Nat :=
  match w.phase with
  | .waiting deadline => [deadline]
  | _ => []

/-- What the watcher reports once it is done: nothing if it was cancelled. -/
def result? (w : Watcher) : Option (Option Outcome) :=
  match w.phase with
  | .done o => some o
  | _ => none

end Watcher

end PeerProbe
