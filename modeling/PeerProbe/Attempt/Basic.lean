import PeerProbe.Eth.Reading
import PeerProbe.Transport
import PeerProbe.Watch

/-!
# Attempts to connect

One attempt subscribes to the feed, watches it, dials, runs the status exchange if there is one,
reports, and then observes the traffic, keeps the peer or removes it. These are its settings, its
report and the record of a running attempt; the steps are in `PeerProbe.Attempt.Step`.
-/

namespace PeerProbe

/-- How attempts are made. Without exchange settings there is no status exchange; times are in
milliseconds. -/
structure AttemptConfig where
  exchange : Option Eth.ExchangeConfig
  status : Eth.Status
  observe : Nat
  disconnect : Bool
  deriving DecidableEq

namespace AttemptConfig

/-- The size limit for messages after the exchange. -/
def maxMessage (c : AttemptConfig) : UInt32 :=
  (c.exchange.map (·.maxMessage)).getD Eth.defaultMaxMessage

/-- The reader for traffic after the exchange. -/
def reading (c : AttemptConfig) : Eth.Reading :=
  if c.exchange.isSome then .afterExchange c.maxMessage else .fresh c.maxMessage

/-- Whether traffic is wanted after a successful attempt. -/
def observes (c : AttemptConfig) : Bool := c.observe != 0

end AttemptConfig

/-- What an attempt is busy with, as others see it. -/
inductive AttemptState where
  | idle
  | dialing
  | watching
  | handshaking
  | observing
  deriving DecidableEq, Repr

/-- The name of a state. -/
def AttemptState.name : AttemptState → String
  | .idle => "idle"
  | .dialing => "dialing"
  | .watching => "watching"
  | .handshaking => "handshaking"
  | .observing => "observing"

/-- Everything one attempt learned. -/
structure AttemptReport where
  peer : PeerRef
  outcome : Outcome
  remoteStatus : Option Eth.Status
  mismatches : List Eth.MessageError
  deriving DecidableEq

namespace AttemptReport

/-- The report of a failure. -/
def failed (peer : PeerRef) (reason : FailureReason) : AttemptReport :=
  ⟨peer, .failed reason, none, []⟩

/-- The report of a connection without a status exchange. -/
def connected (peer : PeerRef) : AttemptReport := ⟨peer, .connected peer, none, []⟩

/-- The report on an exchange with a connected peer. -/
def ofExchange (peer : PeerRef) : Except Eth.ExchangeError Eth.ExchangeReport → AttemptReport
  | .ok r => ⟨peer, .connected peer, some r.remote, r.mismatches⟩
  | .error e => failed peer (.exchange e)

end AttemptReport

/-- How far an attempt has come. A connection that the attempt owns is named until it is handed on
or let go. -/
inductive AttemptPhase where
  | spawned
  | dialing
  | dialed
  | watching
  | taking (peer : PeerRef)
  | exchanging (peer : PeerRef) (conn : ConnId) (legs : Eth.Legs) (deadline : Nat)
      (taken : List UInt8)
  | reporting (report : AttemptReport) (conn : Option ConnId)
  | keeping (conn : Option ConnId)
  | handingOver (conn : ConnId)
  | resuming (conn : Option ConnId)
  | observing (conn : ConnId) (reading : Eth.Reading) (deadline seen : Nat) (taken : List UInt8)
  | hangingUp (conn : ConnId)
  | removing (conn : Option ConnId)
  | idling (conn : Option ConnId)
  | closing (conn : Option ConnId)
  | releasing
  | finished
  deriving DecidableEq

/-- What an attempt has asked of the transport and shown to others. -/
inductive AttemptAct where
  | subscribe
  | publish (state : AttemptState)
  | dial
  | take
  | report
  | remove
  deriving DecidableEq, Repr

/-- An attempt: the slot it holds, its peer and watcher, whether it was cancelled, what others see
of it, and everything it has done, in order. -/
structure Attempt where
  slot : Nat
  peer : PeerRef
  watcher : Watcher
  cancelled : Bool
  state : AttemptState
  report : Option AttemptReport
  reportClosed : Bool
  phase : AttemptPhase
  history : List AttemptAct

namespace Attempt

/-- An accepted attempt whose task has not run yet; it has subscribed already. -/
def create (slot : Nat) (peer : PeerRef) (timeout subscription : Nat) : Attempt :=
  { slot, peer, watcher := .create peer subscription timeout, cancelled := false
    state := .dialing, report := none, reportClosed := false, phase := .spawned
    history := [.subscribe, .publish .dialing] }

/-- Whether the task has ended. -/
def isFinished (a : Attempt) : Bool := a.phase = .finished

/-- Add to the history. -/
def noted (a : Attempt) (act : AttemptAct) : Attempt := { a with history := a.history ++ [act] }

/-- Show a state to others. -/
def published (a : Attempt) (s : AttemptState) : Attempt :=
  { a.noted (.publish s) with state := s }

/-- Go on to a phase. -/
def goto (a : Attempt) (p : AttemptPhase) : Attempt := { a with phase := p }

/-- What a caller who waits for the report gets, once it is there or can never come. -/
def answer? (a : Attempt) : Option (Option AttemptReport) :=
  match a.report with
  | some r => some (some r)
  | none => if a.reportClosed then some none else none

/-- Ask the attempt to stop. -/
def cancel (a : Attempt) : Attempt := { a with cancelled := true }

end Attempt

end PeerProbe
