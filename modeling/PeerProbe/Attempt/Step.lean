import PeerProbe.Attempt.Basic
import PeerProbe.Attempt.Held

/-!
# The steps of an attempt

Every step touches shared state at most once: it asks the transport for one thing, publishes a
state, sends the report or lets go of a connection. The watcher is a task of its own; the attempt
waits until it is done.

Cancellation is looked at in three places only: by the watcher, at every turn of the exchange, and
while observing. Every path that does not keep the peer ends with its removal, and the slot is
released after everything else.
-/

namespace PeerProbe

namespace Attempt

variable {σ : Type} [Transport σ]

/-- What a step changes; a peer to be held is the last component. -/
abbrev Stepped (σ : Type) := Attempt × σ × List Log.Entry × Option HeldPeer

/-- A log entry about this attempt. -/
def entry (a : Attempt) (action : String) (detail : Option String) : Log.Entry :=
  .network "orchestrator" .info action (some a.peer.shortId) detail

/-- A cancelled attempt still removes its peer; the connection it may own is let go after that. -/
def abandon (a : Attempt) (conn : Option ConnId) (t : σ) : Stepped σ :=
  (a.goto (.removing conn), t, [a.entry "cancelled" none], none)

/-- Go on after the watcher's outcome. -/
def onOutcome (cfg : AttemptConfig) (a : Attempt) (t : σ) : Option Outcome → Stepped σ
  | none => a.abandon none t
  | some (.failed reason) => (a.goto (.reporting (.failed a.peer reason) none), t, [], none)
  | some (.connected peer) =>
    match cfg.exchange with
    | none => (a.goto (.reporting (.connected peer) none), t, [], none)
    | some _ => ((a.published .handshaking).goto (.taking peer), t, [], none)

/-- Take the connection that the exchange runs on. -/
def takeForExchange (ex : Eth.ExchangeConfig) (a : Attempt) (peer : PeerRef) (now : Nat) (t : σ) :
    Stepped σ :=
  let a := a.noted .take
  match Transport.take peer t with
  | (some conn, t) =>
    (a.goto (.exchanging peer conn .start (now + ex.timeout.millis) []), t, [], none)
  | (none, t) =>
    let report := AttemptReport.failed peer (.exchange (.transport .disconnected))
    (a.goto (.reporting report none), t, [], none)

/-- The legs and the transport after the send leg had its turn; the flag tells whether it moved. -/
def sendLeg (cfg : AttemptConfig) (conn : ConnId) (now : Nat) (legs : Eth.Legs) (t : σ) :
    Except Eth.ExchangeError (Eth.Legs × Bool) × σ :=
  if legs.sent then (.ok (legs, false), t)
  else match Transport.send now conn Eth.Code.status (Eth.rlpBytes cfg.status) t with
    | some (r, t) => ((legs.onSent r).map (·, true), t)
    | none => (.ok (legs, false), t)

/-- What the receive leg comes to: an error, or the legs, the bytes taken so far and whether
anything moved. -/
def receiveLeg (max : UInt32) (conn : ConnId) (now : Nat) (legs : Eth.Legs) (taken : List UInt8)
    (t : σ) : Except Eth.ExchangeError (Eth.Legs × List UInt8 × Bool) × σ :=
  if legs.received.isSome then (.ok (legs, taken, false), t)
  else match Transport.read now conn taken t with
    | .ready item t => ((legs.onItem max item).map (·, [], true), t)
    | .ahead taken t => (.ok (legs, taken, true), t)
    | .waiting => (.ok (legs, taken, false), t)

/-- The end of an exchange. -/
def concluded (cfg : AttemptConfig) (ex : Eth.ExchangeConfig) (a : Attempt) (peer : PeerRef)
    (conn : ConnId) (outcome : Except Eth.ExchangeError Eth.Status) (t : σ) : Stepped σ :=
  let name := (Transport.remote conn t).shortId
  let (result, entries) := Eth.concludeExchange name ex cfg.status outcome
  (a.goto (.reporting (.ofExchange peer result) (some conn)), t, entries, none)

/-- One turn of a running exchange: both legs, then the timer. -/
def exchangeTurn? (cfg : AttemptConfig) (ex : Eth.ExchangeConfig) (a : Attempt) (peer : PeerRef)
    (conn : ConnId) (legs : Eth.Legs) (deadline : Nat) (taken : List UInt8) (now : Nat) (t : σ) :
    Option (Stepped σ) :=
  match sendLeg cfg conn now legs t with
  | (.error e, t) => some (a.concluded cfg ex peer conn (.error e) t)
  | (.ok (legs, sent), t) =>
    match receiveLeg ex.maxMessage conn now legs taken t with
    | (.error e, t) => some (a.concluded cfg ex peer conn (.error e) t)
    | (.ok (legs, taken, received), t) =>
      match legs.finished? with
      | some s => some (a.concluded cfg ex peer conn (.ok s) t)
      | none =>
        if deadline ≤ now then some (a.concluded cfg ex peer conn (.error (.timeout ex.timeout)) t)
        else if sent || received then
          some (a.goto (.exchanging peer conn legs deadline taken), t, [], none)
        else none

/-- Send the report and choose what comes next. -/
def sendReport (cfg : AttemptConfig) (a : Attempt) (report : AttemptReport)
    (conn : Option ConnId) (t : σ) : Stepped σ :=
  let next : AttemptPhase :=
    if report.outcome.isConnected && !cfg.disconnect then .keeping conn
    else if report.outcome.isConnected && cfg.observes then .resuming conn
    else .removing conn
  ({ a.noted .report with report := some report, phase := next }, t,
    [a.entry "attempt_outcome" (some report.outcome.text)], none)

/-- The connection an attempt already owns, or else the one the transport has. -/
def ownOrTake (a : Attempt) (conn : Option ConnId) (t : σ) : Attempt × Option ConnId × σ :=
  match conn with
  | some c => (a, some c, t)
  | none => let (c, t) := Transport.take a.peer t; (a.noted .take, c, t)

/-- Leave the peer connected. Its connection is wanted if the attempt has it or traffic is. -/
def keep (cfg : AttemptConfig) (a : Attempt) (conn : Option ConnId) (t : σ) : Stepped σ :=
  let (a, conn, t) := if conn.isSome || cfg.observes then a.ownOrTake conn t else (a, none, t)
  match conn with
  | some c => (a.goto (.handingOver c), t, [a.entry "peer_kept" (some "held")], none)
  | none => (a.goto (.idling none), t, [a.entry "peer_kept" (some "with transport")], none)

/-- Hand the connection over to a task that holds it. -/
def handOver (cfg : AttemptConfig) (a : Attempt) (conn : ConnId) (t : σ) : Stepped σ :=
  let (i, t) := Transport.subscribe t
  (a.goto (.idling none), t, [], some (.create conn (Transport.remote conn t) i cfg.reading))

/-- Begin to observe, if there is a connection. -/
def resume (cfg : AttemptConfig) (a : Attempt) (conn : Option ConnId) (now : Nat) (t : σ) :
    Stepped σ :=
  match a.ownOrTake conn t with
  | (a, some c, t) =>
    ((a.published .observing).goto (.observing c cfg.reading (now + cfg.observe) 0 []), t, [], none)
  | (a, none, t) => (a.goto (.removing none), t, [], none)

/-- The end of observing. -/
def observed (a : Attempt) (conn : ConnId) (seen : Nat) (before : List Log.Entry) (t : σ) :
    Stepped σ :=
  (a.goto (.hangingUp conn), t,
    before ++ [a.entry "observe_done" (some ("messages=" ++ toString seen))], none)

/-- One turn of observing: cancellation, the timer, then the connection. -/
def observeTurn? (a : Attempt) (conn : ConnId) (reading : Eth.Reading) (deadline seen : Nat)
    (taken : List UInt8) (now : Nat) (t : σ) : Option (Stepped σ) :=
  if a.cancelled || decide (deadline ≤ now) then some (a.observed conn seen [] t)
  else match Transport.read now conn taken t with
    | .waiting => none
    | .ahead taken t => some (a.goto (.observing conn reading deadline seen taken), t, [], none)
    | .ready item t =>
      let entries := reading.entries (Transport.remote conn t).shortId item
      let (report, reading) := reading.next item
      match report with
      | .ok _ =>
        some (a.goto (.observing conn reading deadline (seen + 1) []), t, entries, none)
      | .error (.decode _) =>
        some (a.goto (.observing conn reading deadline seen []), t, entries, none)
      | .error (.transport e) =>
        some (a.observed conn seen [a.entry "observe_ended" (some e.message)] t)

/-- Let go of a connection, if there is one. -/
def releaseConn (conn : Option ConnId) (t : σ) : σ :=
  match conn with
  | some c => Transport.release c t
  | none => t

/-- One step of an attempt, unless it has to wait or is finished. -/
def step? (cfg : AttemptConfig) (a : Attempt) (now : Nat) (t : σ) : Option (Stepped σ) :=
  match a.phase with
  | .spawned => some (a.goto .dialing, t, [a.entry "dial" (some a.peer.text)], none)
  | .dialing => some ((a.noted .dial).goto .dialed, Transport.dial now a.peer t, [], none)
  | .dialed => some ((a.published .watching).goto .watching, t, [], none)
  | .watching => a.watcher.result?.map (a.onOutcome cfg t)
  | .taking peer => cfg.exchange.map fun ex => a.takeForExchange ex peer now t
  | .exchanging peer conn legs deadline taken =>
    if a.cancelled then some (a.abandon (some conn) t)
    else cfg.exchange.bind fun ex => a.exchangeTurn? cfg ex peer conn legs deadline taken now t
  | .reporting report conn => some (a.sendReport cfg report conn t)
  | .keeping conn => some (a.keep cfg conn t)
  | .handingOver conn => some (a.handOver cfg conn t)
  | .resuming conn => some (a.resume cfg conn now t)
  | .observing conn reading deadline seen taken =>
    a.observeTurn? conn reading deadline seen taken now t
  | .hangingUp conn => some (a.goto (.removing none), Transport.release conn t, [], none)
  | .removing conn =>
    some ((a.noted .remove).goto (.idling conn), Transport.remove a.peer t, [], none)
  | .idling conn => some ((a.published .idle).goto (.closing conn), t, [], none)
  | .closing conn =>
    some ({ a with reportClosed := true, phase := .releasing }, releaseConn conn t, [], none)
  | .releasing => some (a.goto .finished, t, [], none)
  | .finished => none

/-- One step of the watcher, which is spawned by the attempt's first step. -/
def watcherStep? (a : Attempt) (now : Nat) (t : σ) : Option (Attempt × σ × List Log.Entry) :=
  if a.phase = .spawned then none
  else (a.watcher.step? now a.cancelled (Transport.feed t)).map fun (watcher, feed, entries) =>
    ({ a with watcher }, Transport.withFeed feed t, entries)

/-- The times the attempt's task waits for. -/
def dues (a : Attempt) (t : σ) : List Nat :=
  match a.phase with
  | .exchanging _ conn legs deadline _ =>
    deadline :: ((if legs.sent then [] else Transport.sendDues conn t) ++
      (if legs.received.isSome then [] else Transport.readDues conn t))
  | .observing conn _ deadline _ _ => deadline :: Transport.readDues conn t
  | _ => []

/-- How often the attempt's task has begun to wait for a connection: for the exchange, and again to
observe. -/
def waits (a : Attempt) : Nat :=
  match a.phase with
  | .observing .. => 1
  | _ => 0

end Attempt

end PeerProbe
