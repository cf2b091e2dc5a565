import PeerProbe.Eth.Exchange
import PeerProbe.PeerRef

/-!
# Scripted connections

A connection whose remote end follows a script. Each read waits until the clock has reached the
time of the next entry, counted from the start of the connection, and yields that entry; behind
the last one nothing ever comes. A send waits for its own time and then fails with a given error
or is recorded. Time is in milliseconds.
-/

namespace PeerProbe

/-- One thing the remote does, and when. -/
structure ScriptEntry where
  due : Nat
  item : Except TransportError Frame

/-- A scripted connection between two polls. -/
structure Script where
  peer : PeerRef
  started : Nat
  entries : List ScriptEntry
  sendError : Option TransportError
  sendAt : Nat
  sent : List Frame

namespace Script

/-- The next item, if its time has come. -/
def read? (s : Script) (now : Nat) : Option (Except TransportError Frame × Script) :=
  match s.entries with
  | [] => none
  | e :: rest => if s.started + e.due ≤ now then some (e.item, { s with entries := rest }) else none

/-- Hand over a frame, if sends go through by now. -/
def send? (s : Script) (now : Nat) (f : Frame) : Option (Except TransportError Unit × Script) :=
  if s.started + s.sendAt ≤ now then
    match s.sendError with
    | some e => some (.error e, s)
    | none => some (.ok (), { s with sent := s.sent ++ [f] })
  else none

/-- When the next item is due. -/
def readDue (s : Script) : List Nat :=
  match s.entries with
  | [] => []
  | e :: _ => [s.started + e.due]

/-- When sends go through. -/
def sendDue (s : Script) : Nat := s.started + s.sendAt

end Script

/-! ## A status exchange over a script

The clock is virtual: when neither leg can move it jumps to the next time at which something is
due. -/

namespace Eth

/-- A status exchange over a scripted connection at one moment. -/
structure ScriptedExchange where
  script : Script
  legs : Legs
  now : Nat

namespace ScriptedExchange

/-- One move of a leg that can move; the send leg goes first. -/
def move? (x : ScriptedExchange) (mine : Status) (max : UInt32) :
    Option (Except ExchangeError Legs × Script) :=
  let sending := if x.legs.sent then none
    else x.script.send? x.now (Frame.ofPayload Code.status (rlpBytes mine))
  match sending with
  | some (r, script) => some (x.legs.onSent r, script)
  | none =>
    if x.legs.received.isSome then none
    else (x.script.read? x.now).map fun (item, script) => (x.legs.onItem max item, script)

/-- The times at which a leg or the timer may move. -/
def dues (x : ScriptedExchange) (deadline : Nat) : List Nat :=
  deadline :: ((if x.legs.sent then [] else [x.script.sendDue]) ++
    (if x.legs.received.isSome then [] else x.script.readDue))

/-- Run an exchange to its end. Every turn moves a leg or the clock, so a handful of turns is
enough. -/
def run (mine : Status) (cfg : ExchangeConfig) (deadline : Nat) :
    Nat → ScriptedExchange → Except ExchangeError Status × ScriptedExchange
  | 0, x => (.error (.timeout cfg.timeout), x)
  | fuel + 1, x =>
    match x.legs.finished? with
    | some s => (.ok s, x)
    | none =>
      match x.move? mine cfg.maxMessage with
      | some (.error e, script) => (.error e, { x with script })
      | some (.ok legs, script) => run mine cfg deadline fuel { x with legs, script }
      | none =>
        if deadline ≤ x.now then (.error (.timeout cfg.timeout), x)
        else
          match ((x.dues deadline).filter (x.now < ·)).min? with
          | none => (.error (.timeout cfg.timeout), x)
          | some t => run mine cfg deadline fuel { x with now := t }

end ScriptedExchange

/-- Exchange statuses over a scripted connection that starts now: the result, the log entries and
the connection afterwards with the time. -/
def exchangeOverScript (script : Script) (cfg : ExchangeConfig) (mine : Status) :
    (Except ExchangeError ExchangeReport × List Log.Entry) × Script × Nat :=
  let (outcome, x) :=
    ScriptedExchange.run mine cfg (script.started + cfg.timeout.millis) 8
      ⟨script, .start, script.started⟩
  (concludeExchange script.peer.shortId cfg mine outcome, x.script, x.now)

/-- Read a status off a scripted connection without a timer; `none` when nothing ever comes. -/
def readStatusOverScript (script : Script) (max : UInt32) :
    Option (Except ExchangeError Status × Script × Nat) :=
  match script.entries with
  | [] => none
  | e :: rest =>
    some (readStatus max e.item, { script with entries := rest }, script.started + e.due)

end Eth

end PeerProbe
