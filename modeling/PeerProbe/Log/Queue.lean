import PeerProbe.Log.Entry

/-!
# Passing entries to the sinks

Any number of tasks put entries into a bounded queue; one worker passes them to the sinks. An
entry is counted as emitted in a step of its own after it was queued, and as handled in a step
of its own after every sink has seen it. A flush reads the emitted count once and waits until the
handled count reaches it.

The machine makes every one of these steps by itself, so a run may interleave them in any way.
-/

namespace PeerProbe.Log

/-- A task that emits one entry. -/
inductive Emitter where
  | ready
  | queued
  | counted
  | refused
  deriving DecidableEq, Repr

/-- What the worker is doing: waiting, or passing an entry to the sinks that are left. -/
inductive Worker where
  | idle
  | passing (entry : Nat) (sinks : List Nat)
  | passed (entry : Nat)
  deriving DecidableEq, Repr

/-- A flush: not called yet, waiting for a count, or returned. -/
inductive Flush where
  | idle
  | waiting (target : Nat)
  | returned (inTime : Bool)
  deriving DecidableEq, Repr

/-- The queue, its counters and its tasks. An entry is known by the number of its emitter; `seen`
lists which sink saw which entry. -/
structure Dispatch where
  capacity : Nat
  emitters : List Emitter
  queue : List Nat
  emitted : Nat
  handled : Nat
  sinks : Nat
  worker : Worker
  flush : Flush
  seen : List (Nat × Nat)

namespace Dispatch

/-- A dispatcher with some emitters and sinks, nothing emitted yet. -/
def start (capacity emitters sinks : Nat) : Dispatch :=
  ⟨capacity, List.replicate emitters .ready, [], 0, 0, sinks, .idle, .idle, []⟩

/-- The things that can happen next. -/
inductive Step where
  | emit (i : Nat)
  | work
  | register
  | flush
  | poll
  | giveUp
  deriving DecidableEq, Repr

/-- One step of an emitter: queue the entry if there is room, then count it. -/
def emitStep (d : Dispatch) (i : Nat) : Option Dispatch :=
  match d.emitters[i]? with
  | some .ready =>
    if d.queue.length < d.capacity then
      some { d with queue := d.queue ++ [i], emitters := d.emitters.set i .queued }
    else some { d with emitters := d.emitters.set i .refused }
  | some .queued =>
    some { d with emitted := d.emitted + 1, emitters := d.emitters.set i .counted }
  | _ => none

/-- One step of the worker: take an entry with the sinks of the moment, show it to the next sink,
or count it. -/
def workStep (d : Dispatch) : Option Dispatch :=
  match d.worker with
  | .idle =>
    match d.queue with
    | [] => none
    | e :: rest => some { d with queue := rest, worker := .passing e (List.range d.sinks) }
  | .passing e (s :: rest) => some { d with seen := (s, e) :: d.seen, worker := .passing e rest }
  | .passing e [] => some { d with worker := .passed e }
  | .passed _ => some { d with handled := d.handled + 1, worker := .idle }

/-- One step of the machine, if it is possible. -/
def step? (d : Dispatch) : Step → Option Dispatch
  | .emit i => d.emitStep i
  | .work => d.workStep
  | .register => some { d with sinks := d.sinks + 1 }
  | .flush => if d.flush = .idle then some { d with flush := .waiting d.emitted } else none
  | .poll =>
    match d.flush with
    | .waiting target =>
      if target ≤ d.handled then some { d with flush := .returned true } else none
    | _ => none
  | .giveUp =>
    match d.flush with
    | .waiting _ => some { d with flush := .returned false }
    | _ => none

/-- The states a run of steps goes through. -/
inductive Runs : Dispatch → List Step → Dispatch → Prop where
  | nil (d : Dispatch) : Runs d [] d
  | cons {d d' e : Dispatch} {s : Step} {ss : List Step} :
      d.step? s = some d' → Runs d' ss e → Runs d (s :: ss) e

end Dispatch

end PeerProbe.Log
