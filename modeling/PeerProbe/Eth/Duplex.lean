import PeerProbe.Eth.Exchange
import PeerProbe.PeerRef

/-!
# An exchange between two nodes

Both ends of one in-process pipe run a status exchange. The machine moves one leg of one end at a
time; which end moves, when a timer fires and when an end that is done drops its connection is
open. `Duplex.settle` is the schedule in which the left end goes first and the clock stands still.
-/

namespace PeerProbe.Eth

/-- The two ends of a pipe. -/
inductive Side where
  | left
  | right
  deriving DecidableEq, Repr

/-- The side across. -/
def Side.other : Side → Side
  | .left => .right
  | .right => .left

/-- One end of the pipe during an exchange. -/
structure PipeEnd where
  legs : Legs
  inbox : List Frame
  isOpen : Bool
  outcome : Option (Except ExchangeError Status)

/-- How one end runs its exchange. -/
structure Party where
  config : ExchangeConfig
  status : Status

/-- Both ends of a pipe. -/
structure Duplex where
  left : PipeEnd
  right : PipeEnd

namespace Duplex

/-- The end on a side. -/
def get (d : Duplex) : Side → PipeEnd
  | .left => d.left
  | .right => d.right

/-- Replace the end on a side. -/
def set (d : Duplex) (s : Side) (e : PipeEnd) : Duplex :=
  match s with
  | .left => { d with left := e }
  | .right => { d with right := e }

/-- A fresh end with some frames waiting for it. -/
def freshEnd (inbox : List Frame) : PipeEnd := ⟨.start, inbox, true, none⟩

/-- Both exchanges before their first move; `ahead` are frames the left end sent earlier. -/
def start (ahead : List Frame) : Duplex := ⟨freshEnd [], freshEnd ahead⟩

/-- The state of an end after one of its legs moved. -/
def after (e : PipeEnd) : Except ExchangeError Legs → PipeEnd
  | .error err => { e with outcome := some (.error err) }
  | .ok legs => { e with legs := legs, outcome := legs.finished?.map .ok }

/-- The send leg: the frame goes into the inbox across, unless that end is gone. -/
def sendStep (d : Duplex) (s : Side) (p : Party) : Duplex :=
  let me := d.get s
  let there := d.get s.other
  if there.isOpen then
    let frame := Frame.ofPayload Code.status (rlpBytes p.status)
    (d.set s.other { there with inbox := there.inbox ++ [frame] }).set s
      (after me (me.legs.onSent (.ok ())))
  else d.set s (after me (me.legs.onSent (.error .disconnected)))

/-- The receive leg, if there is something to take or the other end is gone. -/
def receiveStep? (d : Duplex) (s : Side) (p : Party) : Option Duplex :=
  let me := d.get s
  match me.inbox with
  | f :: rest =>
    some (d.set s (after { me with inbox := rest }
      (me.legs.onItem p.config.maxMessage (.ok f))))
  | [] =>
    if (d.get s.other).isOpen then none
    else some (d.set s (after me (me.legs.onItem p.config.maxMessage (.error .eof))))

/-- One move of an end that is not done; the send leg goes first. -/
def step? (d : Duplex) (s : Side) (p : Party) : Option Duplex :=
  let me := d.get s
  if me.outcome.isSome then none
  else if !me.legs.sent then some (d.sendStep s p)
  else if me.legs.received.isNone then d.receiveStep? s p
  else none

/-- The timer of an end that is not done. -/
def expire (d : Duplex) (s : Side) (p : Party) : Duplex :=
  let me := d.get s
  if me.outcome.isSome then d
  else d.set s { me with outcome := some (.error (.timeout p.config.timeout)) }

/-- An end that is done drops its connection. -/
def close (d : Duplex) (s : Side) : Duplex :=
  let me := d.get s
  if me.outcome.isSome then d.set s { me with isOpen := false } else d

/-- What an end reports, once it is done. -/
def result? (d : Duplex) (s : Side) (peer : String) (p : Party) :
    Option (Except ExchangeError ExchangeReport × List Log.Entry) :=
  (d.get s).outcome.map (concludeExchange peer p.config p.status)

/-- Everything one end can do by itself; without any time its timer fires as soon as it waits. -/
def turn (d : Duplex) (s : Side) (p : Party) : Nat → Duplex
  | 0 => d
  | fuel + 1 =>
    match d.step? s p with
    | some d' => turn d' s p fuel
    | none => if p.config.timeout.isZero then d.expire s p else d

/-- Left, right, left and right again, each as far as it gets. An end has two legs, so three moves
are enough for a turn. -/
def settle (d : Duplex) (a b : Party) : Duplex :=
  (((d.turn .left a 3).turn .right b 3).turn .left a 3).turn .right b 3

end Duplex

end PeerProbe.Eth
