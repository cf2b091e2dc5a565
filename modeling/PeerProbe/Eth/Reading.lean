import PeerProbe.Eth.Exchange

/-!
# Reading messages one at a time

A reader takes one item off a connection per call and reports on that item: a payload or an
error. Before the first accepted status it refuses every other non-empty frame unseen. Each item
is decoded or dropped before the call returns, so an undecodable frame never blocks the ones
behind it.
-/

namespace PeerProbe.Eth

/-- Why the next message could not be had. -/
inductive ReadError where
  | transport (e : TransportError)
  | decode (e : MessageError)
  deriving DecidableEq

/-- The wording of a failure. -/
def ReadError.message : ReadError → String
  | .transport e => e.message
  | .decode e => e.message

/-- A reader between two calls. -/
structure Reading where
  maxMessage : UInt32
  statusSeen : Bool
  deriving DecidableEq

/-- The code and size of a frame that was not asked for. -/
def sizeText (code : UInt64) (size : UInt32) : String :=
  Code.name code ++ " size=" ++ toString size.toNat

/-- The entries about a decoded payload: its summary, and one line per transaction. -/
def Payload.entries (peer : String) (p : Payload) : List Log.Entry :=
  let level := match p with
    | .unknown _ _ => Log.Level.debug
    | _ => .info
  let each := match p with
    | .transactions ts =>
      ts.map fun t => .protocol .debug "tx" peer Code.transactions (some t.describe)
    | _ => []
  .protocol level p.kind peer p.code (some p.describe) :: each

namespace Reading

/-- A reader of a fresh connection. -/
def fresh (max : UInt32) : Reading := ⟨max, false⟩

/-- A reader of a connection whose statuses were exchanged. -/
def afterExchange (max : UInt32) : Reading := ⟨max, true⟩

/-- Whether a frame comes too early to be looked at. -/
def isEarly (r : Reading) (f : Frame) : Bool :=
  !r.statusSeen && f.code ≠ Code.status && !f.isEmpty

/-- The report on one item. -/
def report (r : Reading) : Except TransportError Frame → Except ReadError Payload
  | .error e => .error (.transport e)
  | .ok f =>
    if r.isEarly f then .error (.decode (.noStatusYet f.code))
    else match decodeMessage f r.maxMessage with
      | .ok p => .ok p
      | .error e => .error (.decode e)

/-- Whether a status has been accepted once the item is dealt with. -/
def seenAfter (r : Reading) (item : Except TransportError Frame) : Bool :=
  match r.report item with
  | .ok (.status _) => true
  | _ => r.statusSeen

/-- What is noted about a payload before its summary. -/
def remark (r : Reading) (peer : String) (f : Frame) : Payload → List Log.Entry
  | .status _ => if r.statusSeen then [.protocol .warn "extra_status" peer f.code none] else []
  | .unknown _ _ =>
    [.protocol .info "unqueried_discarded" peer f.code (some (sizeText f.code f.size))]
  | _ => []

/-- The entries about one item. A transport error is not logged here. -/
def entries (r : Reading) (peer : String) : Except TransportError Frame → List Log.Entry
  | .error _ => []
  | .ok f =>
    if r.isEarly f then
      [.protocol .warn "no_status_yet" peer f.code (some (sizeText f.code f.size))]
    else match decodeMessage f r.maxMessage with
      | .ok p => r.remark peer f p ++ p.entries peer
      | .error e =>
        let (level, kind) : Log.Level × String :=
          if e.isRecoverable then (.warn, "non_conformant_frame") else (.error, "decode_failed")
        [.protocol level kind peer f.code
          (some ("size=" ++ toString f.size.toNat ++ " error=" ++ e.message))]

/-- Deal with one item: the report on it and the reader afterwards. -/
def next (r : Reading) (item : Except TransportError Frame) : Except ReadError Payload × Reading :=
  (r.report item, { r with statusSeen := r.seenAfter item })

/-- The reports on a sequence of items, one call each. -/
def run (r : Reading) : List (Except TransportError Frame) → List (Except ReadError Payload)
  | [] => []
  | item :: rest => (r.next item).1 :: (r.next item).2.run rest

end Reading

end PeerProbe.Eth
