import PeerProbe.Eth.Message
import PeerProbe.Log.Entry
import PeerProbe.Text.Duration

/-!
# Status exchange

Both ends of a connection send their status at once and neither waits for the other. The two legs
run under one timer. The remote status is then compared with ours under a policy: `strict` turns
the first disagreement into an error, `annotate` reports all of them beside a success, `off` does
not look.
-/

namespace PeerProbe.Eth

/-- What to do when two statuses disagree. -/
inductive Policy where
  | strict
  | annotate
  | off
  deriving DecidableEq, Repr

namespace Policy

/-- The name of a policy. -/
def name : Policy → String
  | .strict => "strict"
  | .annotate => "annotate"
  | .off => "off"

/-- The policy of a name in any case; `none` is another name of `off`. An unknown name is refused
in lower case. -/
def parse (s : String) : Except String Policy :=
  match String.ofList (Text.lowerAscii s.toList) with
  | "strict" => .ok .strict
  | "annotate" => .ok .annotate
  | "off" => .ok .off
  | "none" => .ok .off
  | other => .error ("unknown validation policy '" ++ other ++ "'")

end Policy

/-- Upper bound on one message, unless configured otherwise. -/
def defaultMaxMessage : UInt32 := 10485760

/-- How an exchange is run. -/
structure ExchangeConfig where
  timeout : Duration := .ofMillis 2000
  policy : Policy := .annotate
  maxMessage : UInt32 := defaultMaxMessage
  deriving DecidableEq

/-- Why an exchange failed. -/
inductive ExchangeError where
  | timeout (after : Duration)
  | transport (e : TransportError)
  | protocol (e : MessageError)
  deriving DecidableEq

namespace ExchangeError

/-- The wording of a failure. -/
def message : ExchangeError → String
  | .timeout after => "status exchange timed out after " ++ after.text
  | .transport e => "status exchange transport failure: " ++ e.message
  | .protocol e => "status exchange protocol failure: " ++ e.message

/-- Failures after which a caller may try again on the same connection. -/
def isRecoverable : ExchangeError → Bool
  | .protocol e => e.isRecoverable
  | _ => false

end ExchangeError

/-- What a completed exchange learned. -/
structure ExchangeReport where
  remote : Status
  mismatches : List MessageError
  deriving DecidableEq

/-- No disagreement was noted. -/
def ExchangeReport.isCompatible (r : ExchangeReport) : Bool := r.mismatches.isEmpty

/-- The status in the first thing a connection delivers. A remote that hangs up instead of
answering is treated like an empty frame. -/
def readStatus (max : UInt32) : Except TransportError Frame → Except ExchangeError Status
  | .error e =>
    if e.isEof then .error (.protocol (.nonConformant none)) else .error (.transport e)
  | .ok f =>
    if f.isEmpty then .error (.protocol (.nonConformant (some f.code)))
    else if f.code ≠ Code.status then .error (.protocol (.unexpectedCode f.code Code.status))
    else if max < f.size then .error (.protocol (.tooLarge f.size max))
    else match decodeExact Rlp.Item.read f.code f.payload with
      | .ok s => .ok s
      | .error e => .error (.protocol e)

/-- Every disagreement of two statuses: version, network, genesis. -/
def validate (mine theirs : Status) : List MessageError :=
  (if mine.protocolVersion = theirs.protocolVersion then []
    else [.versionMismatch mine.protocolVersion theirs.protocolVersion]) ++
  (if mine.networkId = theirs.networkId then []
    else [.networkMismatch mine.networkId theirs.networkId]) ++
  (if mine.genesisBlock = theirs.genesisBlock then []
    else [.genesisMismatch mine.genesisBlock theirs.genesisBlock])

/-- The verdict of a policy on a remote status. -/
def judge (policy : Policy) (mine theirs : Status) : Except ExchangeError ExchangeReport :=
  match policy with
  | .off => .ok ⟨theirs, []⟩
  | .annotate => .ok ⟨theirs, validate mine theirs⟩
  | .strict =>
    match validate mine theirs with
    | [] => .ok ⟨theirs, []⟩
    | first :: _ => .error (.protocol first)

/-! ## The two legs -/

/-- How far the legs of a running exchange have come. -/
structure Legs where
  sent : Bool
  received : Option Status
  deriving DecidableEq

/-- Neither leg has moved. -/
def Legs.start : Legs := ⟨false, none⟩

/-- The remote status once both legs are done. -/
def Legs.finished? (l : Legs) : Option Status := if l.sent then l.received else none

/-- The legs after the send leg ended. -/
def Legs.onSent (l : Legs) : Except TransportError Unit → Except ExchangeError Legs
  | .ok () => .ok { l with sent := true }
  | .error e => .error (.transport e)

/-- The legs after the receive leg got its item. -/
def Legs.onItem (l : Legs) (max : UInt32) (item : Except TransportError Frame) :
    Except ExchangeError Legs :=
  (readStatus max item).map fun s => { l with received := some s }

/-! ## Log entries of an exchange -/

/-- The entry about a failed exchange. A rejection by the policy has an entry of its own. -/
def ExchangeError.entry (peer : String) : ExchangeError → Log.Entry
  | .timeout after =>
    .protocol .info "handshake_timeout" peer Code.status (some ("after " ++ after.text))
  | e => .protocol .warn "handshake_failed" peer Code.status (some e.message)

/-- The entries about the verdict on a received status. -/
def judgeEntries (peer : String) (policy : Policy) (mine theirs : Status) : List Log.Entry :=
  match judge policy mine theirs with
  | .error (.protocol first) =>
    [.protocol .warn "handshake_rejected" peer Code.status (some first.message)]
  | .error _ => []
  | .ok report =>
    report.mismatches.map (fun m =>
      .protocol .warn "status_mismatch" peer Code.status (some m.message)) ++
    [.protocol .info "handshake_ok" peer Code.status (some (Payload.statusText theirs))]

/-- The end of an exchange, from the outcome of its legs: the result and what is logged. -/
def concludeExchange (peer : String) (cfg : ExchangeConfig) (mine : Status) :
    Except ExchangeError Status → Except ExchangeError ExchangeReport × List Log.Entry
  | .error e => (.error e, [e.entry peer])
  | .ok theirs => (judge cfg.policy mine theirs, judgeEntries peer cfg.policy mine theirs)

end PeerProbe.Eth
