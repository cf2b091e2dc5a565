import PeerProbe.Eth.Types
import PeerProbe.Text.Quoted
import PeerProbe.Wire.Frame

/-!
# Messages

A frame is classified by its code and decoded into one of the known payloads, or kept as unknown
with its size. An empty frame is no message at all, whatever its code: no payload is written
with zero bytes. Each payload has a one-line summary for logs.
-/

namespace PeerProbe.Eth

/-- Why a message could not be used. -/
inductive MessageError where
  | tooLarge (size max : UInt32)
  | malformedBody (code : UInt64) (size : UInt32) (reason : String)
  | unexpectedCode (got want : UInt64)
  | noStatusYet (code : UInt64)
  | versionMismatch (mine theirs : UInt32)
  | networkMismatch (mine theirs : UInt64)
  | genesisMismatch (mine theirs : Hash)
  | nonConformant (code : Option UInt64)
  deriving DecidableEq

namespace MessageError

/-- The wording of an error. -/
def message : MessageError → String
  | .tooLarge size max =>
    "message too large: " ++ toString size.toNat ++ " > " ++ toString max.toNat
  | .malformedBody code size reason =>
    "malformed body in msg #" ++ Text.codeText code.toNat ++ " (" ++ toString size.toNat ++
      " bytes): " ++ reason
  | .unexpectedCode got want =>
    "unexpected message code " ++ Text.codeText got.toNat ++ " (want " ++
      Text.codeText want.toNat ++ ")"
  | .noStatusYet code => "msg #" ++ Text.codeText code.toNat ++ " received before status"
  | .versionMismatch mine theirs =>
    "protocol version mismatch: local " ++ toString mine.toNat ++ ", remote " ++
      toString theirs.toNat
  | .networkMismatch mine theirs =>
    "network id mismatch: local " ++ toString mine.toNat ++ ", remote " ++ toString theirs.toNat
  | .genesisMismatch mine theirs =>
    "genesis mismatch: local " ++ mine.marked ++ ", remote " ++ theirs.marked
  | .nonConformant code =>
    "non-conformant peer: empty or truncated frame (code " ++
      Text.optional (fun c => toString c.toNat) code ++ ")"

/-- Errors after which a caller may go on reading as if nothing had come. -/
def isRecoverable : MessageError → Bool
  | .nonConformant _ => true
  | _ => false

/-- Errors that say two statuses disagree. -/
def isMismatch : MessageError → Bool
  | .versionMismatch .. => true
  | .networkMismatch .. => true
  | .genesisMismatch .. => true
  | _ => false

end MessageError

/-- A decoded message. -/
inductive Payload where
  | status (s : Status)
  | headerQuery (q : HeaderQuery)
  | headers (hs : List Header)
  | announcements (as : List HashAnnouncement)
  | transactions (ts : List Transaction)
  | newBlock (b : NewBlock)
  | unknown (code : UInt64) (size : UInt32)
  deriving DecidableEq

/-- Read a whole payload with a reader of its type. -/
def decodeExact {α : Type} (item : Rlp.Reader α) (code : UInt64) (payload : List UInt8) :
    Except MessageError α :=
  match Rlp.exactly item payload with
  | .ok a => .ok a
  | .error m => .error (.malformedBody code (UInt32.ofNat payload.length) m.message)

/-- Decode a payload by its code. -/
def Payload.ofCode (f : Frame) : Except MessageError Payload :=
  if f.code = Code.status then .status <$> decodeExact Rlp.Item.read f.code f.payload
  else if f.code = Code.getBlockHeaders then
    .headerQuery <$> decodeExact Rlp.Item.read f.code f.payload
  else if f.code = Code.blockHeaders then
    .headers <$> decodeExact Rlp.readList f.code f.payload
  else if f.code = Code.newBlockHashes then
    .announcements <$> decodeExact Rlp.readList f.code f.payload
  else if f.code = Code.transactions then
    .transactions <$> decodeExact Rlp.readList f.code f.payload
  else if f.code = Code.newBlock then .newBlock <$> decodeExact Rlp.Item.read f.code f.payload
  else .ok (.unknown f.code f.size)

/-- Classify and decode one frame under a size limit. -/
def decodeMessage (f : Frame) (max : UInt32) : Except MessageError Payload :=
  if f.isEmpty then .error (.nonConformant (some f.code))
  else if max < f.size then .error (.tooLarge f.size max)
  else Payload.ofCode f

namespace Payload

/-- The code a payload travels under. -/
def code : Payload → UInt64
  | .status _ => Code.status
  | .headerQuery _ => Code.getBlockHeaders
  | .headers _ => Code.blockHeaders
  | .announcements _ => Code.newBlockHashes
  | .transactions _ => Code.transactions
  | .newBlock _ => Code.newBlock
  | .unknown code _ => code

/-- The item form of a payload; an unknown one has none. -/
def bytes? : Payload → Option (List UInt8)
  | .status s => some (rlpBytes s)
  | .headerQuery q => some (rlpBytes q)
  | .headers hs => some (Rlp.writeList hs)
  | .announcements as => some (Rlp.writeList as)
  | .transactions ts => some (Rlp.writeList ts)
  | .newBlock b => some (rlpBytes b)
  | .unknown _ _ => none

/-- The kind of a payload in log lines. -/
def kind : Payload → String
  | .status _ => "status"
  | .headerQuery _ => "get_block_headers"
  | .headers _ => "block_headers"
  | .announcements _ => "new_block_hashes"
  | .transactions _ => "transactions"
  | .newBlock _ => "new_block"
  | .unknown _ _ => "unknown"

/-- The start of a header query in log lines. -/
def originText : Origin → String
  | .hash h => "Hash(" ++ h.marked ++ ")"
  | .number n => "Number(" ++ toString n.toNat ++ ")"

/-- The summary of a status up to its head block. -/
def statusText (s : Status) : String :=
  "version=" ++ toString s.protocolVersion.toNat ++ " network=" ++ toString s.networkId.toNat ++
    " td=" ++ toString s.totalDifficulty.toNat ++ " head=" ++ s.currentBlock.marked

/-- The one-line summary of a payload. -/
def describe : Payload → String
  | .status s => statusText s ++ " genesis=" ++ s.genesisBlock.marked
  | .headerQuery q =>
    "origin=" ++ originText q.origin ++ " amount=" ++ toString q.amount.toNat ++ " skip=" ++
      toString q.skip.toNat ++ " reverse=" ++ toString q.reverse
  | .headers hs =>
    match hs.head?, hs.getLast? with
    | some first, some last =>
      "count=" ++ toString hs.length ++ " first=#" ++ toString first.number.toNat ++ " last=#" ++
        toString last.number.toNat
    | _, _ => "count=0"
  | .announcements as =>
    "count=" ++ toString as.length ++ " [" ++
      String.intercalate ", "
        (as.map fun a => "#" ++ toString a.number.toNat ++ "=" ++ a.hash.marked) ++ "]"
  | .transactions ts => "count=" ++ toString ts.length
  | .newBlock b =>
    "number=" ++ toString b.block.header.number.toNat ++ " hash=" ++ b.block.header.hash.marked ++
      " txs=" ++ toString b.block.transactions.length ++ " uncles=" ++
      toString b.block.uncles.length ++ " td=" ++ toString b.totalDifficulty.toNat
  | .unknown code size =>
    Code.name code ++ " code=" ++ Text.codeText code.toNat ++ " size=" ++ toString size.toNat

end Payload

/-- The summary of one transaction. -/
def Transaction.describe (t : Transaction) : String :=
  "hash=" ++ t.hash.marked ++ " chain_id=" ++ Text.optional toString t.chainId ++ " to=" ++
    Text.optional Block.marked t.recipient ++ " value=" ++ toString t.value.toNat ++ " nonce=" ++
    toString t.nonce.toNat

end PeerProbe.Eth
