import PeerProbe.Bytes.BigEndian
import PeerProbe.Bytes.Block

/-!
# Recursive length prefix

An item is a byte string or a list of items. Its head tells which, and how many payload bytes
follow; a single byte below `0x80` is its own item. Writing uses the shortest head, and reading
refuses every other one.

The fields of a record are read from everything that follows its head, and only afterwards the
bytes they took are compared with the length the head announced. A head that promises too little
is therefore noticed behind the last field, not in front of it.
-/

namespace PeerProbe

/-- The 256-bit numbers of balances, difficulties and signatures. -/
abbrev U256 := BitVec 256

end PeerProbe

namespace PeerProbe.Rlp

/-- Why bytes are not the item that was expected. -/
inductive Error where
  | tooShort
  | leadingZero
  | overflow
  | singleByte
  | size
  | unexpectedList
  | unexpectedString
  | unexpectedLength
  | listLength (got expected : Nat)
  | notBool
  deriving DecidableEq, Repr

/-- The wording of a refusal. -/
def Error.message : Error → String
  | .tooShort => "input too short"
  | .leadingZero => "leading zero"
  | .overflow => "overflow"
  | .singleByte => "non-canonical single byte"
  | .size => "non-canonical size"
  | .unexpectedList => "unexpected list"
  | .unexpectedString => "unexpected string"
  | .unexpectedLength => "unexpected length"
  | .listLength got expected =>
    "unexpected list length (got " ++ toString got ++ ", expected " ++ toString expected ++ ")"
  | .notBool => "invalid bool value, must be 0 or 1"

/-- What a reader makes of the bytes in front of it: a value and the bytes left over. -/
abbrev Reader := StateT (List UInt8) (Except Error)

/-! ## Heads -/

/-- The announcement of an item: its kind and the size of its payload. -/
structure Head where
  isList : Bool
  size : Nat
  deriving DecidableEq, Repr

/-- The first byte of a short head: the kind and a size below 56. -/
def Head.base (isList : Bool) : Nat := if isList then 0xc0 else 0x80

/-- The shortest head of a payload. -/
def Head.bytes (h : Head) : List UInt8 :=
  if h.size < 56 then [UInt8.ofNat (Head.base h.isList + h.size)]
  else
    let len := BigEndian.shortest h.size
    UInt8.ofNat (Head.base h.isList + 55 + len.length) :: len

/-- A head with `count` bytes of length. -/
def Head.long (isList : Bool) (count : Nat) (rest : List UInt8) :
    Except Error (Head × List UInt8) :=
  if rest.length < count then .error .tooShort
  else
    let len := rest.take count
    if len.head? = some 0 then .error .leadingZero
    else
      let size := BigEndian.toNat len
      if size < 56 then .error .size else .ok (⟨isList, size⟩, rest.drop count)

/-- The head in front of some bytes, without a look at the payload. A byte below `0x80` announces
itself and is left where it is. -/
def Head.announce : List UInt8 → Except Error (Head × List UInt8)
  | [] => .error .tooShort
  | b :: rest =>
    let n := b.toNat
    if n < 0x80 then .ok (⟨false, 1⟩, b :: rest)
    else if n < 0xb8 then
      if n = 0x81 then
        match rest with
        | [] => .error .tooShort
        | c :: _ => if c.toNat < 0x80 then .error .singleByte else .ok (⟨false, 1⟩, rest)
      else .ok (⟨false, n - 0x80⟩, rest)
    else if n < 0xc0 then Head.long false (n - 0xb7) rest
    else if n < 0xf8 then .ok (⟨true, n - 0xc0⟩, rest)
    else Head.long true (n - 0xf7) rest

/-- The head in front of some bytes, with its payload present. -/
def Head.read : Reader Head := fun bytes =>
  match Head.announce bytes with
  | .error e => .error e
  | .ok (h, rest) => if rest.length < h.size then .error .tooShort else .ok (h, rest)

/-! ## Strings, numbers, lists and records -/

/-- The payload of a string. -/
def string : Reader (List UInt8) := fun bytes =>
  match Head.read bytes with
  | .error e => .error e
  | .ok (h, rest) =>
    if h.isList then .error .unexpectedList else .ok (rest.take h.size, rest.drop h.size)

/-- The item of a byte string. -/
def ofString (payload : List UInt8) : List UInt8 :=
  match payload with
  | [b] => if b.toNat < 0x80 then [b] else Head.bytes ⟨false, 1⟩ ++ [b]
  | _ => Head.bytes ⟨false, payload.length⟩ ++ payload

/-- The item of a list, given the items in it one after another. -/
def ofItems (payload : List UInt8) : List UInt8 := Head.bytes ⟨true, payload.length⟩ ++ payload

/-- The item of a number: its shortest byte string. -/
def ofNat (n : Nat) : List UInt8 := ofString (BigEndian.shortest n)

/-- Which of two faults of a number is named when it has both. -/
inductive Precedence where
  | lengthFirst
  | zeroFirst
  deriving DecidableEq, Repr

/-- The number of a payload of at most `width` bytes without a leading zero. -/
def numberOf (width : Nat) (order : Precedence) (payload : List UInt8) : Except Error Nat :=
  let long := width < payload.length
  let zero := payload.head? = some 0
  match order with
  | .lengthFirst =>
    if long then .error .overflow else if zero then .error .leadingZero
    else .ok (BigEndian.toNat payload)
  | .zeroFirst =>
    if zero then .error .leadingZero else if long then .error .overflow
    else .ok (BigEndian.toNat payload)

/-- A number of at most `width` bytes. -/
def number (width : Nat) (order : Precedence) : Reader Nat := fun bytes =>
  match string bytes with
  | .error e => .error e
  | .ok (payload, rest) => (numberOf width order payload).map fun n => (n, rest)

/-- A record: a list whose items are read by `fields`. -/
def record {α : Type} (fields : Reader α) : Reader α := fun bytes =>
  match Head.read bytes with
  | .error e => .error e
  | .ok (h, rest) =>
    if h.isList then
      match fields rest with
      | .error e => .error e
      | .ok (a, left) =>
        let got := rest.length - left.length
        if got = h.size then .ok (a, left) else .error (.listLength got h.size)
    else .error .unexpectedString

/-- Items read until nothing is left. Every item takes at least one byte, so the length of the
bytes is enough fuel. -/
def readAll {α : Type} (item : Reader α) : Nat → List UInt8 → Except Error (List α)
  | _, [] => .ok []
  | 0, _ :: _ => .error .tooShort
  | fuel + 1, b :: bytes =>
    match item (b :: bytes) with
    | .error e => .error e
    | .ok (a, rest) => (readAll item fuel rest).map (a :: ·)

/-- A list of any number of items, read from its payload alone. -/
def list {α : Type} (item : Reader α) : Reader (List α) := fun bytes =>
  match Head.read bytes with
  | .error e => .error e
  | .ok (h, rest) =>
    if h.isList then
      (readAll item h.size (rest.take h.size)).map fun xs => (xs, rest.drop h.size)
    else .error .unexpectedString

/-! ## Types with an item form -/

/-- A type whose values are written as one item. -/
class Item (α : Type) where
  write : α → List UInt8
  read : Reader α

instance : Item UInt32 where
  write n := ofNat n.toNat
  read := UInt32.ofNat <$> number 4 .lengthFirst

instance : Item UInt64 where
  write n := ofNat n.toNat
  read := UInt64.ofNat <$> number 8 .lengthFirst

instance : Item (BitVec 256) where
  write n := ofNat n.toNat
  read := BitVec.ofNat 256 <$> number 32 .zeroFirst

instance : Item Bool where
  write b := ofNat b.toNat
  read := fun bytes =>
    match number 1 .lengthFirst bytes with
    | .error e => .error e
    | .ok (n, rest) =>
      if n = 0 then .ok (false, rest) else if n = 1 then .ok (true, rest) else .error .notBool

instance : Item (List UInt8) where
  write := ofString
  read := string

instance (n : Nat) : Item (Block n) where
  write b := ofString b.bytes
  read := fun bytes =>
    match string bytes with
    | .error e => .error e
    | .ok (payload, rest) =>
      match Block.ofBytes? n payload with
      | some b => .ok (b, rest)
      | none => .error .unexpectedLength

/-- Byte strings are items of their own, so lists of records use this form instead of an
instance. -/
def writeList {α : Type} [Item α] (xs : List α) : List UInt8 := ofItems (xs.flatMap Item.write)

/-- A list of records. -/
def readList {α : Type} [Item α] : Reader (List α) := list Item.read

/-- Why a payload is not exactly one item of the expected kind. -/
inductive Mismatch where
  | refused (e : Error)
  | trailing (count : Nat)
  deriving DecidableEq, Repr

/-- The wording of a refusal of a whole payload. -/
def Mismatch.message : Mismatch → String
  | .refused e => e.message
  | .trailing n => toString n ++ " trailing bytes"

/-- Read a whole payload as one item. -/
def exactly {α : Type} (item : Reader α) (payload : List UInt8) : Except Mismatch α :=
  match item payload with
  | .error e => .error (.refused e)
  | .ok (a, []) => .ok a
  | .ok (_, _ :: rest) => .error (.trailing (rest.length + 1))

end PeerProbe.Rlp
