import PeerProbe.Bytes.BigEndian
import PeerProbe.Wire.Error

/-!
# Frames

One frame is a code and a payload with a declared size. On a byte stream it is written as the
code and the size, four bytes each, followed by the payload.

The declared size has 32 bits: it is the payload's length modulo `2^32`. A code that does not fit
32 bits cannot be written.
-/

namespace PeerProbe

/-- One unit of application data on a connection. -/
structure Frame where
  code : UInt64
  size : UInt32
  payload : List UInt8
  deriving DecidableEq

namespace Frame

/-- The frame of a payload, its size declared in 32 bits. -/
def ofPayload (code : UInt64) (payload : List UInt8) : Frame :=
  ⟨code, UInt32.ofNat payload.length, payload⟩

/-- A frame without a body, or one that declares none. -/
def isEmpty (f : Frame) : Bool := f.size = 0 || f.payload.isEmpty

/-- A frame in log lines. -/
def text (f : Frame) : String :=
  "msg #" ++ Text.codeText f.code.toNat ++ " (" ++ toString f.size.toNat ++ " bytes)"

/-- The bytes of a frame head. -/
def headBytes (code size : Nat) : List UInt8 := BigEndian.fixed 4 code ++ BigEndian.fixed 4 size

/-- The refusal of a code that does not fit the frame head. -/
def codeError (code : UInt64) : TransportError :=
  .io .invalidInput ("message code 0x" ++ String.ofList (Text.hexadecimal code.toNat) ++
    " does not fit the frame header")

/-- The bytes of one frame on a stream. -/
def write (code : UInt64) (payload : List UInt8) : Except TransportError (List UInt8) :=
  if code.toNat < 0x100000000 then .ok (headBytes code.toNat payload.length ++ payload)
  else .error (codeError code)

/-- What the bytes received so far amount to. -/
inductive Parsed where
  | incomplete
  | tooLarge (size : UInt32)
  | complete (f : Frame) (rest : List UInt8)
  deriving DecidableEq

/-- The frame at the front of some bytes under a size limit. -/
def parse (max : UInt32) (bytes : List UInt8) : Parsed :=
  if bytes.length < 8 then .incomplete
  else
    let code := BigEndian.toNat (bytes.take 4)
    let size := BigEndian.toNat ((bytes.drop 4).take 4)
    let body := bytes.drop 8
    if max.toNat < size then .tooLarge (UInt32.ofNat size)
    else if body.length < size then .incomplete
    else .complete ⟨UInt64.ofNat code, UInt32.ofNat size, body.take size⟩ (body.drop size)

/-- Read one frame from a stream that has ended after the given bytes. -/
def read (max : UInt32) (bytes : List UInt8) : Except TransportError (Frame × List UInt8) :=
  match parse max bytes with
  | .incomplete => .error .eof
  | .tooLarge size => .error (.frameTooLarge size max)
  | .complete f rest => .ok (f, rest)

/-- Read frames until one fails; every frame takes at least eight bytes, so the number of bytes is
enough fuel. -/
def readUntilError (max : UInt32) : Nat → List UInt8 → List Frame × TransportError
  | 0, _ => ([], .eof)
  | fuel + 1, bytes =>
    match read max bytes with
    | .error e => ([], e)
    | .ok (f, rest) => let r := readUntilError max fuel rest; (f :: r.1, r.2)

end Frame

end PeerProbe
