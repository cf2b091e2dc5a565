import PeerProbe.Wire.Frame

/-!
# Byte streams and framed reads

Bytes arrive on a stream in pieces of any size, until the remote ends it or it breaks. A framed read
takes what has arrived off the stream at every poll and keeps it until the frame is whole; a reader
that gives the read up loses what it has taken.
-/

namespace PeerProbe

/-- How a stream ends: the remote closed it, or it broke. -/
inductive StreamEnd where
  | closed
  | broken (kind : IoKind) (reason : String)
  deriving DecidableEq, Repr

/-- The error of a read at the end of a stream. -/
def StreamEnd.error : StreamEnd → TransportError
  | .closed => .eof
  | .broken .unexpectedEof _ => .eof
  | .broken kind reason => .io kind reason

/-- A stream: the bytes that have arrived and were not taken, its end if it has one, what was
written to it, and the fault that writes run into. -/
structure ByteStream where
  arrived : List UInt8
  ending : Option StreamEnd
  written : List UInt8
  writeFault : Option (IoKind × String)
  deriving DecidableEq, Repr

namespace ByteStream

/-- A fresh stream. -/
def fresh : ByteStream := ⟨[], none, [], none⟩

/-- More bytes arrive, unless the stream has ended. -/
def deliver (s : ByteStream) (bytes : List UInt8) : ByteStream :=
  if s.ending.isSome then s else { s with arrived := s.arrived ++ bytes }

/-- The stream ends, unless it has. -/
def finish (s : ByteStream) (e : StreamEnd) : ByteStream :=
  if s.ending.isSome then s else { s with ending := some e }

/-- What a poll of a framed read comes to. -/
inductive Polled where
  | frame (f : Frame) (s : ByteStream)
  | failed (e : TransportError) (s : ByteStream)
  | ahead (taken : List UInt8) (s : ByteStream)
  | waiting
  deriving DecidableEq

/-- Poll a framed read that has taken some bytes so far. A frame that declares too much is refused
as soon as its head is there, and only the head is taken. -/
def pollFrame (max : UInt32) (taken : List UInt8) (s : ByteStream) : Polled :=
  let all := taken ++ s.arrived
  match Frame.parse max all with
  | .complete f rest => .frame f { s with arrived := rest }
  | .tooLarge size => .failed (.frameTooLarge size max) { s with arrived := all.drop 8 }
  | .incomplete =>
    match s.ending with
    | some e => .failed e.error { s with arrived := [] }
    | none => if s.arrived.isEmpty then .waiting else .ahead all { s with arrived := [] }

/-- Write bytes. -/
def write (s : ByteStream) (bytes : List UInt8) : Except TransportError Unit × ByteStream :=
  match s.writeFault with
  | some (kind, reason) => (.error (.io kind reason), s)
  | none => (.ok (), { s with written := s.written ++ bytes })

/-- Write one frame. -/
def writeFrame (s : ByteStream) (code : UInt64) (payload : List UInt8) :
    Except TransportError Unit × ByteStream :=
  match Frame.write code payload with
  | .ok bytes => s.write bytes
  | .error e => (.error e, s)

end ByteStream

end PeerProbe
