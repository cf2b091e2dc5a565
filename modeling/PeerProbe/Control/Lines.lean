import PeerProbe.Text.Blank

/-!
# Lines out of a byte stream

A line ends at a line feed, and one carriage return in front of it is dropped. When the stream ends,
bytes behind the last line feed count as a line as they are. How the bytes were cut into pieces on
their way makes no difference.
-/

namespace PeerProbe.Control

/-- The byte that ends a line. -/
def lineFeed : UInt8 := 10

/-- The byte that may stand in front of a line feed. -/
def carriageReturn : UInt8 := 13

/-- A line without one carriage return at its end. -/
def dropReturn (line : List UInt8) : List UInt8 :=
  if line.getLast? = some carriageReturn then line.dropLast else line

/-- The lines of a stream: the whole ones that wait to be taken, the beginning of the next one, and
whether the stream has ended. -/
structure LineReader where
  ready : List (List UInt8)
  pending : List UInt8
  ended : Bool
  deriving DecidableEq, Repr

namespace LineReader

/-- A stream of which nothing has arrived. -/
def empty : LineReader := ⟨[], [], false⟩

/-- More bytes arrive. -/
def feed (r : LineReader) (bytes : List UInt8) : LineReader :=
  if r.ended then r
  else
    let parts := Text.pieces lineFeed (r.pending ++ bytes)
    { r with
      ready := r.ready ++ parts.dropLast.map dropReturn
      pending := parts.getLastD [] }

/-- The stream ends. -/
def finish (r : LineReader) : LineReader :=
  if r.ended then r
  else ⟨r.ready ++ (if r.pending.isEmpty then [] else [r.pending]), [], true⟩

/-- Take the next line. -/
def take? (r : LineReader) : Option (List UInt8 × LineReader) :=
  match r.ready with
  | [] => none
  | line :: rest => some (line, { r with ready := rest })

end LineReader

end PeerProbe.Control
