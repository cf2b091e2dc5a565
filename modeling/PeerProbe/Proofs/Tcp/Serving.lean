import PeerProbe.Proofs.Wire.Frames
import PeerProbe.Tcp.Basic

/-!
# Connections in service

A connection is in service while it is there, on its stream, and is not cancelled. A read from it is
then a poll of its stream and nothing else. Whatever leaves the connections, the sessions and the
streams alone leaves it in service, and so do bytes that arrive.
-/

namespace PeerProbe

namespace Tcp

variable {t t' : Tcp} {g : ConnId} {c : TcpConn} {taken : List UInt8}

/-- A connection is there, on its stream, and is not cancelled. -/
structure Serves (t : Tcp) (g : ConnId) (c : TcpConn) : Prop where
  conn : t.conns[g]? = some c
  sound : t.isCancelled c = false
  stream : c.stream < t.streams.length

/-- What happens around a connection while it is read from by one task only: it stays, and some bytes
arrive. -/
structure GoesOn (t : Tcp) (g : ConnId) (c : TcpConn) (bytes : List UInt8) (t' : Tcp) : Prop where
  serves : t'.Serves g c
  maxFrame : t'.maxFrame = t.maxFrame
  arrived : (t'.stream c.stream).arrived = (t.stream c.stream).arrived ++ bytes

/-- Reading from the feed leaves a connection alone. -/
theorem Serves.withFeed (h : t.Serves g c) (f : Feed) :
    Serves (Transport.withFeed f t : Tcp) g c := ⟨h.conn, h.sound, h.stream⟩

/-- Reading from its stream leaves a connection alone. -/
theorem Serves.setStream (h : t.Serves g c) (i : Nat) (s : ByteStream) :
    (t.setStream i s).Serves g c :=
  ⟨h.conn, h.sound, by rw [Tcp.setStream, List.length_set]; exact h.stream⟩

/-- The stream of a connection is what it was set to. -/
theorem Serves.stream_setStream (h : t.Serves g c) (s : ByteStream) :
    (t.setStream c.stream s).stream c.stream = s := by
  simp [Tcp.setStream, Tcp.stream, List.getD, List.getElem?_set_self h.stream]

/-- Nothing arrives while the connections, the sessions and the streams stay as they are. -/
theorem Serves.goesOn (h : t.Serves g c) (hconns : t'.conns = t.conns)
    (hsessions : t'.sessions = t.sessions) (hstreams : t'.streams = t.streams)
    (hmax : t'.maxFrame = t.maxFrame) : t.GoesOn g c [] t' where
  serves := by
    refine ⟨hconns ▸ h.conn, ?_, hstreams ▸ h.stream⟩
    have hsound := h.sound
    unfold isCancelled isOver at hsound ⊢
    rwa [hsessions]
  maxFrame := hmax
  arrived := by rw [Tcp.stream, hstreams, List.append_nil, Tcp.stream]

/-- Bytes arrive on a stream that has not ended, in pieces of any size. -/
theorem Serves.deliver (h : t.Serves g c) (hopen : (t.stream c.stream).ending = none)
    (bytes : List UInt8) (now : Nat) :
    t.GoesOn g c bytes (t.move now (.deliver c.stream bytes)) where
  serves := h.setStream _ _
  maxFrame := rfl
  arrived := by
    change ((t.setStream c.stream _).stream c.stream).arrived = _
    simp [h.stream_setStream, ByteStream.deliver, hopen]

/-- A read from a sound connection is a poll of its stream. -/
theorem Serves.read_eq (h : t.Serves g c) (now : Nat) :
    Transport.read now g taken t =
      match (t.stream c.stream).pollFrame t.maxFrame taken with
      | .frame f s => .ready (.ok f) (t.setStream c.stream s)
      | .failed e s => .ready (.error e) ((t.setStream c.stream s).release g)
      | .ahead taken s => .ahead taken (t.setStream c.stream s)
      | .waiting => .waiting := by
  change t.read now g taken = _
  rw [read, h.conn]
  exact if_neg (by rw [h.sound]; exact Bool.false_ne_true)

/-- What a read from a sound connection comes to, by what is found on its stream. -/
theorem Serves.polls (h : t.Serves g c) (now : Nat) :
    ∃ polled, (t.stream c.stream).Polls t.maxFrame taken polled ∧ t.read now g taken =
      match polled with
      | .frame f s => .ready (.ok f) (t.setStream c.stream s)
      | .failed e s => .ready (.error e) ((t.setStream c.stream s).release g)
      | .ahead taken s => .ahead taken (t.setStream c.stream s)
      | .waiting => .waiting :=
  ⟨_, ByteStream.polls_pollFrame t.maxFrame taken (t.stream c.stream), h.read_eq now⟩

/-- The end of a connection is not the end of its stream. -/
theorem stream_release (t : Tcp) (g : ConnId) (i : Nat) :
    (t.release g).stream i = t.stream i ∧ (t.release g).maxFrame = t.maxFrame := by
  unfold release releaseSlot
  split
  · split
    · split <;> exact ⟨rfl, rfl⟩
    · exact ⟨rfl, rfl⟩
  · exact ⟨rfl, rfl⟩

end Tcp

end PeerProbe
