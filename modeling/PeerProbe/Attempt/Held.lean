import PeerProbe.Eth.Reading
import PeerProbe.Transport

/-!
# Held peers

A peer that stays connected after its attempt has a task of its own: it reads and logs what the
peer sends until the peer is removed, the remote hangs up or the feed closes. Events are looked at
before the connection, and a look that finds one gives up the read that was under way.
-/

namespace PeerProbe

/-- How far a held peer's task has come. -/
inductive HeldPhase where
  | holding
  | leaving
  | closing
  | done
  deriving DecidableEq, Repr

/-- A kept peer whose connection left the transport: its subscription, whether that is still
looked at, the reader, the bytes that the read under way has taken, how many reads ended before it,
and the number of messages seen. -/
structure HeldPeer where
  conn : ConnId
  peer : PeerRef
  subscription : Nat
  watching : Bool
  reading : Eth.Reading
  taken : List UInt8
  reads : Nat
  seen : Nat
  phase : HeldPhase

namespace HeldPeer

variable {σ : Type} [Transport σ]

/-- A held peer that has not run yet. -/
def create (conn : ConnId) (peer : PeerRef) (subscription : Nat) (reading : Eth.Reading) :
    HeldPeer :=
  ⟨conn, peer, subscription, true, reading, [], 0, 0, .holding⟩

/-- What a step of a task changes. -/
abbrev Stepped (σ : Type) := HeldPeer × σ × List Log.Entry

/-- The log entry about the end. -/
def releaseEntry (h : HeldPeer) (why : String) : Log.Entry :=
  .network "orchestrator" .info "peer_released" (some h.peer.shortId)
    (some (why ++ " messages=" ++ toString h.seen))

/-- The end of holding. -/
def leave (h : HeldPeer) (why : String) (t : σ) : Stepped σ :=
  ({ h with phase := .leaving }, t, [h.releaseEntry why])

/-- Whether an event says that the peer was removed. -/
def isRemoval (h : HeldPeer) (e : PeerEvent) : Bool :=
  e.change = .dropped && e.peer.samePeer h.peer

/-- The peer with a read begun anew; what an unfinished one has taken is lost. -/
def reread (h : HeldPeer) : HeldPeer := { h with taken := [], reads := h.reads + 1 }

/-- A look at the events, unless there is nothing to see. Falling behind only costs the removal
signal: reads still end when the remote hangs up. -/
def lookAtEvents? (h : HeldPeer) (t : σ) : Option (Stepped σ) :=
  let feed := Transport.feed t
  match feed.receive? h.subscription with
  | some (e, feed) =>
    let t := Transport.withFeed feed t
    if h.isRemoval e then some (h.leave "removed" t) else some (h.reread, t, [])
  | none =>
    if feed.isOver h.subscription then
      let (e, feed) := feed.takeError h.subscription
      let t := Transport.withFeed feed t
      match e with
      | some .overflow => some ({ h.reread with watching := false }, t, [])
      | some (.transport _) => some ({ h.reread with watching := false }, t, [])
      | _ => some (h.leave "transport stopped" t)
    else none

/-- The task after its reader has dealt with an item. -/
def onItem (h : HeldPeer) (item : Except TransportError Frame) (t : σ) : Stepped σ :=
  let entries := h.reading.entries h.peer.shortId item
  let (report, reading) := h.reading.next item
  let h := { h.reread with reading }
  match report with
  | .ok _ => ({ h with seen := h.seen + 1 }, t, entries)
  | .error (.decode _) => (h, t, entries)
  | .error (.transport e) => h.leave e.message t

/-- A look at the connection, unless nothing has come. -/
def lookAtConnection? (h : HeldPeer) (now : Nat) (t : σ) : Option (Stepped σ) :=
  match Transport.read now h.conn h.taken t with
  | .ready item t => some (h.onItem item t)
  | .ahead taken t => some ({ h with taken }, t, [])
  | .waiting => none

/-- One step of the task, unless it has to wait or is done. -/
def step? (h : HeldPeer) (now : Nat) (t : σ) : Option (Stepped σ) :=
  match h.phase with
  | .holding =>
    match if h.watching then h.lookAtEvents? t else none with
    | some stepped => some stepped
    | none => h.lookAtConnection? now t
  | .leaving => some ({ h with phase := .closing }, Transport.unsubscribe h.subscription t, [])
  | .closing => some ({ h with phase := .done }, Transport.release h.conn t, [])
  | .done => none

/-- The times the task waits for. -/
def dues (h : HeldPeer) (t : σ) : List Nat :=
  match h.phase with
  | .holding => Transport.readDues h.conn t
  | _ => []

end HeldPeer

end PeerProbe
