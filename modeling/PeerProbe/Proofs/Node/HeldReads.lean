import PeerProbe.Proofs.Node.Kept
import PeerProbe.Proofs.Tcp.Serving

/-!
# What a held peer reads over TCP

The task that holds a peer looks at its events first, and a look that finds one gives up the read
under way. Over TCP that read may have taken the front of a frame off the stream, and these bytes
are lost: the next read begins in the middle of a frame.

What the task reads is therefore what framed reads yield on the bytes that arrived, less those that
given-up reads had taken. Nothing is lost, and the frames are those that were sent, exactly if every
read that was given up had taken nothing by then.
-/

namespace PeerProbe

/-- What became of the bytes that arrived on a held connection: all of them, those of them that no
given-up read has taken along, what each given-up read had taken, and the results that the reader
saw. -/
structure Reads where
  arrived : List UInt8
  intact : List UInt8
  lost : List (List UInt8)
  results : List (Except TransportError Frame)

namespace Reads

/-- The task begins to read, and some bytes are there. -/
def begun (unread : List UInt8) : Reads := ⟨unread, unread, [], []⟩

/-- More bytes arrive. -/
def arrive (r : Reads) (bytes : List UInt8) : Reads :=
  { r with arrived := r.arrived ++ bytes, intact := r.intact ++ bytes }

/-- A read is given up that has taken some bytes, in front of those that were not read. -/
def giveUp (r : Reads) (taken unread : List UInt8) : Reads :=
  { r with
    intact := r.intact.take (r.intact.length - (taken.length + unread.length)) ++ unread
    lost := r.lost ++ [taken] }

/-- A read ends with a result. -/
def result (r : Reads) (item : Except TransportError Frame) : Reads :=
  { r with results := r.results ++ [item] }

/-- A poll of a read ends it with a result, or does not end it. -/
def polled {σ : Type} (r : Reads) : ReadPoll σ → Reads
  | .ready item _ => r.result item
  | _ => r

/-- What a step of a holding task makes of it: a look at an event gives the read up and begins anew,
unless it is the end of the holding, and a look at the connection may have a result. -/
def after {σ : Type} [Transport σ] (r : Reads) (h : HeldPeer) (now : Nat) (t : σ)
    (unread : List UInt8) : Reads :=
  match if h.watching then h.lookAtEvents? t else none with
  | some s => if s.1.phase = .holding then r.giveUp h.taken unread else r
  | none => r.polled (Transport.read now h.conn h.taken t)

end Reads

/-! ## The task -/

namespace Reads

variable {h : HeldPeer} {t : Tcp} {g : ConnId} {c : TcpConn} {r : Reads}

/-- How far the reading has come. While the task holds, everything in front of what the read under
way has taken has been read; at the end of the holding, no more is. -/
inductive Stands (r : Reads) (h : HeldPeer) (t : Tcp) (g : ConnId) (c : TcpConn) : Prop where
  | holding (front : List UInt8) (hphase : h.phase = .holding) (hconn : h.conn = g)
      (hserves : t.Serves g c)
      (hintact : r.intact = front ++ (h.taken ++ (t.stream c.stream).arrived))
      (hfront : ∀ ending more, Frame.items t.maxFrame ending (front ++ more) =
        r.results ++ Frame.items t.maxFrame ending more)
      (hok : ∀ e, .error e ∉ r.results)
  | ended (hphase : h.phase = .leaving)
      (hresults : r.results <+: Frame.items t.maxFrame (t.stream c.stream).ending r.intact)
      (herror : ∀ e, .error e ∈ r.results →
        r.results = Frame.items t.maxFrame (t.stream c.stream).ending r.intact)

/-- What is intact is what arrived, less what was lost. -/
structure Balanced (r : Reads) : Prop where
  sublist : r.intact.Sublist r.arrived
  length : r.arrived.length = r.intact.length + r.lost.flatten.length

/-- Bytes that arrive are intact. -/
theorem Balanced.arrive (hr : r.Balanced) (bytes : List UInt8) : (r.arrive bytes).Balanced := by
  refine ⟨hr.sublist.append_right bytes, ?_⟩
  have hlength := hr.length
  simp only [Reads.arrive, List.length_append]
  omega

/-- A read that is given up takes along what it has taken. -/
theorem intact_giveUp {front taken unread : List UInt8}
    (hintact : r.intact = front ++ (taken ++ unread)) :
    (r.giveUp taken unread).intact = front ++ unread := by
  have hfront : r.intact.take (r.intact.length - (taken.length + unread.length)) = front := by
    have hlength : r.intact.length - (taken.length + unread.length) = front.length := by
      rw [hintact, List.length_append, List.length_append, Nat.add_sub_cancel]
    rw [hlength, hintact, List.take_left]
  rw [giveUp, hfront]

/-- A read that is given up loses what it has taken. -/
theorem Balanced.giveUp (hr : r.Balanced) {front taken unread : List UInt8}
    (hintact : r.intact = front ++ (taken ++ unread)) : (r.giveUp taken unread).Balanced := by
  have hsublist := hr.sublist
  have hlength := hr.length
  rw [hintact] at hsublist hlength
  constructor
  · rw [intact_giveUp hintact]
    exact ((List.sublist_append_right taken unread).append_left front).trans hsublist
  · rw [intact_giveUp hintact]
    simp only [Reads.giveUp, List.length_append, List.flatten_append, List.flatten_singleton] at *
    omega

/-- Nothing is missing exactly if nothing was lost. -/
theorem Balanced.intact_eq_arrived_iff (hr : r.Balanced) :
    r.intact = r.arrived ↔ ∀ bytes ∈ r.lost, bytes = [] := by
  have hlength := hr.length
  rw [← List.flatten_eq_nil_iff, ← List.length_eq_zero_iff]
  constructor
  · intro heq
    rw [heq] at hlength
    omega
  · exact fun hzero => hr.sublist.eq_of_length (by omega)

/-- What is read stands while the connection goes on around the task. -/
theorem Stands.goesOn (hr : r.Stands h t g c) (hphase : h.phase = .holding) {bytes : List UInt8}
    {t' : Tcp} (ht : t.GoesOn g c bytes t') : (r.arrive bytes).Stands h t' g c := by
  cases hr with
  | ended hleaving => simp [hphase] at hleaving
  | holding front _ hconn hserves hintact hfront hok =>
    refine .holding front hphase hconn ht.serves ?_ (by rwa [ht.maxFrame]) hok
    rw [arrive, hintact, ht.arrived, List.append_assoc, List.append_assoc]

/-- A read that is given up leaves what is read to stand, on the bytes that are intact. -/
theorem Stands.giveUp (hr : r.Stands h t g c) (hphase : h.phase = .holding) (f : Feed)
    {h' : HeldPeer} (hphase' : h'.phase = .holding) (hconn' : h'.conn = h.conn)
    (htaken : h'.taken = []) :
    (r.giveUp h.taken (t.stream c.stream).arrived).Stands h' (Transport.withFeed f t) g c := by
  cases hr with
  | ended hleaving => simp [hphase] at hleaving
  | holding front _ hconn hserves hintact hfront hok =>
    refine .holding front hphase' (hconn'.trans hconn) (hserves.withFeed f) ?_ hfront hok
    rw [intact_giveUp hintact, htaken]
    rfl

/-- So does the end of the holding on a signal. -/
theorem Stands.leave (hr : r.Stands h t g c) (hphase : h.phase = .holding) (f : Feed)
    {h' : HeldPeer} (hphase' : h'.phase = .leaving) :
    r.Stands h' (Transport.withFeed f t) g c := by
  cases hr with
  | ended hleaving => simp [hphase] at hleaving
  | holding front _ hconn hserves hintact hfront hok =>
    refine .ended hphase' ?_ fun e he => absurd he (hok e)
    rw [hintact]
    exact hfront _ _ ▸ List.prefix_append _ _

/-- A look at the connection goes on with what is read. -/
theorem Stands.look (hr : r.Stands h t g c) (hphase : h.phase = .holding) {now : Nat}
    {s : HeldPeer.Stepped Tcp} (hs : h.lookAtConnection? now t = some s) :
    (r.polled (Transport.read now h.conn h.taken t)).Stands s.1 s.2.1 g c := by
  cases hr with
  | ended hleaving => simp [hphase] at hleaving
  | holding front _ hconn hserves hintact hfront hok =>
    subst hconn
    unfold HeldPeer.lookAtConnection? at hs
    rw [hserves.read_eq] at hs ⊢
    cases hpoll : (t.stream c.stream).pollFrame t.maxFrame h.taken with
    | frame f s' =>
      simp only [hpoll] at hs ⊢
      obtain rfl := Option.some.inj hs
      obtain ⟨read, hread, hnext⟩ := ByteStream.pollFrame_frame hpoll
      rw [HeldPeer.transport_onItem]
      refine .holding (front ++ read) ((HeldPeer.phase_onItem_ok h f _).trans hphase)
        (HeldPeer.conn_onItem h _ _) (hserves.setStream _ _) ?_ (fun ending more => ?_) ?_
      · rw [HeldPeer.taken_onItem, hserves.stream_setStream, List.nil_append, List.append_assoc,
          ← hread]
        exact hintact
      · change Frame.items t.maxFrame ending (front ++ read ++ more) =
          (r.results ++ [.ok f]) ++ Frame.items t.maxFrame ending more
        rw [List.append_assoc, hfront, hnext, List.append_assoc, List.singleton_append]
      · simpa [polled, result] using hok
    | failed e s' =>
      simp only [hpoll] at hs ⊢
      obtain rfl := Option.some.inj hs
      obtain ⟨hending, hlast⟩ := ByteStream.pollFrame_failed hpoll
      obtain ⟨hstream, hmax⟩ := Tcp.stream_release (t.setStream c.stream s') h.conn c.stream
      have hall : r.results ++ [.error e] = Frame.items t.maxFrame (t.stream c.stream).ending
          r.intact := by rw [hintact, hfront, hlast]
      rw [HeldPeer.transport_onItem]
      refine .ended (HeldPeer.phase_onItem_error h e _) ?_ fun _ _ => ?_
      · rw [hstream, hmax, hserves.stream_setStream, hending]
        exact hall ▸ List.prefix_rfl
      · rw [hstream, hmax, hserves.stream_setStream, hending]
        exact hall
    | ahead taken s' =>
      simp only [hpoll] at hs ⊢
      obtain rfl := Option.some.inj hs
      obtain ⟨rfl, hnone⟩ := ByteStream.pollFrame_ahead hpoll
      refine .holding front hphase rfl (hserves.setStream _ _) ?_ hfront hok
      rw [hserves.stream_setStream, hnone, List.append_nil]
      exact hintact
    | waiting => simp [hpoll] at hs

/-- A step of a holding task goes on with what is read. -/
theorem Stands.after (hr : r.Stands h t g c) (hphase : h.phase = .holding) {now : Nat}
    {s : HeldPeer.Stepped Tcp} (hs : h.step? now t = some s) :
    (r.after h now t (t.stream c.stream).arrived).Stands s.1 s.2.1 g c := by
  simp only [HeldPeer.step?, hphase] at hs
  unfold Reads.after
  cases hlook : (if h.watching then h.lookAtEvents? t else none) with
  | none =>
    simp only [hlook] at hs ⊢
    exact hr.look hphase hs
  | some s' =>
    simp only [hlook, Option.some.injEq] at hs ⊢
    subst hs
    obtain ⟨-, hevents⟩ := Option.ite_none_right_eq_some.mp hlook
    obtain ⟨u, -, hu, hleaves | ⟨hholds, htaken, hconn⟩⟩ := HeldPeer.use_of_lookAtEvents? hevents
    · rw [if_neg (by simp [hleaves]), hu]
      exact hr.leave hphase _ hleaves
    · rw [if_pos (hholds.trans hphase), hu]
      exact hr.giveUp hphase _ (hholds.trans hphase) hconn htaken

/-- Nothing is missing behind a step of a holding task but what was lost. -/
theorem Balanced.after (hb : r.Balanced) (hr : r.Stands h t g c) (hphase : h.phase = .holding)
    (now : Nat) : (r.after h now t (t.stream c.stream).arrived).Balanced := by
  cases hr with
  | ended hleaving => simp [hphase] at hleaving
  | holding front _ hconn hserves hintact hfront hok =>
    unfold Reads.after
    split
    · split
      · exact hb.giveUp hintact
      · exact hb
    · unfold polled
      split
      · exact ⟨hb.sublist, hb.length⟩
      · exact hb

/-- A task that has to wait has read all there is. -/
theorem Stands.items_eq_of_waiting (hr : r.Stands h t g c) {now : Nat}
    (hwaits : h.step? now t = none) :
    r.results = Frame.items t.maxFrame (t.stream c.stream).ending r.intact := by
  cases hr with
  | ended hleaving => simp [HeldPeer.step?, hleaving] at hwaits
  | holding front hphase hconn hserves hintact hfront hok =>
    subst hconn
    simp only [HeldPeer.step?, hphase] at hwaits
    split at hwaits
    · contradiction
    · rw [HeldPeer.lookAtConnection?, hserves.read_eq] at hwaits
      cases hpoll : (t.stream c.stream).pollFrame t.maxFrame h.taken with
      | frame | failed | ahead => simp [hpoll] at hwaits
      | waiting => rw [hintact, hfront, ByteStream.pollFrame_waiting hpoll, List.append_nil]

end Reads

namespace Node

variable {j : Nat} {g : ConnId} {c : TcpConn} {n : Node Tcp} {r : Reads}

/-- What a step of the task that holds a peer makes of what became of the bytes. -/
def readBy (n : Node Tcp) (j : Nat) (c : TcpConn) (r : Reads) : Reads :=
  match n.held[j]? with
  | some h => r.after h n.now n.transport (n.transport.stream c.stream).arrived
  | none => r

/-- A stretch of a node's run in which a task holds a peer and nobody else reads from its
connection, with what became of the bytes. It begins between two reads, and goes on with steps of
the task and with whatever else happens, until the end of the holding. -/
inductive Holding (j : Nat) (g : ConnId) (c : TcpConn) : Node Tcp → Reads → Prop where
  | begin {n : Node Tcp} {h : HeldPeer} (hh : n.held[j]? = some h) (hphase : h.phase = .holding)
      (hconn : h.conn = g) (hfresh : h.taken = []) (hserves : n.transport.Serves g c) :
      Holding j g c n (.begun (n.transport.stream c.stream).arrived)
  | own {n n' : Node Tcp} {r : Reads} {h : HeldPeer} (hrun : Holding j g c n r)
      (hh : n.held[j]? = some h) (hphase : h.phase = .holding)
      (hstep : n.step? (.held j) = some n') :
      Holding j g c n' (n.readBy j c r)
  | other {n n' : Node Tcp} {r : Reads} {h : HeldPeer} {bytes : List UInt8}
      (hrun : Holding j g c n r) (hh : n.held[j]? = some h) (hphase : h.phase = .holding)
      (hnext : Happens (fun _ => True) n n') (hsame : n'.held[j]? = some h)
      (hgoes : n.transport.GoesOn g c bytes n'.transport) :
      Holding j g c n' (r.arrive bytes)

/-- How far the reading has come, and what was lost, at every moment of such a stretch. -/
theorem stands_of_holding (hrun : Holding j g c n r) :
    ∃ h, n.held[j]? = some h ∧ r.Stands h n.transport g c ∧ r.Balanced := by
  induction hrun with
  | @begin n h hh hphase hconn hfresh hserves =>
    refine ⟨h, hh, .holding [] hphase hconn hserves (by rw [hfresh]; rfl) (fun _ _ => rfl) ?_,
      .refl _, rfl⟩
    exact fun e => List.not_mem_nil
  | own _ hh hphase hstep ih =>
    obtain ⟨h, hh', hstands, hbalanced⟩ := ih
    obtain rfl := Option.some.inj (hh.symm.trans hh')
    cases stepped_of_step? hstep with
    | held hh'' hs =>
      obtain rfl := Option.some.inj (hh.symm.trans hh'')
      simp only [readBy, hh]
      exact ⟨_, List.getElem?_set_self (List.getElem?_eq_some_iff.mp hh).1,
        hstands.after hphase hs, hbalanced.after hstands hphase _⟩
  | other _ hh hphase hnext hsame hgoes ih =>
    obtain ⟨h, hh', hstands, hbalanced⟩ := ih
    obtain rfl := Option.some.inj (hh.symm.trans hh')
    exact ⟨_, hsame, hstands.goesOn hphase hgoes, hbalanced.arrive _⟩

/-- The results that the reader of a held peer sees are those of framed reads on the bytes that
arrived, less what given-up reads had taken: so far, and all of them once the task waits or a read
has failed. Nothing is missing exactly if no read was given up that had taken something. -/
theorem results_of_holding (hrun : Holding j g c n r) :
    let items := Frame.items n.transport.maxFrame (n.transport.stream c.stream).ending r.intact
    r.results <+: items ∧
      (n.step? (.held j) = none ∨ (∃ e, .error e ∈ r.results) → r.results = items) ∧
      r.intact.Sublist r.arrived ∧ (r.intact = r.arrived ↔ ∀ bytes ∈ r.lost, bytes = []) := by
  obtain ⟨h, hh, hstands, hbalanced⟩ := stands_of_holding hrun
  refine ⟨?_, ?_, hbalanced.sublist, hbalanced.intact_eq_arrived_iff⟩
  · cases hstands with
    | holding front _ _ _ hintact hfront _ =>
      rw [hintact, hfront]
      exact List.prefix_append _ _
    | ended _ hresults => exact hresults
  · rintro (hwaits | ⟨e, he⟩)
    · simp only [step?, hh, Option.bind_some, heldStep?, Option.map_eq_none_iff] at hwaits
      exact hstands.items_eq_of_waiting hwaits
    · cases hstands with
      | holding _ _ _ _ _ _ hok => exact absurd he (hok e)
      | ended _ _ herror => exact herror e he

/-- Bytes may arrive while a task holds. -/
theorem Holding.deliver (hrun : Holding j g c n r)
    (hphase : n.held[j]?.map (·.phase) = some .holding)
    (hopen : (n.transport.stream c.stream).ending = none) (bytes : List UInt8) :
    Holding j g c (n.act (.move (Tcp.Move.deliver c.stream bytes))) (r.arrive bytes) := by
  obtain ⟨h, hh, hholds⟩ := Option.map_eq_some_iff.mp hphase
  obtain ⟨h', hh', hstands, -⟩ := stands_of_holding hrun
  obtain rfl := Option.some.inj (hh.symm.trans hh')
  cases hstands with
  | ended hleaving => simp [hholds] at hleaving
  | holding _ _ _ hserves =>
    exact .other hrun hh hholds (.act n _ trivial) hh (hserves.deliver hopen bytes n.now)

/-- A task of the transport may take a step that leaves the connections and streams alone, whatever
it announces. -/
theorem Holding.background (hrun : Holding j g c n r)
    (hphase : n.held[j]?.map (·.phase) = some .holding) {i : Nat} {n' : Node Tcp}
    (hstep : n.step? (.background i) = some n')
    (hconns : n'.transport.conns = n.transport.conns)
    (hsessions : n'.transport.sessions = n.transport.sessions)
    (hstreams : n'.transport.streams = n.transport.streams)
    (hmax : n'.transport.maxFrame = n.transport.maxFrame) : Holding j g c n' (r.arrive []) := by
  obtain ⟨h, hh, hholds⟩ := Option.map_eq_some_iff.mp hphase
  obtain ⟨h', hh', hstands, -⟩ := stands_of_holding hrun
  obtain rfl := Option.some.inj (hh.symm.trans hh')
  have hsame : n'.held[j]? = some h := by
    cases stepped_of_step? hstep with
    | background => exact hh
  cases hstands with
  | ended hleaving => simp [hholds] at hleaving
  | holding _ _ _ hserves =>
    exact .other hrun hh hholds (.step _ hstep) hsame
      (hserves.goesOn hconns hsessions hstreams hmax)

/-- A task that holds and can take a step takes it when it is run once. -/
theorem Holding.runTask (hrun : Holding j g c n r)
    (hphase : n.held[j]?.map (·.phase) = some .holding)
    (hstep : (n.step? (.held j)).isSome = true) :
    Holding j g c (n.runTasks [.held j] 1) (n.readBy j c r) := by
  obtain ⟨h, hh, hholds⟩ := Option.map_eq_some_iff.mp hphase
  exact .own hrun hh hholds (step?_eq_some_runTasks hstep)

/-! ## A read that an unrelated event gives up -/

/-- The record of somebody else. -/
def otherRef : PeerRef := ⟨.replicate 64 2, .v4 .loopback, 30305, 30305⟩

/-- A node over TCP that holds a peer, while a dial to somebody else has failed, which was not
announced yet. -/
def holdingNode : Node Tcp :=
  (((create (.create ⟨"127.0.0.1:0", none, defaultNodeName, 1024, .ofMillis 5000⟩ ownRef.id
      (.ok ownRef.tcpEndpoint)) ⟨none, .mainnet, 1000, false⟩ 1000).perform
        [.call 0, .call 1, .attempt 0, .watcher 0, .background 0] 40
      [.order .start, .order (.attempt false 1 guestRef 1000), .move (Tcp.Move.connect 0),
        .move (Tcp.Move.deliver 0 guestRef.id.bytes)]).perform [.background 1] 1
    [.move (Tcp.Move.dial otherRef), .move (Tcp.Move.refuse 1 "refused")])

/-- The connection to the held peer. -/
def heldConn : TcpConn := ⟨guestRef, 0, false, 0⟩

/-- The first bytes of a frame arrive, and the task takes them. -/
def frontNode : Node Tcp :=
  (holdingNode.act (.move (Tcp.Move.deliver 0 [0, 0, 0, 2]))).runTasks [.held 0] 1

/-- The failure of the other dial is announced, and the task looks at it. -/
def announcedNode : Node Tcp := (frontNode.runTasks [.background 1] 1).runTasks [.held 0] 1

/-- The rest of the frame arrives with another one, and the task reads on. -/
def shiftedNode : Node Tcp :=
  (announcedNode.act (.move (Tcp.Move.deliver 0 [0, 0, 0, 0, 0, 0, 0, 3, 0, 0, 0, 0]))).runTasks
    [.held 0] 1

/-- What became of the bytes by then. -/
def shiftedReads : Reads :=
  let front := Node.readBy (holdingNode.act (.move (Tcp.Move.deliver 0 [0, 0, 0, 2]))) 0 heldConn
    ((Reads.begun []).arrive [0, 0, 0, 2])
  let announced := (frontNode.runTasks [.background 1] 1).readBy 0 heldConn (front.arrive [])
  let rest := [0, 0, 0, 0, 0, 0, 0, 3, 0, 0, 0, 0]
  (announcedNode.act (.move (Tcp.Move.deliver 0 rest))).readBy 0 heldConn (announced.arrive rest)

set_option maxRecDepth 4000 in
/-- Two frames without a payload arrive. The event is about somebody else, but the bytes taken by
then are lost, and one frame is read that was never sent. -/
theorem facts_shiftedReads :
    shiftedReads.arrived = Frame.headBytes 2 0 ++ Frame.headBytes 3 0 ∧
      shiftedReads.lost = [[0, 0, 0, 2]] ∧
      shiftedReads.results.map Except.toOption = [some ⟨0, 3, [0, 0, 0]⟩] ∧
      (Frame.items shiftedNode.transport.maxFrame (shiftedNode.transport.stream 0).ending
        shiftedReads.arrived).map Except.toOption = [some ⟨2, 0, []⟩, some ⟨3, 0, []⟩] := by
  refine ⟨?_, ?_, ?_, ?_⟩ <;> decide +kernel

set_option maxRecDepth 4000 in
/-- The task holds all the way. -/
theorem holding_shiftedNode : Holding 0 0 heldConn shiftedNode shiftedReads := by
  have hheld : (holdingNode.held[0]?.map fun h => (h.phase, h.conn, h.taken)) =
      some (.holding, 0, []) := by decide +kernel
  have hserves : holdingNode.transport.Serves 0 heldConn :=
    ⟨by decide +kernel, by decide +kernel, by decide +kernel⟩
  obtain ⟨h, hh, hfacts⟩ := Option.map_eq_some_iff.mp hheld
  obtain ⟨hphase, hconn, htaken⟩ := Prod.mk.inj hfacts |>.imp_right Prod.mk.inj
  have hunread : (holdingNode.transport.stream heldConn.stream).arrived = [] := by decide +kernel
  have hbegun : Holding 0 0 heldConn holdingNode (.begun []) :=
    hunread ▸ .begin hh hphase hconn htaken hserves
  have hfront : Holding 0 0 heldConn frontNode _ :=
    (hbegun.deliver (by decide +kernel) (by decide +kernel) [0, 0, 0, 2]).runTask
      (by decide +kernel) (by decide +kernel)
  have hstep : frontNode.step? (.background 1) = some (frontNode.runTasks [.background 1] 1) :=
    step?_eq_some_runTasks (by decide +kernel)
  have hannounced : Holding 0 0 heldConn announcedNode _ :=
    (hfront.background (by decide +kernel) hstep (by decide +kernel) (by decide +kernel)
      (by decide +kernel) (by decide +kernel)).runTask (by decide +kernel) (by decide +kernel)
  exact (hannounced.deliver (by decide +kernel) (by decide +kernel)
    [0, 0, 0, 0, 0, 0, 0, 3, 0, 0, 0, 0]).runTask (by decide +kernel) (by decide +kernel)

/-- The bytes that are not lost are read as the one frame that they begin with. -/
theorem results_of_holding_shiftedNode :
    ∃ items, items = Frame.items shiftedNode.transport.maxFrame
        (shiftedNode.transport.stream heldConn.stream).ending shiftedReads.intact ∧
      shiftedReads.results <+: items ∧ shiftedReads.intact ≠ shiftedReads.arrived := by
  obtain ⟨hfirst, -, -, hbalanced⟩ := results_of_holding holding_shiftedNode
  obtain ⟨-, hlost, -⟩ := facts_shiftedReads
  exact ⟨_, rfl, hfirst, fun heq => by simpa [hlost] using hbalanced.mp heq⟩

/-- An event about somebody else may shift the frames: the results of a held peer's reader need not
be those of framed reads on the bytes that arrived. -/
theorem not_results_of_arrived :
    ¬ ∀ (t : Tcp) (cfg : AttemptConfig) (timeout : Nat) (n : Node Tcp) (j : Nat) (g : ConnId)
      (c : TcpConn) (r : Reads), Reachable (fun _ => True) (create t cfg timeout) n →
        Holding j g c n r →
          r.results <+: Frame.items n.transport.maxFrame (n.transport.stream c.stream).ending
            r.arrived := by
  intro h
  have hreach : Reachable (fun _ => True) _ shiftedNode :=
    (((((reachable_perform _ _ _ fun _ _ => trivial).trans
      (reachable_perform _ _ _ fun _ _ => trivial)).next
        (.act _ _ trivial)).trans (reachable_runTasks _ _ _ _)).trans
          ((reachable_runTasks _ _ _ _).trans (reachable_runTasks _ _ _ _))).trans
            ((Reachable.next .first (.act _ _ trivial)).trans (reachable_runTasks _ _ _ _))
  obtain ⟨-, -, hresults, hitems⟩ := facts_shiftedReads
  have hfirst := (h _ _ _ _ _ _ _ _ hreach holding_shiftedNode).map Except.toOption
  rw [hresults] at hfirst
  change _ <+: (Frame.items shiftedNode.transport.maxFrame
    (shiftedNode.transport.stream 0).ending shiftedReads.arrived).map Except.toOption at hfirst
  rw [hitems] at hfirst
  exact absurd hfirst (by decide)

end Node

end PeerProbe
