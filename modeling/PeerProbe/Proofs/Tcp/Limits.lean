import PeerProbe.Proofs.Tcp.Generations
import PeerProbe.Proofs.Tcp.Serving
import PeerProbe.Proofs.Tcp.Sessions
import PeerProbe.Proofs.Tcp.Setup
import PeerProbe.Proofs.Wire.Lengths

/-!
# The frame limit and the message limit

Two limits guard what comes in on a connection. A frame over the frame limit is refused by its head,
and that is the end of the connection; a message over the message limit is read, reported as too
large, and the next one is read. The frame limit is the larger one of a fixed size and the message
limit, so that a message that is too large still reaches whoever judges it.

It does exactly as long as the message limit is below the fixed size. From there on the two limits
are the same, and a message of one byte over the message limit ends the connection without being
judged; only at the largest limit of all there is no such message.
-/

namespace PeerProbe

namespace ByteStream

variable {max : UInt32} {todo : List (UInt64 × List UInt8)} {all rest : List UInt8}

/-- Where the bytes of some messages arrive, the first of them is found as soon as it is there, and
nothing else is ever found. -/
theorem parse_of_arriving (hfits : ∀ m ∈ todo, m.1.toNat < 2 ^ 32 ∧ m.2.length ≤ max.toNat)
    (harriving : all ++ rest = messageBytes todo) :
    (∃ m later unread, todo = m :: later ∧
      Frame.parse max all = .complete (Frame.ofPayload m.1 m.2) unread ∧
        unread ++ rest = messageBytes later) ∨
      Frame.parse max all = .incomplete ∧ ∀ m later, todo = m :: later → ¬ messageBytes [m] <+: all := by
  have hnil : Frame.parse max [] = .incomplete := rfl
  cases hparse : Frame.parse max all with
  | complete f unread =>
    obtain ⟨front, hfront, -, hmore⟩ := Frame.parse_complete hparse
    have hwhole : Frame.parse max (messageBytes todo) = .complete f (unread ++ rest) := by
      rw [← harriving, hfront, List.append_assoc, hmore]
    cases todo with
    | nil => exact absurd (hnil.symm.trans hwhole) nofun
    | cons m later =>
      rw [parse_messageBytes_cons (hfits m List.mem_cons_self)] at hwhole
      obtain ⟨rfl, hlater⟩ := Frame.Parsed.complete.inj hwhole
      exact .inl ⟨m, later, unread, rfl, rfl, hlater.symm⟩
  | tooLarge size =>
    obtain ⟨code, behind, hcode, hall, hmax⟩ := Frame.parse_eq_tooLarge_iff.mp hparse
    have hwhole : Frame.parse max (messageBytes todo) = .tooLarge size := by
      apply Frame.parse_eq_tooLarge_iff.mpr
      exact ⟨code, behind ++ rest, hcode, by rw [← harriving, hall, List.append_assoc], hmax⟩
    cases todo with
    | nil => exact absurd (hnil.symm.trans hwhole) nofun
    | cons m later =>
      rw [parse_messageBytes_cons (hfits m List.mem_cons_self)] at hwhole
      contradiction
  | incomplete =>
    refine .inr ⟨rfl, ?_⟩
    rintro m later rfl ⟨unread, rfl⟩
    have hm : Frame.parse max (messageBytes [m]) = .complete _ (messageBytes []) :=
      parse_messageBytes_cons (hfits m List.mem_cons_self) []
    obtain ⟨front, hfront, -, hmore⟩ := Frame.parse_complete hm
    have hnothing : messageBytes [] = [] := rfl
    rw [hnothing, List.append_nil] at hfront
    rw [hfront, hmore] at hparse
    contradiction

theorem messageBytes_append (messages later : List (UInt64 × List UInt8)) :
    messageBytes (messages ++ later) = messageBytes messages ++ messageBytes later :=
  List.flatMap_append

end ByteStream

namespace Tcp

open Transport (Change)
open ByteStream (messageBytes)

variable {config : TcpConfig} {own : NodeId} {bound : Except String Endpoint}

/-! ## Reading off a connection -/

/-- One reader reads frame after frame off a connection in a run. Up to some time these bytes were
there when it began or have arrived since, the read under way has taken some of them, and these
frames were read before. Between its polls bytes arrive, and anything else happens that leaves the
connection in service. -/
inductive ReadOff (r : Run Change (create config own bound)) (g : ConnId) (c : TcpConn) :
    Nat → List UInt8 → List UInt8 → List Frame → Prop where
  | begin {m : Nat} (hserves : (r.state m).Serves g c) :
      ReadOff r g c m ((r.state m).stream c.stream).arrived [] []
  | frame {m now : Nat} {arrived taken : List UInt8} {frames : List Frame} {f : Frame}
      (h : ReadOff r g c m arrived taken frames)
      (hread : (r.state m).read now g taken = .ready (.ok f) (r.state (m + 1))) :
      ReadOff r g c (m + 1) arrived [] (frames ++ [f])
  | ahead {m now : Nat} {arrived taken taken' : List UInt8} {frames : List Frame}
      (h : ReadOff r g c m arrived taken frames)
      (hread : (r.state m).read now g taken = .ahead taken' (r.state (m + 1))) :
      ReadOff r g c (m + 1) arrived taken' frames
  | goesOn {m : Nat} {arrived taken bytes : List UInt8} {frames : List Frame}
      (h : ReadOff r g c m arrived taken frames)
      (hgoes : (r.state m).GoesOn g c bytes (r.state (m + 1))) :
      ReadOff r g c (m + 1) (arrived ++ bytes) taken frames

/-- How far a reader has come with some messages: the first of them were read, and the others begin
where the read under way began. -/
structure Stands (t : Tcp) (g : ConnId) (c : TcpConn) (taken rest : List UInt8)
    (read todo : List (UInt64 × List UInt8)) (frames : List Frame) : Prop where
  serves : t.Serves g c
  frames : frames = read.map fun m => Frame.ofPayload m.1 m.2
  arriving : taken ++ (t.stream c.stream).arrived ++ rest = messageBytes todo

variable {t t' : Tcp} {g : ConnId} {c : TcpConn} {now : Nat} {taken rest : List UInt8}
  {read todo messages : List (UInt64 × List UInt8)} {frames : List Frame} {f : Frame}

/-- All messages fit a limit for frames, and their codes a head. -/
def Fits (max : UInt32) (messages : List (UInt64 × List UInt8)) : Prop :=
  ∀ msg ∈ messages, msg.1.toNat < 2 ^ 32 ∧ msg.2.length ≤ max.toNat

/-- A frame that is read is the next message. -/
theorem Stands.frame (h : t.Stands g c taken rest read todo frames) (hfits : Fits t.maxFrame todo)
    (hread : t.read now g taken = .ready (.ok f) t') :
    ∃ msg later, todo = msg :: later ∧ t'.Stands g c [] rest (read ++ [msg]) later (frames ++ [f]) := by
  obtain ⟨polled, hpolls, hpoll⟩ := h.serves.polls now
  rw [hpoll] at hread
  cases hpolls with
  | frame hparse =>
    cases hread
    obtain ⟨msg, later, unread, htodo, hfirst, hlater⟩ | ⟨hnone, -⟩ :=
      ByteStream.parse_of_arriving hfits h.arriving
    · obtain ⟨rfl, rfl⟩ := Frame.Parsed.complete.inj (hparse.symm.trans hfirst)
      refine ⟨msg, later, htodo, h.serves.setStream _ _, ?_, ?_⟩
      · rw [h.frames, List.map_append, List.map_singleton]
      · rw [h.serves.stream_setStream]
        exact hlater
    · exact absurd (hparse.symm.trans hnone) nofun
  | refused | ended | ahead | waiting => cases hread

/-- A read that goes ahead has taken all that has arrived. -/
theorem Stands.ahead {taken' : List UInt8} (h : t.Stands g c taken rest read todo frames)
    (hread : t.read now g taken = .ahead taken' t') :
    t'.Stands g c taken' rest read todo frames := by
  obtain ⟨polled, hpolls, hpoll⟩ := h.serves.polls now
  rw [hpoll] at hread
  cases hpolls with
  | ahead =>
    cases hread
    refine ⟨h.serves.setStream _ _, h.frames, ?_⟩
    rw [h.serves.stream_setStream, List.append_nil]
    exact h.arriving
  | frame | refused | ended | waiting => cases hread

/-- Bytes that arrive are those that were to come. -/
theorem Stands.goesOn {bytes : List UInt8} (h : t.Stands g c taken (bytes ++ rest) read todo frames)
    (hgoes : t.GoesOn g c bytes t') : t'.Stands g c taken rest read todo frames := by
  refine ⟨hgoes.serves, h.frames, ?_⟩
  rw [← h.arriving, hgoes.arrived]
  simp only [List.append_assoc]

/-- A read that fails has come to the end of the stream. -/
theorem Stands.failed {e : TransportError} (h : t.Stands g c taken rest read todo frames)
    (hfits : Fits t.maxFrame todo) (hread : t.read now g taken = .ready (.error e) t') :
    ∃ ending, (t.stream c.stream).ending = some ending ∧ e = ending.error := by
  obtain ⟨polled, hpolls, hpoll⟩ := h.serves.polls now
  rw [hpoll] at hread
  cases hpolls with
  | refused hparse =>
    obtain ⟨_, _, _, -, hfirst, -⟩ | ⟨hnone, -⟩ := ByteStream.parse_of_arriving hfits h.arriving
    · exact absurd (hparse.symm.trans hfirst) nofun
    · exact absurd (hparse.symm.trans hnone) nofun
  | @ended ending _ hending =>
    cases hread
    exact ⟨ending, hending, rfl⟩
  | frame | ahead | waiting => cases hread

/-- A message that is there is read by the next poll, and the connection stays in service. -/
theorem Stands.next {msg : UInt64 × List UInt8} {later : List (UInt64 × List UInt8)}
    (h : t.Stands g c taken rest read (msg :: later) frames)
    (hfits : Fits t.maxFrame (msg :: later))
    (hthere : messageBytes [msg] <+: taken ++ (t.stream c.stream).arrived) (now : Nat) :
    ∃ t', t.read now g taken = .ready (.ok (Frame.ofPayload msg.1 msg.2)) t' ∧ t'.Serves g c := by
  obtain ⟨msg', later', unread, htodo, hfirst, -⟩ | ⟨-, hnone⟩ :=
    ByteStream.parse_of_arriving hfits h.arriving
  · obtain ⟨rfl, -⟩ := List.cons.inj htodo
    obtain ⟨polled, hpolls, hpoll⟩ := h.serves.polls now
    rw [hpoll]
    cases hpolls with
    | frame hparse =>
      obtain ⟨rfl, -⟩ := Frame.Parsed.complete.inj (hparse.symm.trans hfirst)
      exact ⟨_, rfl, h.serves.setStream _ _⟩
    | refused hparse | ended hparse | ahead hparse | waiting hparse =>
      rw [hfirst] at hparse
      contradiction
  · exact absurd hthere (hnone msg later rfl)

/-! ## What gets through -/

/-- What a reader has made and will make of some messages whose bytes are arriving: it has read the
first of them, a poll reads the next one once it is there, and the connection stays in service; a
read fails at the end of the stream only. -/
structure GetsThrough (t : Tcp) (g : ConnId) (c : TcpConn) (arrived taken : List UInt8)
    (frames : List Frame) (messages : List (UInt64 × List UInt8)) : Prop where
  inOrder : frames <+: messages.map fun msg => Frame.ofPayload msg.1 msg.2
  next : ∀ now msg, messages[frames.length]? = some msg →
    messageBytes (messages.take (frames.length + 1)) <+: arrived →
      ∃ t', t.read now g taken = .ready (.ok (Frame.ofPayload msg.1 msg.2)) t' ∧ t'.Serves g c
  failed : ∀ now e t', t.read now g taken = .ready (.error e) t' →
    ∃ ending, (t.stream c.stream).ending = some ending ∧ e = ending.error

section Run

variable {config : TcpConfig} {own : NodeId} {bound : Except String Endpoint}
  {r : Run Change (create config own bound)} {m : Nat} {arrived : List UInt8}

/-- What is left of messages that fit the limit of the configuration fits the limit of the
transport. -/
theorem fits_of_run (hfits : Fits config.maxFrameSize messages) (hmessages : messages = read ++ todo)
    (r : Run Change (create config own bound)) (m : Nat) : Fits (r.state m).maxFrame todo := by
  intro msg hmsg
  rw [maxFrame_of_run r m]
  apply hfits
  rw [hmessages]
  exact List.mem_append_right read hmsg

/-- How far a reader has come in a run. -/
theorem ReadOff.stands (h : ReadOff r g c m arrived taken frames)
    (hfits : Fits config.maxFrameSize messages) (harriving : arrived ++ rest = messageBytes messages) :
    ∃ read todo, messages = read ++ todo ∧ (r.state m).Stands g c taken rest read todo frames := by
  induction h generalizing rest with
  | begin hserves => exact ⟨[], messages, rfl, hserves, rfl, harriving⟩
  | frame _ hread ih =>
    obtain ⟨read, todo, hmessages, hstands⟩ := ih harriving
    obtain ⟨msg, later, rfl, hnext⟩ := hstands.frame (fits_of_run hfits hmessages r _) hread
    exact ⟨read ++ [msg], later, by rw [hmessages, List.append_assoc]; rfl, hnext⟩
  | ahead _ hread ih =>
    obtain ⟨read, todo, hmessages, hstands⟩ := ih harriving
    exact ⟨read, todo, hmessages, hstands.ahead hread⟩
  | goesOn _ hgoes ih =>
    rw [List.append_assoc] at harriving
    obtain ⟨read, todo, hmessages, hstands⟩ := ih harriving
    exact ⟨read, todo, hmessages, hstands.goesOn hgoes⟩

/-- Messages that fit the frame limit get through to every reader. -/
theorem ReadOff.getsThrough (h : ReadOff r g c m arrived taken frames)
    (hfits : Fits config.maxFrameSize messages) (harrived : arrived <+: messageBytes messages) :
    GetsThrough (r.state m) g c arrived taken frames messages := by
  obtain ⟨rest, harriving⟩ := harrived
  obtain ⟨read, todo, hmessages, hstands⟩ := h.stands hfits harriving
  have hfits' : Fits (r.state m).maxFrame todo := fits_of_run hfits hmessages r m
  have hlength : frames.length = read.length := by rw [hstands.frames, List.length_map]
  have hthere : arrived = messageBytes read ++ (taken ++ ((r.state m).stream c.stream).arrived) := by
    apply (List.append_left_inj rest).mp
    rw [List.append_assoc, hstands.arriving, harriving, hmessages, ByteStream.messageBytes_append]
  constructor
  · rw [hmessages, List.map_append, ← hstands.frames]
    exact List.prefix_append _ _
  · intro now msg hmsg hprefix
    rw [hlength, hmessages, List.getElem?_append_right (Nat.le_refl _), Nat.sub_self] at hmsg
    obtain ⟨later, rfl⟩ : ∃ later, todo = msg :: later := by
      cases todo with
      | nil => contradiction
      | cons _ later => exact ⟨later, congrArg (· :: later) (Option.some.inj hmsg)⟩
    apply hstands.next hfits'
    rw [hlength, hmessages, List.take_length_add_append, ByteStream.messageBytes_append, hthere]
      at hprefix
    exact (List.prefix_append_right_inj _).mp hprefix
  · intro now e t' hread
    exact hstands.failed hfits' hread

end Run

/-! ## A message over the frame limit -/

/-- A message over the frame limit is refused as soon as its head is there. -/
theorem read_of_over {msg : UInt64 × List UInt8} (h : t.Serves g c)
    (harrived : (t.stream c.stream).arrived = messageBytes [msg]) (hcode : msg.1.toNat < 2 ^ 32)
    (hlength : msg.2.length < 2 ^ 32) (hover : t.maxFrame.toNat < msg.2.length) (now : Nat) :
    ∃ size t', t.read now g [] = .ready (.error (.frameTooLarge size t.maxFrame)) t' := by
  have hsize : (UInt32.ofNat msg.2.length).toNat = msg.2.length := UInt32.toNat_ofNat_of_lt' hlength
  have hrefused : Frame.parse t.maxFrame ([] ++ (t.stream c.stream).arrived) =
      .tooLarge (UInt32.ofNat msg.2.length) := by
    apply Frame.parse_eq_tooLarge_iff.mpr
    refine ⟨msg.1.toNat, msg.2, hcode, ?_, ?_⟩
    · rw [List.nil_append, harrived, hsize, messageBytes, List.flatMap_singleton]
    · rwa [UInt32.lt_iff_toNat_lt, hsize]
  obtain ⟨polled, hpolls, hpoll⟩ := h.polls now
  rw [hpoll]
  cases hpolls with
  | refused => exact ⟨_, _, rfl⟩
  | frame hparse | ended hparse | ahead hparse | waiting hparse =>
    rw [hrefused] at hparse
    contradiction

/-- A peer connects and sends its identity. -/
def guestGreets : List (Tcp → Tcp) :=
  [fun t => (Transport.start t).2, Transport.move 0 (Move.arrive 0 Node.guestRef.tcpEndpoint), goOn,
    Transport.move 0 (Move.deliver 0 Node.guestRef.id.bytes)]

/-- The identity of the peer has arrived on the only stream, and nobody has looked at it. -/
structure Greeted (t : Tcp) : Prop where
  sessions : t.sessions = [⟨false, true⟩]
  slots : t.slots = []
  conns : t.conns = []
  streams : ∃ written, t.streams = [⟨Node.guestRef.id.bytes, none, written, none⟩]
  tasks : ∃ deadline, t.tasks = [⟨none, Node.guestRef.tcpEndpoint, 0, 0, .exchanging deadline⟩]

theorem greeted (config : TcpConfig) : Greeted (guestGreets.foldl (fun t f => f t)
    (create config Node.ownRef.id (.ok Node.ownRef.tcpEndpoint))) where
  sessions := rfl
  slots := rfl
  conns := rfl
  streams := ⟨_, rfl⟩
  tasks := ⟨_, rfl⟩

/-- The connection of the peer. -/
def guestConn : TcpConn := ⟨Node.guestRef, 0, false, 0⟩

/-- The peer is registered, its connection is in service, and nothing else has arrived on it. -/
structure Welcomed (t : Tcp) : Prop where
  slot : t.slot? Node.guestRef.id = some ⟨Node.guestRef, 0, false⟩
  serves : t.Serves 0 guestConn
  arrived : (t.stream guestConn.stream).arrived = []
  isOpen : (t.stream guestConn.stream).ending = none

theorem Greeted.welcomed (h : t.Greeted) :
    Welcomed ([goOn, goOn, goOn, goOn].foldl (fun t f => f t) t) := by
  obtain ⟨hsessions, hslots, hconns, ⟨written, hstreams⟩, deadline, htasks⟩ := h
  cases t
  cases hsessions
  cases hslots
  cases hconns
  cases hstreams
  cases htasks
  exact ⟨rfl, ⟨rfl, rfl, Nat.zero_lt_one⟩, rfl, rfl⟩

/-- A peer connects, sends its identity, and is registered with it. -/
def guestConnects : List (Tcp → Tcp) := guestGreets ++ [goOn, goOn, goOn, goOn]

/-- The run in which a peer connects and then sends some bytes. -/
def guestRun (config : TcpConfig) (bytes : List UInt8) :
    Run Change (create config Node.ownRef.id (.ok Node.ownRef.tcpEndpoint)) :=
  .perform (guestConnects ++ [Transport.move 0 (Move.deliver 0 bytes)]) (by
    simp only [guestConnects, guestGreets, List.cons_append, List.nil_append, List.forall_mem_cons,
      List.not_mem_nil, false_implies, implies_true, and_true]
    exact ⟨fun _ => .inl .start, fun _ => .inl (.use (.move 0 _)), change_goOn,
      fun _ => .inl (.use (.move 0 _)), change_goOn, change_goOn, change_goOn, change_goOn,
      fun _ => .inl (.use (.move 0 _))⟩) _

theorem welcomed_guestRun (config : TcpConfig) (bytes : List UInt8) :
    Welcomed ((guestRun config bytes).state guestConnects.length) := by
  rw [guestRun, Run.state_perform_length, guestConnects, List.foldl_append]
  exact (greeted config).welcomed

/-- The bytes arrive in one piece. -/
theorem move_guestRun (config : TcpConfig) (bytes : List UInt8) :
    (guestRun config bytes).state (guestConnects.length + 1) =
      ((guestRun config bytes).state guestConnects.length).move 0 (.deliver guestConn.stream bytes) := by
  rw [guestRun, Run.state_perform_succ]
  rfl

/-- Whatever the configuration, a reader may find these bytes on a connection. -/
theorem exists_readOff (config : TcpConfig) (bytes : List UInt8) :
    ∃ (own : NodeId) (bound : Except String Endpoint) (r : Run Change (create config own bound))
      (g : ConnId) (c : TcpConn) (m : Nat), ReadOff r g c m bytes [] [] ∧ (r.state m).Serves g c ∧
        ((r.state m).stream c.stream).arrived = bytes := by
  obtain ⟨-, hserves, harrived, hopen⟩ := welcomed_guestRun config bytes
  have hgoes := hserves.deliver hopen bytes 0
  rw [← move_guestRun] at hgoes
  have hreads := (ReadOff.begin hserves).goesOn hgoes
  have hthere := hgoes.arrived
  rw [harrived, List.nil_append] at hreads hthere
  exact ⟨_, _, _, 0, guestConn, _, hreads, hgoes.serves, hthere⟩

end Tcp

/-! ## The limits of a configuration -/

namespace Settings

open Tcp (ReadOff GetsThrough Fits)
open Transport (Change)
open ByteStream (messageBytes)

variable {s : Settings} {config : TcpConfig} {messages : List (UInt64 × List UInt8)}

/-- Messages of at most one byte over the message limit, with codes and lengths that fit a head. -/
def NearLimit (s : Settings) (messages : List (UInt64 × List UInt8)) : Prop :=
  ∀ msg ∈ messages, msg.1.toNat < 2 ^ 32 ∧ msg.2.length < 2 ^ 32 ∧
    msg.2.length ≤ s.maxMessage.toNat + 1

/-- Of the frames that were read, a reader of messages that goes by the configured limit reports each
that is over the limit as too large, unless the frame comes too early to be looked at. -/
def ReportsTooLarge (s : Settings) (frames : List Frame) : Prop :=
  ∀ x : Eth.Reading, s.exchangeConfig?.map (·.maxMessage) = some x.maxMessage →
    ∀ n f, frames[n]? = some f → s.maxMessage.toNat < f.payload.length →
      ¬ x.TooEarly ((frames.map .ok).take n) f →
        (x.run (frames.map .ok))[n]? = some (.error (.decode (.tooLarge f.size s.maxMessage)))

/-- Whenever messages of at most one byte over the message limit arrive on a connection of a
transport with this configuration, every one of them gets through, and those over the limit are
reported as too large. -/
def LetsThrough (s : Settings) (config : TcpConfig) : Prop :=
  ∀ (own : NodeId) (bound : Except String Endpoint) (r : Run Change (Tcp.create config own bound))
    (g : ConnId) (c : TcpConn) (m : Nat) (arrived taken : List UInt8) (frames : List Frame)
    (messages : List (UInt64 × List UInt8)),
    ReadOff r g c m arrived taken frames → s.NearLimit messages → arrived <+: messageBytes messages →
      GetsThrough (r.state m) g c arrived taken frames messages ∧ s.ReportsTooLarge frames

/-- The frame limit is the larger one of the fixed size and the message limit. -/
theorem maxFrameSize_of_tcpConfig (h : s.tcpConfig = .ok config) :
    config.maxFrameSize = max maxFrameSize s.maxMessage := by
  unfold tcpConfig at h
  cases hid : s.identity with
  | error e =>
    rw [hid] at h
    contradiction
  | ok id =>
    rw [hid] at h
    rw [← Except.ok.inj h]

/-- Where statuses are exchanged, messages are judged by the message limit. -/
theorem maxMessage_of_exchangeConfig? {ex : Eth.ExchangeConfig} (h : s.exchangeConfig? = some ex) :
    ex.maxMessage = s.maxMessage := by
  unfold exchangeConfig? at h
  split at h
  · rw [← Option.some.inj h, maxMessage]
    cases s.exchange with
    | none => rfl
    | some x => rfl
  · contradiction

/-- Messages of at most one byte over a message limit that is below the fixed size, or that is the
largest of all, fit the frame limit. -/
theorem fits_of_nearLimit (h : config.maxFrameSize = max maxFrameSize s.maxMessage)
    (hlimit : s.maxMessage < maxFrameSize ∨ s.maxMessage = Frame.maxDeclared)
    (hnear : s.NearLimit messages) : Fits config.maxFrameSize messages := by
  intro msg hmsg
  obtain ⟨hcode, hlength, hover⟩ := hnear msg hmsg
  refine ⟨hcode, ?_⟩
  rw [h, UInt32.toNat_max]
  obtain hbelow | hlargest := hlimit
  · apply le_max_of_le_left
    exact hover.trans (UInt32.lt_iff_toNat_lt.mp hbelow)
  · apply le_max_of_le_right
    rw [hlargest]
    exact Nat.le_of_lt_succ hlength

/-- Messages with lengths that fit a head are judged by their lengths. -/
theorem reportsTooLarge_of_nearLimit {frames : List Frame} (hnear : s.NearLimit messages)
    (hread : frames <+: messages.map fun msg => Frame.ofPayload msg.1 msg.2) :
    s.ReportsTooLarge frames := by
  intro x hx n f hf hover hlate
  obtain ⟨ex, hex, hmax⟩ := Option.map_eq_some_iff.mp hx
  rw [maxMessage_of_exchangeConfig? hex] at hmax
  obtain ⟨msg, hmsg, rfl⟩ := List.mem_map.mp (hread.subset (List.mem_of_getElem? hf))
  obtain ⟨-, hlength, -⟩ := hnear msg hmsg
  have hdeclared : s.maxMessage.toNat < Frame.declared msg.2 := by
    rwa [Frame.declared_eq_length_iff.mpr hlength]
  obtain ⟨size, htooLarge⟩ := (Frame.exists_tooLarge_iff msg.1 msg.2 s.maxMessage).mpr hdeclared
  obtain ⟨-, -, rfl⟩ := Eth.decodeMessage_eq_tooLarge_iff.mp htooLarge
  rw [x.run_getElem?, List.getElem?_map, hf, Option.map_some, Option.map_some,
    Eth.Reading.report_of_not_tooEarly hlate, ← hmax, htooLarge]
  rfl

/-- There is a message of one byte over the message limit that ends a connection, by its head and
without being judged. -/
def EndsConnection (s : Settings) (config : TcpConfig) : Prop :=
  ∃ (own : NodeId) (bound : Except String Endpoint) (r : Run Change (Tcp.create config own bound))
    (g : ConnId) (c : TcpConn) (m : Nat) (msg : UInt64 × List UInt8) (size : UInt32) (t : Tcp),
    ReadOff r g c m (messageBytes [msg]) [] [] ∧ s.NearLimit [msg] ∧
      (r.state m).read 0 g [] = .ready (.error (.frameTooLarge size s.maxMessage)) t ∧
        ∃ c', t.conns[g]? = some c' ∧ c'.cancelled = true

/-- A message limit that is also the frame limit ends connections, unless there is nothing over it. -/
theorem endsConnection (h : config.maxFrameSize = s.maxMessage)
    (hlargest : s.maxMessage ≠ Frame.maxDeclared) : s.EndsConnection config := by
  let msg : UInt64 × List UInt8 := (0, List.replicate (s.maxMessage.toNat + 1) 0)
  have hcode : msg.1.toNat < 2 ^ 32 := Nat.two_pow_pos 32
  have hlength : msg.2.length = s.maxMessage.toNat + 1 := List.length_replicate
  have hfits : msg.2.length < 2 ^ 32 := by
    have hne : s.maxMessage.toNat ≠ Frame.maxDeclared.toNat := mt UInt32.toNat.inj hlargest
    have hlt : s.maxMessage.toNat < 2 ^ 32 := s.maxMessage.toNat_lt
    have hmost : Frame.maxDeclared.toNat = 2 ^ 32 - 1 := rfl
    omega
  have hnear : s.NearLimit [msg] := by
    intro _ hmsg
    obtain rfl := List.mem_singleton.mp hmsg
    exact ⟨hcode, hfits, hlength.le⟩
  obtain ⟨own, bound, r, g, c, m, hreads, hserves, harrived⟩ :=
    Tcp.exists_readOff config (messageBytes [msg])
  have hmax : (r.state m).maxFrame = s.maxMessage := (Tcp.maxFrame_of_run r m).trans h
  have hover : (r.state m).maxFrame.toNat < msg.2.length := by
    rw [hmax, hlength]
    exact Nat.lt_succ_self _
  obtain ⟨size, t, hrefused⟩ := Tcp.read_of_over hserves harrived hcode hfits hover 0
  rw [hmax] at hrefused
  exact ⟨own, bound, r, g, c, m, msg, size, t, hreads, hnear, hrefused,
    Tcp.cancelled_of_read (Tcp.sound_of_run r m) hrefused⟩

/-- A message that ends a connection does not get through. -/
theorem EndsConnection.not_letsThrough (h : s.EndsConnection config) : ¬ s.LetsThrough config := by
  obtain ⟨own, bound, r, g, c, m, msg, size, t, hreads, hnear, hrefused, -⟩ := h
  intro hthrough
  obtain ⟨hgets, -⟩ := hthrough own bound r g c m _ [] [] [msg] hreads hnear (List.prefix_refl _)
  obtain ⟨t', hread, -⟩ := hgets.next 0 msg rfl (List.prefix_refl _)
  rw [hrefused] at hread
  cases hread

/-- Exactly where the message limit is below the fixed size, or is the largest of all, every message
of at most one byte over the limit gets through. -/
theorem letsThrough_iff (h : s.tcpConfig = .ok config) :
    s.LetsThrough config ↔ s.maxMessage < maxFrameSize ∨ s.maxMessage = Frame.maxDeclared := by
  have hmax : config.maxFrameSize = max maxFrameSize s.maxMessage := maxFrameSize_of_tcpConfig h
  constructor
  · intro hthrough
    by_contra hlimit
    obtain ⟨hbelow, hlargest⟩ := not_or.mp hlimit
    have hle : maxFrameSize.toNat ≤ s.maxMessage.toNat :=
      UInt32.le_iff_toNat_le.mp (UInt32.not_lt.mp hbelow)
    have hsame : config.maxFrameSize = s.maxMessage := by
      rw [hmax, ← UInt32.toNat_inj, UInt32.toNat_max]
      exact max_eq_right hle
    exact (endsConnection hsame hlargest).not_letsThrough hthrough
  · intro hlimit own bound r g c m arrived taken frames messages hreads hnear harrived
    have hgets := hreads.getsThrough (fits_of_nearLimit hmax hlimit hnear) harrived
    exact ⟨hgets, reportsTooLarge_of_nearLimit hnear hgets.inOrder⟩

/-- By default the limit for messages is below the fixed size. -/
theorem letsThrough_byDefault : ∃ config, ({} : Settings).tcpConfig = .ok config ∧
    ({} : Settings).LetsThrough config :=
  ⟨_, rfl, (letsThrough_iff rfl).mpr (.inl (by decide))⟩

/-- Settings with a message limit of 16 MiB. -/
def sixteenMiB : Settings := { exchange := some { maxMessageSize := some 16777216 } }

/-- Under a message limit of 16 MiB a message of one byte more ends the connection. -/
theorem not_letsThrough_sixteenMiB : ∃ config, sixteenMiB.tcpConfig = .ok config ∧
    sixteenMiB.EndsConnection config ∧ ¬ sixteenMiB.LetsThrough config := by
  obtain ⟨config, hconfig⟩ : ∃ config, sixteenMiB.tcpConfig = .ok config := ⟨_, rfl⟩
  have hmax : config.maxFrameSize = sixteenMiB.maxMessage :=
    (maxFrameSize_of_tcpConfig hconfig).trans (by decide)
  have hends : sixteenMiB.EndsConnection config := endsConnection hmax (by decide)
  exact ⟨config, hconfig, hends, hends.not_letsThrough⟩

end Settings

end PeerProbe
