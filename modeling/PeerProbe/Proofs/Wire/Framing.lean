import PeerProbe.Proofs.Bytes.BigEndian
import PeerProbe.Proofs.Wire.Frames

/-!
# Frames as they are written

Any bytes begin with a head or are shorter than one, and a head says how many bytes belong to it. So a
framed read finds a frame exactly where a frame was written: the bytes that it takes for a frame are
those that writing the frame produces, whatever follows them. A head that declares too much is refused
without a look at what follows, and a stream that ends within a frame is an error, never a frame.

A read may take any number of polls while the bytes arrive. It comes to what one poll comes to that
finds all of them there.
-/

namespace PeerProbe

namespace Frame

variable {max : UInt32} {code : UInt64} {payload written bytes rest more : List UInt8} {f : Frame}
  {size : UInt32}

/-! ## Heads -/

@[simp] theorem length_headBytes (code size : Nat) : (headBytes code size).length = 8 := by
  simp [headBytes]

/-- A head is read as what it was written for. -/
theorem parse_headBytes {code size : Nat} (hcode : code < 2 ^ 32) (hsize : size < 2 ^ 32)
    (max : UInt32) (body : List UInt8) :
    parse max (headBytes code size ++ body) =
      if max.toNat < size then .tooLarge (UInt32.ofNat size)
      else if body.length < size then .incomplete
      else .complete ⟨UInt64.ofNat code, UInt32.ofNat size, body.take size⟩ (body.drop size) := by
  have hfront : (headBytes code size).take 4 = BigEndian.fixed 4 code :=
    List.take_left' (BigEndian.length_fixed 4 code)
  have hback : (headBytes code size).drop 4 = BigEndian.fixed 4 size :=
    List.drop_left' (BigEndian.length_fixed 4 code)
  have hcode' : code % 256 ^ 4 = code := Nat.mod_eq_of_lt hcode
  have hsize' : size % 256 ^ 4 = size := Nat.mod_eq_of_lt hsize
  rw [parse_append (length_headBytes code size), hfront, hback, BigEndian.toNat_fixed,
    BigEndian.toNat_fixed, hcode', hsize']

/-- Eight bytes are always a head. -/
theorem exists_headBytes {head : List UInt8} (h : head.length = 8) :
    ∃ code size, code < 2 ^ 32 ∧ size < 2 ^ 32 ∧ head = headBytes code size := by
  have hfront : (head.take 4).length = 4 := List.length_take_of_le (by omega)
  have hback : (head.drop 4).length = 4 := by rw [List.length_drop, h]
  refine ⟨BigEndian.toNat (head.take 4), BigEndian.toNat (head.drop 4), ?_, ?_, ?_⟩
  · exact (BigEndian.toNat_lt _).trans_eq (by rw [hfront]; rfl)
  · exact (BigEndian.toNat_lt _).trans_eq (by rw [hback]; rfl)
  · have hcode := BigEndian.fixed_toNat (head.take 4)
    have hsize := BigEndian.fixed_toNat (head.drop 4)
    rw [hfront] at hcode
    rw [hback] at hsize
    rw [headBytes, hcode, hsize, List.take_append_drop]

/-! ## The three kinds of bytes -/

/-- A frame is written exactly if its code fits the head. -/
theorem write_eq_ok_iff :
    write code payload = .ok written ↔
      code.toNat < 2 ^ 32 ∧ written = headBytes code.toNat payload.length ++ payload := by
  unfold write
  split
  · next hcode => simp [hcode, eq_comm]
  · next hcode => simp [hcode]

/-- A frame that the limit allows is read back, and what follows it is left. -/
theorem parse_written (h : write code payload = .ok written) (hmax : payload.length ≤ max.toNat)
    (more : List UInt8) : parse max (written ++ more) = .complete (ofPayload code payload) more := by
  obtain ⟨hcode, rfl⟩ := write_eq_ok_iff.mp h
  have hsize : payload.length < 2 ^ 32 := hmax.trans_lt max.toNat_lt
  rw [List.append_assoc, parse_headBytes hcode hsize, if_neg (Nat.not_lt.mpr hmax),
    if_neg (by rw [List.length_append]; omega), List.take_left, List.drop_left, UInt64.ofNat_toNat]
  rfl

/-- The frame at the front of some bytes is the one that was written there. -/
theorem parse_eq_complete_iff :
    parse max bytes = .complete f rest ↔
      ∃ written, write f.code f.payload = .ok written ∧ bytes = written ++ rest ∧
        f.size.toNat = f.payload.length ∧ f.payload.length ≤ max.toNat := by
  constructor
  · intro h
    by_cases hlength : bytes.length < 8
    · simp [parse, hlength] at h
    obtain ⟨code, size, hcode, hsize, hhead⟩ :=
      exists_headBytes (List.length_take_of_le (Nat.not_lt.mp hlength))
    generalize hbody : bytes.drop 8 = body
    have hbytes : bytes = headBytes code size ++ body := by
      rw [← hhead, ← hbody, List.take_append_drop]
    rw [hbytes, parse_headBytes hcode hsize] at h
    split at h
    · contradiction
    · next hmax =>
      split at h
      · contradiction
      · next hall =>
        obtain ⟨rfl, rfl⟩ := Parsed.complete.inj h
        have hpayload : (body.take size).length = size := List.length_take_of_le (by omega)
        have hfits : (UInt64.ofNat code).toNat = code :=
          UInt64.toNat_ofNat_of_lt' (hcode.trans (by decide))
        have hdeclared : (UInt32.ofNat size).toNat = size := UInt32.toNat_ofNat_of_lt' hsize
        refine ⟨headBytes code size ++ body.take size, ?_, ?_, ?_, ?_⟩
        · exact write_eq_ok_iff.mpr ⟨hfits.trans_lt hcode, by rw [hfits, hpayload]⟩
        · rw [hbytes, List.append_assoc, List.take_append_drop]
        · exact hdeclared.trans hpayload.symm
        · exact hpayload.trans_le (Nat.not_lt.mp hmax)
  · rintro ⟨written, hwrite, rfl, hsize, hmax⟩
    have hdeclared : UInt32.ofNat f.payload.length = f.size := by rw [← hsize, UInt32.ofNat_toNat]
    rw [parse_written hwrite hmax, ofPayload, hdeclared]

/-- A head that declares more than the limit is refused, whatever stands behind it. -/
theorem parse_eq_tooLarge_iff :
    parse max bytes = .tooLarge size ↔
      ∃ code rest, code < 2 ^ 32 ∧ bytes = headBytes code size.toNat ++ rest ∧ max < size := by
  constructor
  · intro h
    by_cases hlength : bytes.length < 8
    · simp [parse, hlength] at h
    obtain ⟨code, size', hcode, hsize, hhead⟩ :=
      exists_headBytes (List.length_take_of_le (Nat.not_lt.mp hlength))
    have hbytes : bytes = headBytes code size' ++ bytes.drop 8 := by
      rw [← hhead, List.take_append_drop]
    rw [hbytes, parse_headBytes hcode hsize] at h
    split at h
    · next hmax =>
      obtain rfl := Parsed.tooLarge.inj h
      have hdeclared : (UInt32.ofNat size').toNat = size' := UInt32.toNat_ofNat_of_lt' hsize
      exact ⟨code, _, hcode, by rwa [hdeclared], UInt32.lt_iff_toNat_lt.mpr (by rwa [hdeclared])⟩
    · split at h <;> contradiction
  · rintro ⟨code, rest, hcode, rfl, hmax⟩
    rw [parse_headBytes hcode size.toNat_lt, if_pos (UInt32.lt_iff_toNat_lt.mp hmax),
      UInt32.ofNat_toNat]

/-- Bytes are cut short within a frame that the limit allows: they are the beginning of the frame,
and not all of it. -/
def CutShort (max : UInt32) (bytes : List UInt8) : Prop :=
  ∃ code payload written more, write code payload = .ok written ∧ payload.length ≤ max.toNat ∧
    written = bytes ++ more ∧ more ≠ []

/-- Bytes that are cut short are not a frame yet. -/
theorem parse_of_cutShort (h : CutShort max bytes) : parse max bytes = .incomplete := by
  obtain ⟨code, payload, written, more, hwrite, hmax, hcut, hmore⟩ := h
  obtain ⟨hcode, hwritten⟩ := write_eq_ok_iff.mp hwrite
  by_cases hlength : bytes.length < 8
  · rw [parse, if_pos hlength]
  -- The bytes go as far as the head at least, so the cut is in the payload.
  obtain ⟨body, hbytes, hpayload⟩ : ∃ body, bytes = headBytes code.toNat payload.length ++ body ∧
      payload = body ++ more := by
    obtain ⟨body, hhead, hmore⟩ | ⟨body, hbytes, hpayload⟩ :=
      List.append_eq_append_iff.mp (hwritten.symm.trans hcut)
    · exact ⟨body, hhead, hmore⟩
    · have hbody : body = [] := by
        have hlong := congrArg List.length hbytes
        rw [length_headBytes, List.length_append] at hlong
        exact List.length_eq_zero_iff.mp (by omega)
      subst hbody
      exact ⟨[], by rw [hbytes, List.append_nil, List.append_nil], hpayload.symm⟩
  have hshort : body.length < payload.length := by
    rw [hpayload, List.length_append]
    exact Nat.lt_add_of_pos_right (List.length_pos_iff.mpr hmore)
  rw [hbytes, parse_headBytes hcode (hmax.trans_lt max.toNat_lt), if_neg (Nat.not_lt.mpr hmax),
    if_pos hshort]

end Frame

/-! ## Reads and writes on a stream -/

namespace ByteStream

variable {max : UInt32} {taken more : List UInt8} {s s' : ByteStream} {f : Frame}
  {item : Except TransportError Frame}

/-- A framed read from a poll of it to its result. Between two polls more bytes may arrive, all of
which are listed, and the stream may end. -/
inductive Reads (max : UInt32) : List UInt8 → ByteStream → List UInt8 →
    Except TransportError Frame → ByteStream → Prop where
  | frame {taken : List UInt8} {s s' : ByteStream} {f : Frame}
      (h : s.pollFrame max taken = .frame f s') : Reads max taken s [] (.ok f) s'
  | failed {taken : List UInt8} {s s' : ByteStream} {e : TransportError}
      (h : s.pollFrame max taken = .failed e s') : Reads max taken s [] (.error e) s'
  | ahead {taken taken' more : List UInt8} {s s' s'' : ByteStream}
      {item : Except TransportError Frame} (h : s.pollFrame max taken = .ahead taken' s')
      (hread : Reads max taken' s' more item s'') : Reads max taken s more item s''
  | arrive {taken more : List UInt8} {s s' : ByteStream} {item : Except TransportError Frame}
      (bytes : List UInt8) (hopen : s.ending = none)
      (hread : Reads max taken (s.deliver bytes) more item s') :
      Reads max taken s (bytes ++ more) item s'
  | finish {taken more : List UInt8} {s s' : ByteStream} {item : Except TransportError Frame}
      (e : StreamEnd) (hread : Reads max taken (s.finish e) more item s') :
      Reads max taken s more item s'

/-- What a read comes to is decided by all the bytes that have arrived by then, in whatever pieces
they came: the frame at their front, the refusal of their head, or the end of the stream. -/
theorem Reads.decided (h : Reads max taken s more item s') :
    let all := taken ++ s.arrived ++ more
    (∃ f, item = .ok f ∧ Frame.parse max all = .complete f s'.arrived) ∨
      (∃ size, item = .error (.frameTooLarge size max) ∧ Frame.parse max all = .tooLarge size ∧
        s'.arrived = all.drop 8) ∨
      ∃ e, item = .error e.error ∧ s'.ending = some e ∧ Frame.parse max all = .incomplete := by
  induction h with
  | @frame taken s s' f h =>
    have hpolls := polls_pollFrame max taken s
    rw [h] at hpolls
    cases hpolls with
    | frame hparse => exact .inl ⟨f, rfl, by rw [List.append_nil, hparse]⟩
  | @failed taken s s' e h =>
    have hpolls := polls_pollFrame max taken s
    rw [h] at hpolls
    rw [List.append_nil]
    cases hpolls with
    | refused hparse => exact .inr (.inl ⟨_, rfl, hparse, rfl⟩)
    | ended hparse hending => exact .inr (.inr ⟨_, rfl, hending, hparse⟩)
  | ahead h _ ih =>
    obtain ⟨rfl, hnone⟩ := pollFrame_ahead h
    rwa [hnone, List.append_nil] at ih
  | @arrive taken more s s' item bytes hopen _ ih =>
    have harrived : (s.deliver bytes).arrived = s.arrived ++ bytes := by simp [deliver, hopen]
    rwa [harrived, ← List.append_assoc taken, List.append_assoc] at ih
  | @finish taken more s s' item e _ ih =>
    have harrived : (s.finish e).arrived = s.arrived := by
      unfold ByteStream.finish
      split <;> rfl
    rwa [harrived] at ih

/-- A read gives a frame when the bytes that it takes are those of the frame. -/
theorem Reads.written (h : Reads max [] s more (.ok f) s') :
    ∃ written, Frame.write f.code f.payload = .ok written ∧
      s.arrived ++ more = written ++ s'.arrived ∧ f.size.toNat = f.payload.length := by
  obtain ⟨g, hg, hparse⟩ | ⟨_, hitem, -⟩ | ⟨_, hitem, -⟩ := h.decided
  · obtain rfl := Except.ok.inj hg
    obtain ⟨written, hwrite, hbytes, hsize, -⟩ := Frame.parse_eq_complete_iff.mp hparse
    exact ⟨written, hwrite, hbytes, hsize⟩
  · contradiction
  · contradiction

/-- A read that finds a frame at the front gives it, and leaves what stands behind it. -/
theorem Reads.complete {rest : List UInt8} (h : Reads max [] s more item s')
    (hparse : Frame.parse max (s.arrived ++ more) = .complete f rest) :
    item = .ok f ∧ s'.arrived = rest := by
  obtain ⟨_, hitem, hsame⟩ | ⟨_, -, hother, -⟩ | ⟨_, -, -, hother⟩ := h.decided
  · obtain ⟨rfl, rfl⟩ := Frame.Parsed.complete.inj (hparse.symm.trans hsame)
    exact ⟨hitem, rfl⟩
  · exact absurd (hparse.symm.trans hother) nofun
  · exact absurd (hparse.symm.trans hother) nofun

/-- A read refuses a head that declares too much, and takes nothing but the head. -/
theorem Reads.refused {code : Nat} {size : UInt32} {rest : List UInt8}
    (h : Reads max [] s more item s') (hcode : code < 2 ^ 32) (hmax : max < size)
    (hbytes : s.arrived ++ more = Frame.headBytes code size.toNat ++ rest) :
    item = .error (.frameTooLarge size max) ∧ s'.arrived = rest := by
  have hparse := Frame.parse_eq_tooLarge_iff.mpr ⟨code, rest, hcode, hbytes, hmax⟩
  obtain ⟨_, -, hother⟩ | ⟨size', hitem, hsame, hrest⟩ | ⟨_, -, -, hother⟩ := h.decided
  · exact absurd (hparse.symm.trans hother) nofun
  · obtain rfl := Frame.Parsed.tooLarge.inj (hparse.symm.trans hsame)
    refine ⟨hitem, ?_⟩
    rw [hrest, List.nil_append, hbytes, List.drop_left' (Frame.length_headBytes _ _)]
  · exact absurd (hparse.symm.trans hother) nofun

/-- A read of bytes that are cut short has no result before the stream ends, and then it fails. -/
theorem Reads.cutShort (h : Reads max [] s more item s')
    (hcut : Frame.CutShort max (s.arrived ++ more)) :
    ∃ e, s'.ending = some e ∧ item = .error e.error := by
  have hparse := Frame.parse_of_cutShort hcut
  obtain ⟨_, -, hother⟩ | ⟨_, -, hother, -⟩ | ⟨e, hitem, hending, -⟩ := h.decided
  · exact absurd (hparse.symm.trans hother) nofun
  · exact absurd (hparse.symm.trans hother) nofun
  · exact ⟨e, hending, hitem⟩

/-- A read has a result at the end of the stream at the latest. -/
theorem exists_reads (max : UInt32) (taken : List UInt8) (hending : s.ending.isSome = true) :
    ∃ item s', Reads max taken s [] item s' := by
  have hpolls := polls_pollFrame max taken s
  generalize hpoll : s.pollFrame max taken = polled at hpolls
  cases hpolls with
  | frame => exact ⟨_, _, .frame hpoll⟩
  | refused | ended => exact ⟨_, _, .failed hpoll⟩
  | ahead _ hopen | waiting _ hopen => simp [hopen] at hending

/-- A head that declares too much is refused as soon as it is there. -/
theorem exists_reads_refused {code : Nat} {size : UInt32} {rest : List UInt8} (hcode : code < 2 ^ 32)
    (hmax : max < size) (hbytes : s.arrived = Frame.headBytes code size.toNat ++ rest) :
    ∃ s', Reads max [] s [] (.error (.frameTooLarge size max)) s' := by
  have hparse := Frame.parse_eq_tooLarge_iff.mpr ⟨code, rest, hcode, hbytes, hmax⟩
  have hpoll : s.pollFrame max [] = .failed (.frameTooLarge size max)
      { s with arrived := s.arrived.drop 8 } := by simp only [pollFrame, List.nil_append, hparse]
  exact ⟨_, .failed hpoll⟩

/-! ## Many frames -/

/-- Framed reads one behind the other up to the first that fails: the frames, the failure, and all
the bytes that arrive meanwhile. -/
inductive ReadsAll (max : UInt32) : ByteStream → List UInt8 → List Frame → TransportError →
    ByteStream → Prop where
  | last {s s' : ByteStream} {more : List UInt8} {e : TransportError}
      (h : Reads max [] s more (.error e) s') : ReadsAll max s more [] e s'
  | next {s s' s'' : ByteStream} {more more' : List UInt8} {f : Frame} {fs : List Frame}
      {e : TransportError} (h : Reads max [] s more (.ok f) s')
      (hrest : ReadsAll max s' more' fs e s'') : ReadsAll max s (more ++ more') (f :: fs) e s''

/-- Reads one behind the other have the results of reading all that arrives at once. -/
theorem ReadsAll.items {fs : List Frame} {e : TransportError} (h : ReadsAll max s more fs e s') :
    Frame.items max s'.ending (s.arrived ++ more) = fs.map .ok ++ [.error e] := by
  induction h with
  | @last s s' more e h =>
    obtain ⟨_, hitem, -⟩ | ⟨size, hitem, hparse, -⟩ | ⟨ending, hitem, hending, hparse⟩ := h.decided
    · contradiction
    · obtain rfl := Except.error.inj hitem
      exact Frame.items_of_tooLarge hparse
    · obtain rfl := Except.error.inj hitem
      rw [hending]
      exact Frame.items_of_incomplete hparse ending
  | @next s s' s'' more more' f fs e h _ ih =>
    obtain ⟨g, hg, hparse⟩ | ⟨_, hitem, -⟩ | ⟨_, hitem, -⟩ := h.decided
    · obtain rfl := Except.ok.inj hg
      obtain ⟨front, hfront, -, hmore⟩ := Frame.parse_complete hparse
      have hbytes : s.arrived ++ (more ++ more') = front ++ (s'.arrived ++ more') := by
        rw [← List.append_assoc, ← List.append_assoc, ← hfront, List.nil_append]
      rw [hbytes, Frame.items_of_complete (hmore _), ih]
      rfl
    · contradiction
    · contradiction

/-- Write messages, each a code and a payload, one behind the other up to the first that fails. -/
def writeFrames : List (UInt64 × List UInt8) → ByteStream → Except TransportError Unit × ByteStream
  | [], s => (.ok (), s)
  | m :: messages, s =>
    match s.writeFrame m.1 m.2 with
    | (.ok (), s) => writeFrames messages s
    | (.error e, s) => (.error e, s)

/-- The bytes of messages one behind the other. -/
def messageBytes (messages : List (UInt64 × List UInt8)) : List UInt8 :=
  messages.flatMap fun m => Frame.headBytes m.1.toNat m.2.length ++ m.2

/-- Messages with codes that fit are written one behind the other. -/
theorem writeFrames_eq (messages : List (UInt64 × List UInt8)) (s : ByteStream)
    (hfault : s.writeFault = none) (hcodes : ∀ m ∈ messages, m.1.toNat < 2 ^ 32) :
    s.writeFrames messages = (.ok (), { s with written := s.written ++ messageBytes messages }) := by
  induction messages generalizing s with
  | nil => simp [writeFrames, messageBytes]
  | cons m messages ih =>
    have hm : Frame.write m.1 m.2 = .ok (Frame.headBytes m.1.toNat m.2.length ++ m.2) :=
      Frame.write_eq_ok_iff.mpr ⟨hcodes m List.mem_cons_self, rfl⟩
    have hwrite : s.writeFrame m.1 m.2 = (.ok (),
        { s with written := s.written ++ (Frame.headBytes m.1.toNat m.2.length ++ m.2) }) := by
      simp only [writeFrame, hm, write, hfault]
    have hrest := ih { s with written := s.written ++ (Frame.headBytes m.1.toNat m.2.length ++ m.2) }
      hfault fun n hn => hcodes n (List.mem_cons_of_mem m hn)
    rw [writeFrames, hwrite]
    dsimp only
    rw [hrest]
    simp only [messageBytes, List.flatMap_cons, List.append_assoc]

/-- The first message stands at the front of the bytes. -/
theorem parse_messageBytes_cons {m : UInt64 × List UInt8}
    (hfits : m.1.toNat < 2 ^ 32 ∧ m.2.length ≤ max.toNat) (messages : List (UInt64 × List UInt8)) :
    Frame.parse max (messageBytes (m :: messages)) =
      .complete (Frame.ofPayload m.1 m.2) (messageBytes messages) := by
  rw [messageBytes, List.flatMap_cons]
  exact Frame.parse_written (Frame.write_eq_ok_iff.mpr ⟨hfits.1, rfl⟩) hfits.2 _

/-- The frames of messages stand in their bytes, with nothing behind them. -/
theorem items_messageBytes (messages : List (UInt64 × List UInt8))
    (hfits : ∀ m ∈ messages, m.1.toNat < 2 ^ 32 ∧ m.2.length ≤ max.toNat) :
    Frame.items max (some .closed) (messageBytes messages) =
      (messages.map fun m => Frame.ofPayload m.1 m.2).map .ok ++ [.error .eof] := by
  induction messages with
  | nil =>
    have hparse : Frame.parse max [] = .incomplete := rfl
    exact Frame.items_of_incomplete hparse .closed
  | cons m messages ih =>
    have hparse := parse_messageBytes_cons (hfits m List.mem_cons_self) messages
    rw [Frame.items_of_complete hparse, ih fun n hn => hfits n (List.mem_cons_of_mem m hn)]
    rfl

/-- The results of reading up to the first failure tell the frames and the failure. -/
theorem results_inj {fs gs : List Frame} {e e' : TransportError}
    (h : fs.map (Except.ok (ε := TransportError)) ++ [.error e] = gs.map .ok ++ [.error e']) :
    fs = gs ∧ e = e' := by
  obtain ⟨hframes, hlast⟩ := List.append_inj' h rfl
  refine ⟨?_, Except.error.inj (List.cons.inj hlast).1⟩
  exact (List.map_inj_right fun _ _ => Except.ok.inj).mp hframes

/-- What frames are on a stream under a limit: written and read back, in whatever pieces they
arrive; taken just as they are written; refused by their heads; and never made up from the front of
one. -/
structure Framed (max : UInt32) : Prop where
  roundTrip : ∀ (messages : List (UInt64 × List UInt8)) (s : ByteStream), s.writeFault = none →
    (∀ m ∈ messages, m.1.toNat < 2 ^ 32 ∧ m.2.length ≤ max.toNat) →
      ∃ bytes frames, s.writeFrames messages = (.ok (), { s with written := s.written ++ bytes }) ∧
        frames.map (fun f => (f.code, f.payload)) = messages ∧
        (∀ f ∈ frames, f.size.toNat = f.payload.length) ∧
        Frame.readUntilError max (bytes.length + 1) bytes = (frames, .eof) ∧
        ∀ r more fs e r', ReadsAll max r more fs e r' → r.arrived ++ more = bytes →
          r'.ending = some .closed → fs = frames ∧ e = .eof
  written : ∀ s more f s', Reads max [] s more (.ok f) s' →
    ∃ bytes, Frame.write f.code f.payload = .ok bytes ∧ s.arrived ++ more = bytes ++ s'.arrived
  refused : ∀ (code : Nat) (size : UInt32) (rest : List UInt8), code < 2 ^ 32 → max < size →
    (∀ s more item s', Reads max [] s more item s' →
      s.arrived ++ more = Frame.headBytes code size.toNat ++ rest →
        item = .error (.frameTooLarge size max) ∧ s'.arrived = rest) ∧
      ∀ s, s.arrived = Frame.headBytes code size.toNat ++ rest →
        ∃ s', Reads max [] s [] (.error (.frameTooLarge size max)) s'
  cutShort : ∀ s more item s', Reads max [] s more item s' →
    Frame.CutShort max (s.arrived ++ more) →
      ∃ e, s'.ending = some e ∧ item = .error e.error ∧ (e = .closed → item = .error .eof)
  answered : ∀ s taken, s.ending.isSome = true → ∃ item s', Reads max taken s [] item s'

/-- Under every limit frames are read just where they were written. -/
theorem framed (max : UInt32) : Framed max where
  roundTrip messages s hfault hfits := by
    have hitems := items_messageBytes messages hfits
    refine ⟨messageBytes messages, messages.map fun m => Frame.ofPayload m.1 m.2,
      writeFrames_eq messages s hfault fun m hm => (hfits m hm).1, ?_, ?_, ?_, ?_⟩
    · rw [List.map_map]
      exact List.map_id messages
    · intro f hf
      obtain ⟨m, hm, rfl⟩ := List.mem_map.mp hf
      exact UInt32.toNat_ofNat_of_lt' ((hfits m hm).2.trans_lt max.toNat_lt)
    · obtain ⟨hframes, hend⟩ :=
        results_inj ((Frame.items_closed max (messageBytes messages)).symm.trans hitems)
      exact Prod.ext hframes hend
    · intro r more fs e r' hreads hbytes hclosed
      have hall := hreads.items
      rw [hclosed, hbytes, hitems] at hall
      exact results_inj hall.symm
  written s more f s' h := by
    obtain ⟨bytes, hwrite, hbytes, -⟩ := h.written
    exact ⟨bytes, hwrite, hbytes⟩
  refused code size rest hcode hmax :=
    ⟨fun _ _ _ _ h hbytes => h.refused hcode hmax hbytes,
      fun _ hbytes => exists_reads_refused hcode hmax hbytes⟩
  cutShort s more item s' h hcut := by
    obtain ⟨e, hending, hitem⟩ := h.cutShort hcut
    exact ⟨e, hending, hitem, fun hclosed => by rw [hitem, hclosed]; rfl⟩
  answered s taken hending := exists_reads max taken hending

end ByteStream

end PeerProbe
