import PeerProbe.Proofs.Eth.Trace
import PeerProbe.Proofs.Wire.Framing

/-!
# Payloads of any length

A head has 32 bits for the size of a payload. A message whose code fits is written whatever the
length of its payload, and only the length modulo `2 ^ 32` is declared. Everybody goes by what is
declared: a read takes that much of the payload for the message and leaves the rest of it to be read
as further frames, and a limit for messages is compared with the declared size.

So a message is written whole, or refused, exactly if its code does not fit or the length of its
payload does; and a payload over a limit is refused as too large exactly if its declared size is over
the limit as well.
-/

namespace PeerProbe

namespace Frame

variable {max : UInt32} {code : UInt64} {payload written : List UInt8}

/-- The largest size that a head can declare. -/
def maxDeclared : UInt32 := 0xffffffff

/-- The size that is declared for a payload. -/
def declared (payload : List UInt8) : Nat := payload.length % 2 ^ 32

/-- The frame that is found where a message was written: as much of it as is declared. -/
def found (code : UInt64) (payload : List UInt8) : Frame :=
  ofPayload code (payload.take (declared payload))

theorem declared_lt (payload : List UInt8) : declared payload < 2 ^ 32 :=
  Nat.mod_lt _ (Nat.two_pow_pos 32)

theorem declared_le_length (payload : List UInt8) : declared payload ≤ payload.length :=
  Nat.mod_le _ _

/-- All of a payload is declared exactly if its length fits the head. -/
theorem declared_eq_length_iff : declared payload = payload.length ↔ payload.length < 2 ^ 32 := by
  constructor
  · intro h
    rw [← h]
    exact declared_lt payload
  · exact Nat.mod_eq_of_lt

@[simp] theorem length_take_declared (payload : List UInt8) :
    (payload.take (declared payload)).length = declared payload :=
  List.length_take_of_le (declared_le_length payload)

/-- What is declared in a frame is what a head declares. -/
theorem toNat_size_ofPayload (code : UInt64) (payload : List UInt8) :
    (ofPayload code payload).size.toNat = declared payload := UInt32.toNat_ofNat

/-! ## On a stream -/

/-- A head declares the length modulo its range. -/
theorem headBytes_length (code : Nat) (payload : List UInt8) :
    headBytes code payload.length = headBytes code (declared payload) := by
  rw [headBytes, headBytes, ← BigEndian.fixed_mod 4 payload.length]
  rfl

/-- The bytes of a message are those of the frame that is found there, and the rest of the payload. -/
theorem written_eq (h : write code payload = .ok written) :
    ∃ front, write (found code payload).code (found code payload).payload = .ok front ∧
      written = front ++ payload.drop (declared payload) := by
  obtain ⟨hcode, rfl⟩ := write_eq_ok_iff.mp h
  refine ⟨headBytes code.toNat (declared payload) ++ payload.take (declared payload), ?_, ?_⟩
  · apply write_eq_ok_iff.mpr
    exact ⟨hcode, by rw [found, ofPayload, length_take_declared]⟩
  · rw [headBytes_length, List.append_assoc, List.take_append_drop]

/-- A frame that is found is read with nothing left of it, whatever follows. -/
theorem parse_found {front : List UInt8}
    (h : write (found code payload).code (found code payload).payload = .ok front)
    (hmax : declared payload ≤ max.toNat) (more : List UInt8) :
    parse max (front ++ more) = .complete (found code payload) more := by
  have hlength : (found code payload).payload.length = declared payload := length_take_declared payload
  exact parse_written h (hlength.trans_le hmax) more

/-- No head declares more than the largest size. -/
theorem declared_le_maxDeclared (payload : List UInt8) : declared payload ≤ maxDeclared.toNat :=
  Nat.le_of_lt_succ (declared_lt payload)

/-- Writing a message fails with nothing written, or gives bytes from which a read without a limit
gets the message back with nothing left over. -/
def WrittenWhole (code : UInt64) (payload : List UInt8) : Prop :=
  ∀ s : ByteStream, (∃ e, s.writeFrame code payload = (.error e, s)) ∨
    ∃ bytes f, s.writeFrame code payload = (.ok (), { s with written := s.written ++ bytes }) ∧
      read maxDeclared bytes = .ok (f, []) ∧ f.code = code ∧ f.payload = payload

/-- A code that does not fit is refused. -/
theorem writeFrame_of_le (h : 2 ^ 32 ≤ code.toNat) (s : ByteStream) :
    s.writeFrame code payload = (.error (codeError code), s) := by
  have hwrite : write code payload = .error (codeError code) := if_neg (Nat.not_lt.mpr h)
  rw [ByteStream.writeFrame, hwrite]

/-- A message whose code fits is written unless the stream is broken. -/
theorem writeFrame_of_write (h : write code payload = .ok written) {s : ByteStream}
    (hfault : s.writeFault = none) :
    s.writeFrame code payload = (.ok (), { s with written := s.written ++ written }) := by
  rw [ByteStream.writeFrame, h]
  simp only [ByteStream.write, hfault]

/-- A write that fails leaves the stream as it is. -/
theorem writeFrame_of_writeFault {s : ByteStream} (hfault : s.writeFault ≠ none) :
    ∃ e, s.writeFrame code payload = (.error e, s) := by
  obtain ⟨fault, hfault⟩ := Option.ne_none_iff_exists'.mp hfault
  unfold ByteStream.writeFrame
  split
  · exact ⟨.io fault.1 fault.2, by rw [ByteStream.write, hfault]⟩
  · exact ⟨_, rfl⟩

/-- A message is written whole or refused exactly if its code does not fit the head or its length
does. -/
theorem writtenWhole_iff :
    WrittenWhole code payload ↔ 2 ^ 32 ≤ code.toNat ∨ payload.length < 2 ^ 32 := by
  by_cases hcode : code.toNat < 2 ^ 32
  · have hwrite : write code payload = .ok _ := write_eq_ok_iff.mpr ⟨hcode, rfl⟩
    obtain ⟨front, hfront, hwritten⟩ := written_eq hwrite
    have hread : read maxDeclared (headBytes code.toNat payload.length ++ payload) =
        .ok (found code payload, payload.drop (declared payload)) := by
      rw [read, hwritten, parse_found hfront (declared_le_maxDeclared payload)]
    rw [or_iff_right (Nat.not_le.mpr hcode), ← declared_eq_length_iff]
    constructor
    · intro h
      obtain ⟨e, herror⟩ | ⟨bytes, f, hok, hback, -⟩ := h .fresh
      · cases (writeFrame_of_write hwrite rfl).symm.trans herror
      · have hbytes : bytes = headBytes code.toNat payload.length ++ payload :=
          (congrArg (fun r => r.2.written) (hok.symm.trans (writeFrame_of_write hwrite rfl)) :)
        rw [hbytes, hread] at hback
        have hnone : payload.drop (declared payload) = [] := congrArg Prod.snd (Except.ok.inj hback)
        exact Nat.le_antisymm (declared_le_length payload) (List.drop_eq_nil_iff.mp hnone)
    · intro h s
      by_cases hfault : s.writeFault = none
      · refine .inr ⟨_, found code payload, writeFrame_of_write hwrite hfault, ?_, rfl, ?_⟩
        · rw [hread, h, List.drop_length]
        · exact (congrArg payload.take h).trans List.take_length
      · exact .inl (writeFrame_of_writeFault hfault)
  · apply iff_of_true
    · intro s
      exact .inl ⟨_, writeFrame_of_le (Nat.not_lt.mp hcode) s⟩
    · exact .inl (Nat.not_lt.mp hcode)

/-! ## Before a limit for messages -/

/-- A payload is refused as too large under every limit that it exceeds. -/
def JudgedWhole (code : UInt64) (payload : List UInt8) : Prop :=
  ∀ max : UInt32, max.toNat < payload.length →
    ∃ size, Eth.decodeMessage (ofPayload code payload) max = .error (.tooLarge size max)

/-- A payload is too large for a limit exactly if what is declared for it is over the limit. -/
theorem exists_tooLarge_iff (code : UInt64) (payload : List UInt8) (max : UInt32) :
    (∃ size, Eth.decodeMessage (ofPayload code payload) max = .error (.tooLarge size max)) ↔
      max.toNat < declared payload := by
  rw [← toNat_size_ofPayload code payload, ← UInt32.lt_iff_toNat_lt]
  constructor
  · intro h
    obtain ⟨size, hdecode⟩ := h
    exact (Eth.decodeMessage_eq_tooLarge_iff.mp hdecode).2.1
  · intro hover
    have hpos : 0 < declared payload := by
      rw [← toNat_size_ofPayload code payload]
      exact Nat.zero_lt_of_lt (UInt32.lt_iff_toNat_lt.mp hover)
    have hpayload : payload ≠ [] := by
      apply List.ne_nil_of_length_pos
      exact hpos.trans_le (declared_le_length payload)
    have hsize : (ofPayload code payload).size ≠ 0 := by
      intro hzero
      rw [← toNat_size_ofPayload code payload, hzero] at hpos
      exact Nat.lt_irrefl 0 hpos
    have hnonempty : (ofPayload code payload).isEmpty = false := by
      rw [isEmpty, decide_eq_false hsize, Bool.false_or]
      exact List.isEmpty_eq_false_iff.mpr hpayload
    exact ⟨_, Eth.decodeMessage_eq_tooLarge_iff.mpr ⟨hnonempty, hover, rfl⟩⟩

/-- A payload is judged by its length exactly if its length fits the head. -/
theorem judgedWhole_iff : JudgedWhole code payload ↔ payload.length < 2 ^ 32 := by
  constructor
  · intro h
    by_contra hlong
    have hover : maxDeclared.toNat < payload.length :=
      (by decide : maxDeclared.toNat < 2 ^ 32).trans_le (Nat.not_lt.mp hlong)
    have hdeclared := (exists_tooLarge_iff code payload maxDeclared).mp (h maxDeclared hover)
    exact Nat.not_lt.mpr (declared_le_maxDeclared payload) hdeclared
  · intro h max hover
    apply (exists_tooLarge_iff code payload max).mpr
    rwa [declared_eq_length_iff.mpr h]

/-! ## What becomes of a message -/

/-- What becomes of a message, whatever the length of its payload. A code that does not fit is
refused. Any other message is written, the frame of what is declared is found there, in whatever
pieces its bytes arrive, and behind it the rest of the payload is read on. The message comes back
whole, and is judged by its length, exactly if its length fits the head. -/
structure GoesByDeclared (code : UInt64) (payload : List UInt8) : Prop where
  refused : 2 ^ 32 ≤ code.toNat →
    ∀ s : ByteStream, s.writeFrame code payload = (.error (codeError code), s)
  written : code.toNat < 2 ^ 32 → ∃ front,
    (∀ s : ByteStream, s.writeFault = none → s.writeFrame code payload =
      (.ok (), { s with written := s.written ++ (front ++ payload.drop (declared payload)) })) ∧
    (∀ s more behind item s', ByteStream.Reads maxDeclared [] s more item s' →
      s.arrived ++ more = front ++ behind →
        item = .ok (found code payload) ∧ s'.arrived = behind) ∧
    ∀ ending behind, items maxDeclared ending (front ++ behind) =
      .ok (found code payload) :: items maxDeclared ending behind
  writtenWhole : WrittenWhole code payload ↔ 2 ^ 32 ≤ code.toNat ∨ payload.length < 2 ^ 32
  tooLarge : ∀ max : UInt32,
    (∃ size, Eth.decodeMessage (ofPayload code payload) max = .error (.tooLarge size max)) ↔
      max.toNat < declared payload
  judgedWhole : JudgedWhole code payload ↔ payload.length < 2 ^ 32

/-- This becomes of every message. -/
theorem goesByDeclared (code : UInt64) (payload : List UInt8) : GoesByDeclared code payload where
  refused := writeFrame_of_le
  written := by
    intro hcode
    have hwrite : write code payload = .ok _ := write_eq_ok_iff.mpr ⟨hcode, rfl⟩
    obtain ⟨front, hfront, hwritten⟩ := written_eq hwrite
    have hparse := parse_found hfront (declared_le_maxDeclared payload)
    refine ⟨front, ?_, ?_, ?_⟩
    · intro s hfault
      rw [← hwritten]
      exact writeFrame_of_write hwrite hfault
    · intro s more behind item s' hreads hbytes
      exact hreads.complete (hbytes ▸ hparse behind)
    · intro ending behind
      exact items_of_complete (hparse behind)
  writtenWhole := writtenWhole_iff
  tooLarge := exists_tooLarge_iff code payload
  judgedWhole := judgedWhole_iff

/-- A payload of `2 ^ 32` bytes neither comes back whole nor is judged by its length: nothing of it
is declared. -/
theorem not_whole_of_unfit :
    ¬ WrittenWhole 1 (List.replicate (2 ^ 32) 0) ∧ ¬ JudgedWhole 1 (List.replicate (2 ^ 32) 0) := by
  have hunfit : ¬ (List.replicate (2 ^ 32) (0 : UInt8)).length < 2 ^ 32 := by
    rw [List.length_replicate]
    exact Nat.lt_irrefl _
  constructor
  · rw [writtenWhole_iff, or_iff_left hunfit]
    decide
  · rw [judgedWhole_iff]
    exact hunfit

end Frame

end PeerProbe
