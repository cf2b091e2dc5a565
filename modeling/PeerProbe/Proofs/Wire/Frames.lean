import PeerProbe.Tcp.Stream

/-!
# Reading frame after frame

The results of reading a stream to where it has come: a frame for each that has arrived whole, and
behind the last one the error if the stream has ended or declares too much.

A frame at the front of some bytes is there whatever follows it. Where a read begins and how much of
it has arrived by then therefore does not matter, as long as it gets all the bytes.
-/

namespace PeerProbe

namespace Frame

variable {max : UInt32} {ending : Option StreamEnd} {bytes rest : List UInt8} {f : Frame}
  {size : UInt32}

/-! ## The front of a stream -/

/-- What a head and the bytes behind it amount to. -/
theorem parse_append {head : List UInt8} (hhead : head.length = 8) (max : UInt32)
    (body : List UInt8) :
    parse max (head ++ body) =
      let size := BigEndian.toNat (head.drop 4)
      if max.toNat < size then .tooLarge (UInt32.ofNat size)
      else if body.length < size then .incomplete
      else .complete ⟨UInt64.ofNat (BigEndian.toNat (head.take 4)), UInt32.ofNat size,
        body.take size⟩ (body.drop size) := by
  have hlength : ¬ (head ++ body).length < 8 := by
    rw [List.length_append]
    omega
  have hcode : (head ++ body).take 4 = head.take 4 := List.take_append_of_le_length (by omega)
  have hsize : ((head ++ body).drop 4).take 4 = head.drop 4 := by
    rw [List.drop_append_of_le_length (by omega), List.take_append_of_le_length
      (by rw [List.length_drop]; omega), List.take_of_length_le (by rw [List.length_drop]; omega)]
  have hbody : (head ++ body).drop 8 = body := by
    rw [List.drop_append_of_le_length (by omega), List.drop_of_length_le (by omega),
      List.nil_append]
  rw [parse, if_neg hlength, hcode, hsize, hbody]

/-- A frame at the front takes at least a head, and is there whatever follows. -/
theorem parse_complete (h : parse max bytes = .complete f rest) :
    ∃ front, bytes = front ++ rest ∧ 8 ≤ front.length ∧
      ∀ more, parse max (front ++ more) = .complete f more := by
  by_cases hlength : bytes.length < 8
  · simp [parse, hlength] at h
  have hhead : (bytes.take 8).length = 8 := List.length_take_of_le (by omega)
  generalize hfront : bytes.take 8 = head at hhead
  generalize hbehind : bytes.drop 8 = body
  have hbytes : bytes = head ++ body := by rw [← hfront, ← hbehind, List.take_append_drop]
  rw [hbytes, parse_append hhead] at h
  generalize hsize : BigEndian.toNat (head.drop 4) = size at h
  dsimp only at h
  split at h
  · contradiction
  · next hmax =>
    split at h
    · contradiction
    · next hbody =>
      obtain ⟨rfl, rfl⟩ := Parsed.complete.inj h
      have hpayload : (body.take size).length = size := List.length_take_of_le (by omega)
      refine ⟨head ++ body.take size, ?_, by rw [List.length_append]; omega, fun more => ?_⟩
      · rw [hbytes, List.append_assoc, List.take_append_drop]
      · rw [List.append_assoc, parse_append hhead, hsize]
        dsimp only
        rw [if_neg hmax, if_neg (by rw [List.length_append]; omega)]
        simp only [List.take_left' hpayload, List.drop_left' hpayload]

/-! ## The results of reading -/

/-- The results of reading some bytes frame by frame, at most so many. -/
def itemsWithin (max : UInt32) (ending : Option StreamEnd) :
    Nat → List UInt8 → List (Except TransportError Frame)
  | 0, _ => []
  | fuel + 1, bytes =>
    match parse max bytes with
    | .complete f rest => .ok f :: itemsWithin max ending fuel rest
    | .tooLarge size => [.error (.frameTooLarge size max)]
    | .incomplete => (ending.map fun e => .error e.error).toList

/-- The results of reading all the bytes that have arrived on a stream, ended or not; every frame
takes at least eight bytes, so the number of bytes is enough fuel. -/
def items (max : UInt32) (ending : Option StreamEnd) (bytes : List UInt8) :
    List (Except TransportError Frame) :=
  itemsWithin max ending (bytes.length + 1) bytes

/-- More fuel than there are bytes makes no difference. -/
theorem itemsWithin_eq_items {fuel : Nat} (h : bytes.length < fuel) :
    itemsWithin max ending fuel bytes = items max ending bytes := by
  suffices hsame : ∀ n m (bytes : List UInt8), bytes.length < n → bytes.length < m →
      itemsWithin max ending n bytes = itemsWithin max ending m bytes from
    hsame _ _ _ h (Nat.lt_succ_self _)
  intro n
  induction n with
  | zero => intro m bytes hn; omega
  | succ n ih =>
    intro m bytes hn hm
    cases m with
    | zero => omega
    | succ m =>
      unfold itemsWithin
      cases hparse : parse max bytes with
      | incomplete | tooLarge => rfl
      | complete f rest =>
        obtain ⟨front, rfl, hfront, -⟩ := parse_complete hparse
        rw [List.length_append] at hn hm
        simp only [ih m rest (by omega) (by omega)]

/-- The first result is the frame at the front. -/
theorem items_of_complete (h : parse max bytes = .complete f rest) :
    items max ending bytes = .ok f :: items max ending rest := by
  obtain ⟨front, rfl, hfront, -⟩ := parse_complete h
  rw [items, itemsWithin, h]
  dsimp only
  rw [itemsWithin_eq_items (by rw [List.length_append]; omega)]

/-- A head that declares too much is the last thing read. -/
theorem items_of_tooLarge (h : parse max bytes = .tooLarge size) :
    items max ending bytes = [.error (.frameTooLarge size max)] := by
  rw [items, itemsWithin, h]

/-- A frame that is not there whole is an error at the end of the stream. -/
theorem items_of_incomplete (h : parse max bytes = .incomplete) (e : StreamEnd) :
    items max (some e) bytes = [.error e.error] := by
  rw [items, itemsWithin, h]
  rfl

/-- A frame that is not there whole is waited for while the stream goes on. -/
theorem items_none_of_incomplete (h : parse max bytes = .incomplete) :
    items max none bytes = [] := by
  rw [items, itemsWithin, h]
  rfl

/-- On a stream that the remote has closed, these are the frames and the error of reading until one
fails. -/
theorem items_closed (max : UInt32) (bytes : List UInt8) :
    items max (some .closed) bytes =
      (readUntilError max (bytes.length + 1) bytes).1.map .ok ++
        [.error (readUntilError max (bytes.length + 1) bytes).2] := by
  suffices hfuel : ∀ fuel (bytes : List UInt8), bytes.length < fuel →
      itemsWithin max (some .closed) fuel bytes = (readUntilError max fuel bytes).1.map .ok ++
        [.error (readUntilError max fuel bytes).2] from hfuel _ _ (Nat.lt_succ_self _)
  intro fuel
  induction fuel with
  | zero => intro bytes h; omega
  | succ fuel ih =>
    intro bytes h
    unfold itemsWithin readUntilError read
    cases hparse : parse max bytes with
    | incomplete => rfl
    | tooLarge => rfl
    | complete f rest =>
      obtain ⟨front, rfl, hfront, -⟩ := parse_complete hparse
      rw [List.length_append] at h
      simp only [ih rest (by omega), List.map_cons, List.cons_append]

end Frame

/-! ## One poll -/

namespace ByteStream

variable {max : UInt32} {taken : List UInt8} {s s' : ByteStream}

/-- What a poll comes to, from what all the bytes up to it amount to. -/
inductive Polls (max : UInt32) (taken : List UInt8) (s : ByteStream) : Polled → Prop where
  | frame {f : Frame} {rest : List UInt8}
      (hparse : Frame.parse max (taken ++ s.arrived) = .complete f rest) :
      Polls max taken s (.frame f { s with arrived := rest })
  | refused {size : UInt32} (hparse : Frame.parse max (taken ++ s.arrived) = .tooLarge size) :
      Polls max taken s
        (.failed (.frameTooLarge size max) { s with arrived := (taken ++ s.arrived).drop 8 })
  | ended {e : StreamEnd} (hparse : Frame.parse max (taken ++ s.arrived) = .incomplete)
      (hending : s.ending = some e) : Polls max taken s (.failed e.error { s with arrived := [] })
  | ahead (hparse : Frame.parse max (taken ++ s.arrived) = .incomplete) (hopen : s.ending = none) :
      Polls max taken s (.ahead (taken ++ s.arrived) { s with arrived := [] })
  | waiting (hparse : Frame.parse max (taken ++ s.arrived) = .incomplete) (hopen : s.ending = none) :
      Polls max taken s .waiting

theorem polls_pollFrame (max : UInt32) (taken : List UInt8) (s : ByteStream) :
    s.Polls max taken (s.pollFrame max taken) := by
  unfold pollFrame
  dsimp only
  split
  · next hparse => exact .frame hparse
  · next hparse => exact .refused hparse
  · next hparse =>
    split
    · next hending => exact .ended hparse hending
    · next hopen =>
      split
      · exact .waiting hparse hopen
      · exact .ahead hparse hopen

/-- A poll that yields a frame takes the frame's bytes: it is the next result, whatever follows. -/
theorem pollFrame_frame {f : Frame} (h : s.pollFrame max taken = .frame f s') :
    ∃ front, taken ++ s.arrived = front ++ s'.arrived ∧
      ∀ ending more, Frame.items max ending (front ++ more) = .ok f :: Frame.items max ending more := by
  have hpolls := polls_pollFrame max taken s
  rw [h] at hpolls
  cases hpolls with
  | frame hparse =>
    obtain ⟨front, hfront, -, hmore⟩ := Frame.parse_complete hparse
    exact ⟨front, hfront, fun ending more => Frame.items_of_complete (hmore more)⟩

/-- A poll that fails yields the last result. -/
theorem pollFrame_failed {e : TransportError} (h : s.pollFrame max taken = .failed e s') :
    s'.ending = s.ending ∧ Frame.items max s.ending (taken ++ s.arrived) = [.error e] := by
  have hpolls := polls_pollFrame max taken s
  rw [h] at hpolls
  cases hpolls with
  | refused hparse => exact ⟨rfl, Frame.items_of_tooLarge hparse⟩
  | ended hparse hending => exact ⟨rfl, by rw [hending, Frame.items_of_incomplete hparse]⟩

/-- A poll that goes ahead takes all that has arrived and leaves nothing. -/
theorem pollFrame_ahead {taken' : List UInt8} (h : s.pollFrame max taken = .ahead taken' s') :
    taken' = taken ++ s.arrived ∧ s'.arrived = [] := by
  have hpolls := polls_pollFrame max taken s
  rw [h] at hpolls
  cases hpolls with
  | ahead => exact ⟨rfl, rfl⟩

/-- A poll that waits does so since there is no result. -/
theorem pollFrame_waiting (h : s.pollFrame max taken = .waiting) :
    Frame.items max s.ending (taken ++ s.arrived) = [] := by
  have hpolls := polls_pollFrame max taken s
  rw [h] at hpolls
  cases hpolls with
  | waiting hparse hopen => rw [hopen, Frame.items_none_of_incomplete hparse]

end ByteStream

end PeerProbe
