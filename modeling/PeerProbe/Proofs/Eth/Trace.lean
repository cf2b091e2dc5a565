import PeerProbe.Eth.Reading

/-!
# What a reader answers over a sequence of items

Between two calls a reader knows one thing only: whether a status has been accepted. It is accepted
when its frame decodes to one, which the reader never refuses unseen since the frame has the code of a
status. So what a reader knows after any items is what it knew at first, or that one of the items was
accepted, and the answer to each item follows from that, whatever the answers before it were.
-/

namespace PeerProbe.Eth

variable {f : Frame} {max : UInt32} {s : Status} {code : UInt64}

/-! ## Decoded frames -/

/-- A payload of another kind is no status. -/
theorem map_ne_status {α : Type} {make : α → Payload} (hmake : ∀ a, make a ≠ .status s)
    (x : Except MessageError α) : make <$> x ≠ .ok (.status s) := by
  cases x with
  | error e => exact nofun
  | ok a => exact fun h => hmake a (Except.ok.inj h)

/-- Only a frame with the code of a status is decoded to one. -/
theorem code_of_decodeMessage (h : decodeMessage f max = .ok (.status s)) : f.code = Code.status := by
  unfold decodeMessage at h
  split at h
  · contradiction
  · split at h
    · contradiction
    · unfold Payload.ofCode at h
      split at h
      · assumption
      · exfalso
        revert h
        repeat' split
        all_goals first
          | exact map_ne_status nofun _
          | exact nofun

/-- The error of decoding a payload is about its body. -/
theorem exists_malformedBody {α : Type} {make : α → Payload} {item : Rlp.Reader α}
    {payload : List UInt8} {e : MessageError}
    (h : make <$> decodeExact item code payload = .error e) :
    ∃ size reason, e = .malformedBody code size reason := by
  unfold decodeExact at h
  split at h
  · contradiction
  · exact ⟨_, _, (Except.error.inj h).symm⟩

/-- Once its code and size are accepted, a frame is refused for its body only. -/
theorem exists_malformedBody_of_ofCode {e : MessageError} (h : Payload.ofCode f = .error e) :
    ∃ size reason, e = .malformedBody f.code size reason := by
  unfold Payload.ofCode at h
  repeat' split at h
  all_goals first
    | exact exists_malformedBody h
    | contradiction

/-- Decoding refuses a frame for what it is, and never for what came before it. -/
theorem decodeMessage_ne_noStatusYet (f : Frame) (max : UInt32) (code : UInt64) :
    decodeMessage f max ≠ .error (.noStatusYet code) := by
  intro h
  unfold decodeMessage at h
  split at h
  · cases h
  · split at h
    · cases h
    · obtain ⟨_, _, hbody⟩ := exists_malformedBody_of_ofCode h
      contradiction

/-- A frame is too large for a limit exactly if it is not empty and declares more. -/
theorem decodeMessage_eq_tooLarge_iff {size : UInt32} :
    decodeMessage f max = .error (.tooLarge size max) ↔
      f.isEmpty = false ∧ max < f.size ∧ size = f.size := by
  unfold decodeMessage
  split
  · next hempty => simp [hempty]
  · next hempty =>
    rw [Bool.not_eq_true] at hempty
    split
    · next hover => simp [hempty, hover, eq_comm]
    · next hover =>
      constructor
      · intro h
        obtain ⟨_, _, hbody⟩ := exists_malformedBody_of_ofCode h
        contradiction
      · intro h
        exact absurd h.2.1 hover

/-! ## What a reader knows -/

/-- An item that a reader with some limit accepts as a status. -/
def IsStatus (max : UInt32) (item : Except TransportError Frame) : Prop :=
  ∃ f s, item = .ok f ∧ decodeMessage f max = .ok (.status s)

namespace Reading

variable {r : Reading} {item : Except TransportError Frame}
  {items before : List (Except TransportError Frame)} {n : Nat}

/-- The reader after some items. -/
def after (r : Reading) (items : List (Except TransportError Frame)) : Reading :=
  items.foldl (fun r item => (r.next item).2) r

@[simp] theorem after_nil : r.after [] = r := rfl

@[simp] theorem after_cons : r.after (item :: items) = (r.next item).2.after items := rfl

theorem after_append (more : List (Except TransportError Frame)) :
    r.after (items ++ more) = (r.after items).after more := List.foldl_append ..

@[simp] theorem maxMessage_after : (r.after items).maxMessage = r.maxMessage := by
  induction items generalizing r with
  | nil => rfl
  | cons item items ih => exact ih

/-- A frame that is looked at is reported as what it is decoded to. -/
theorem report_of_not_isEarly (h : r.isEarly f = false) :
    r.report (.ok f) = (decodeMessage f r.maxMessage).mapError .decode := by
  rw [report, if_neg (by simp [h])]
  cases decodeMessage f r.maxMessage <;> rfl

/-- A reader reports a status whenever a frame is decoded to one, since such a frame never comes too
early. -/
theorem report_eq_status_iff :
    r.report (.ok f) = .ok (.status s) ↔ decodeMessage f r.maxMessage = .ok (.status s) := by
  constructor
  · intro h
    cases hearly : r.isEarly f with
    | true =>
      rw [report, if_pos hearly] at h
      contradiction
    | false =>
      rw [report_of_not_isEarly hearly] at h
      cases hdecode : decodeMessage f r.maxMessage with
      | error e => rw [hdecode] at h; contradiction
      | ok p => rw [hdecode] at h; exact congrArg _ (Except.ok.inj h)
  · intro h
    have hlate : r.isEarly f = false := by simp [isEarly, code_of_decodeMessage h]
    rw [report_of_not_isEarly hlate, h]
    rfl

/-- A reader has accepted a status once it had before or accepts this item. -/
theorem seenAfter_iff :
    r.seenAfter item = true ↔ r.statusSeen = true ∨ IsStatus r.maxMessage item := by
  unfold seenAfter
  split
  · next s hreport =>
    cases item with
    | error e => cases hreport
    | ok f => exact ⟨fun _ => .inr ⟨f, s, rfl, report_eq_status_iff.mp hreport⟩, fun _ => rfl⟩
  · next hnone =>
    refine ⟨.inl, fun h => h.resolve_right ?_⟩
    rintro ⟨f, s, rfl, hs⟩
    exact hnone s (report_eq_status_iff.mpr hs)

/-- After some items a status has been accepted if it had been at first, or one of them was. -/
theorem statusSeen_after : (r.after items).statusSeen = true ↔
    r.statusSeen = true ∨ ∃ item ∈ items, IsStatus r.maxMessage item := by
  induction items generalizing r with
  | nil => simp
  | cons item items ih =>
    have hnext : (r.next item).2.statusSeen = true ↔ r.statusSeen = true ∨ IsStatus r.maxMessage item :=
      seenAfter_iff
    have hmax : (r.next item).2.maxMessage = r.maxMessage := rfl
    rw [after_cons, ih, hnext, hmax, or_assoc]
    simp only [List.mem_cons, exists_eq_or_imp]

/-! ## What it answers -/

@[simp] theorem length_run (r : Reading) (items : List (Except TransportError Frame)) :
    (r.run items).length = items.length := by
  induction items generalizing r with
  | nil => rfl
  | cons item items ih => rw [run, List.length_cons, List.length_cons, ih]

theorem run_append (r : Reading) (items more : List (Except TransportError Frame)) :
    r.run (items ++ more) = r.run items ++ (r.after items).run more := by
  induction items generalizing r with
  | nil => rfl
  | cons item items ih => rw [List.cons_append, run, run, ih, after_cons, List.cons_append]

/-- Each answer is the report of the reader that the items before have left. -/
theorem run_getElem? (r : Reading) (items : List (Except TransportError Frame)) (n : Nat) :
    (r.run items)[n]? = items[n]?.map (r.after (items.take n)).report := by
  induction items generalizing r n with
  | nil => rfl
  | cons item items ih =>
    cases n with
    | zero => rfl
    | succ n => rw [run, List.getElem?_cons_succ, ih, List.take_succ_cons, after_cons,
        List.getElem?_cons_succ]

/-- A frame comes too early for a reader: it is not empty, it has another code than a status, and no
status has been accepted at first or in the items before. -/
structure TooEarly (r : Reading) (before : List (Except TransportError Frame)) (f : Frame) : Prop where
  unseen : r.statusSeen = false
  unmet : ∀ item ∈ before, ¬IsStatus r.maxMessage item
  code : f.code ≠ Code.status
  nonempty : f.isEmpty = false

theorem isEarly_after_iff : (r.after before).isEarly f = true ↔ r.TooEarly before f := by
  have hseen : (r.after before).statusSeen = false ↔
      r.statusSeen = false ∧ ∀ item ∈ before, ¬IsStatus r.maxMessage item := by
    rw [← Bool.not_eq_true, statusSeen_after, not_or, Bool.not_eq_true]
    simp
  constructor
  · intro h
    simp only [isEarly, Bool.and_eq_true, Bool.not_eq_true', decide_eq_true_eq] at h
    obtain ⟨⟨hunseen, hcode⟩, hnonempty⟩ := h
    obtain ⟨hfirst, hbefore⟩ := hseen.mp hunseen
    exact ⟨hfirst, hbefore, hcode, hnonempty⟩
  · intro h
    simp [isEarly, hseen.mpr ⟨h.unseen, h.unmet⟩, h.code, h.nonempty]

theorem report_of_tooEarly (h : r.TooEarly before f) :
    (r.after before).report (.ok f) = .error (.decode (.noStatusYet f.code)) := by
  rw [report, if_pos (isEarly_after_iff.mpr h)]

theorem report_of_not_tooEarly (h : ¬r.TooEarly before f) :
    (r.after before).report (.ok f) = (decodeMessage f r.maxMessage).mapError .decode := by
  have hlate : (r.after before).isEarly f = false := by
    rw [← Bool.not_eq_true, isEarly_after_iff]
    exact h
  rw [report_of_not_isEarly hlate, maxMessage_after]

/-- What a reader answers over a sequence of items, one call each. -/
structure Traced (r : Reading) (items : List (Except TransportError Frame)) : Prop where
  /-- There is one answer to each item. -/
  length : (r.run items).length = items.length
  /-- A failure of the connection is passed on. -/
  failed : ∀ (n : Nat) (e : TransportError), items[n]? = some (.error e) →
    (r.run items)[n]? = some (.error (.transport e))
  /-- A frame that comes too early is refused. -/
  early : ∀ (n : Nat) (f : Frame), items[n]? = some (.ok f) → r.TooEarly (items.take n) f →
    (r.run items)[n]? = some (.error (.decode (.noStatusYet f.code)))
  /-- Every other frame is decoded. -/
  decoded : ∀ (n : Nat) (f : Frame), items[n]? = some (.ok f) → ¬r.TooEarly (items.take n) f →
    (r.run items)[n]? = some ((decodeMessage f r.maxMessage).mapError .decode)
  /-- No other frame is refused for coming too early. -/
  earlyOnly : ∀ (n : Nat) (code : UInt64),
    (r.run items)[n]? = some (.error (.decode (.noStatusYet code))) →
      ∃ f, items[n]? = some (.ok f) ∧ r.TooEarly (items.take n) f ∧ f.code = code
  /-- What is known in front of each item. -/
  statusSeen : ∀ n, (r.after (items.take n)).statusSeen = true ↔
    r.statusSeen = true ∨ ∃ item ∈ items.take n, IsStatus r.maxMessage item

theorem traced (r : Reading) (items : List (Except TransportError Frame)) : Traced r items where
  length := length_run r items
  failed n e h := by
    rw [run_getElem?, h]
    rfl
  early n f h hearly := by rw [run_getElem?, h, Option.map_some, report_of_tooEarly hearly]
  decoded n f h hlate := by rw [run_getElem?, h, Option.map_some, report_of_not_tooEarly hlate]
  earlyOnly n code h := by
    rw [run_getElem?] at h
    obtain ⟨item, hitem, hreport⟩ := Option.map_eq_some_iff.mp h
    cases item with
    | error e => cases hreport
    | ok f =>
      by_cases hearly : r.TooEarly (items.take n) f
      · rw [report_of_tooEarly hearly] at hreport
        cases hreport
        exact ⟨f, hitem, hearly, rfl⟩
      · rw [report_of_not_tooEarly hearly] at hreport
        cases hdecode : decodeMessage f r.maxMessage with
        | ok p =>
          rw [hdecode] at hreport
          cases hreport
        | error e =>
          rw [hdecode] at hreport
          cases hreport
          exact absurd hdecode (decodeMessage_ne_noStatusYet f _ code)
  statusSeen _ := statusSeen_after

/-! ## How many messages it accepts -/

/-- The number of items that are accepted as messages. -/
def accepted (r : Reading) (items : List (Except TransportError Frame)) : Nat :=
  (r.run items).countP Except.isOk

theorem accepted_concat (r : Reading) (items : List (Except TransportError Frame))
    (item : Except TransportError Frame) :
    r.accepted (items ++ [item]) =
      r.accepted items + if ((r.after items).report item).isOk then 1 else 0 := by
  rw [accepted, run_append, List.countP_append]
  exact congrArg _ (List.countP_singleton ..)

end Reading

end PeerProbe.Eth
