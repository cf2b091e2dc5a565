import PeerProbe.Proofs.Rlp.Exact

/-!
# The item types are exact

Strings first, then what is built on them: numbers without leading zeros, blocks of a fixed size
and truth values. Records are exact when their fields are, lists when their elements are and none
of them is written with no bytes.
-/

namespace PeerProbe.Rlp

/-! ## Strings -/

/-- A head is read when it is announced and its payload is there. -/
theorem Head.read_eq_ok {bytes rest : List UInt8} {h : Head} :
    Head.read bytes = .ok (h, rest) ↔
      Head.announce bytes = .ok (h, rest) ∧ h.size ≤ rest.length := by
  unfold Head.read
  cases hann : Head.announce bytes with
  | error e => simp
  | ok x =>
    obtain ⟨h', rest'⟩ := x
    dsimp only
    split
    · simp only [reduceCtorEq, false_iff, Except.ok.injEq, Prod.mk.injEq, not_and]
      rintro ⟨rfl, rfl⟩
      omega
    · simp only [Except.ok.injEq, Prod.mk.injEq, iff_self_and]
      rintro ⟨rfl, rfl⟩
      omega

/-- A head that is read is read again when more follows its payload. -/
theorem Head.read_more {bytes rest : List UInt8} {h : Head} (more : List UInt8)
    (hread : Head.read bytes = .ok (h, rest)) :
    Head.read (bytes ++ more) = .ok (h, rest ++ more) := by
  obtain ⟨hann, hroom⟩ := Head.read_eq_ok.mp hread
  refine Head.read_eq_ok.mpr ⟨?_, by rw [List.length_append]; omega⟩
  rcases Head.eq_bytes_of_announce hann with ⟨rfl, rfl, b, tail, rfl, hb⟩ | ⟨rfl, hsize, hbyte⟩
  · simp [Head.announce, hb]
  · rw [List.append_assoc]
    refine Head.announce_bytes hsize fun hone => ?_
    have hne : rest ≠ [] := by
      rintro rfl
      simp [hone] at hroom
    obtain ⟨b, tail, rfl⟩ := List.exists_cons_of_ne_nil hne
    refine ⟨by simp, ?_⟩
    rintro ⟨b', tail', heq, hb⟩
    obtain ⟨rfl, -⟩ := List.cons.inj heq
    exact hbyte hone ⟨b, tail, rfl, hb⟩

/-- No head announces more than eight bytes of length can say. -/
theorem Head.size_lt_of_read {bytes rest : List UInt8} {h : Head}
    (hread : Head.read bytes = .ok (h, rest)) : h.size < sizeLimit := by
  obtain ⟨hann, -⟩ := Head.read_eq_ok.mp hread
  rcases Head.eq_bytes_of_announce hann with ⟨rfl, -, -⟩ | ⟨-, hsize, -⟩
  · simp [sizeLimit]
  · exact hsize

/-- A payload that is not a bare byte is written behind its head. -/
theorem ofString_of_not_bare {payload : List UInt8}
    (h : payload.length = 1 → ¬ Head.BeginsBare payload) :
    ofString payload = Head.bytes ⟨false, payload.length⟩ ++ payload := by
  unfold ofString
  split
  · next b =>
    have hb : ¬ b.toNat < 0x80 := fun hb => h rfl ⟨b, [], rfl, hb⟩
    simp [hb]
  · rfl

/-- No string is written with no bytes. -/
theorem ofString_ne_nil (payload : List UInt8) : ofString payload ≠ [] := by
  unfold ofString
  split
  · split <;> simp [Head.bytes_ne_nil]
  · simp [Head.bytes_ne_nil]

/-- A string is never shorter than its payload. -/
theorem length_le_ofString (payload : List UInt8) : payload.length ≤ (ofString payload).length := by
  unfold ofString
  split
  · split <;> simp
  · simp

/-- A short string has a head of one byte. -/
theorem length_ofString_le {payload : List UInt8} (h : payload.length < 56) :
    (ofString payload).length ≤ payload.length + 1 := by
  have hhead : (Head.bytes ⟨false, payload.length⟩).length = 1 := by
    rw [Head.bytes, if_pos h]
    rfl
  unfold ofString
  split
  · split <;> simp [Head.bytes]
  · rw [List.length_append, hhead, Nat.add_comm]

/-- The head of a list has nine bytes at most. -/
theorem length_ofItems_le {payload : List UInt8} (h : payload.length < 2 ^ 64) :
    (ofItems payload).length ≤ payload.length + 9 := by
  have hhead : (Head.bytes ⟨true, payload.length⟩).length ≤ 9 := by
    have hwidth := Head.width_le_eight h
    unfold Head.bytes
    split
    · exact Nat.succ_le_succ (Nat.zero_le _)
    · rw [List.length_cons, BigEndian.length_shortest]
      exact Nat.succ_le_succ hwidth
  rw [ofItems, List.length_append]
  omega

/-- A string is read off a head of its kind: its payload is as much as the head announces. -/
theorem string_eq_ok {bytes payload rest : List UInt8} :
    string bytes = .ok (payload, rest) ↔
      ∃ h behind, Head.read bytes = .ok (h, behind) ∧ h.isList = false ∧
        payload = behind.take h.size ∧ rest = behind.drop h.size := by
  unfold string
  cases Head.read bytes with
  | error e => simp
  | ok x =>
    obtain ⟨h, behind⟩ := x
    cases hkind : h.isList <;> grind

/-- Reading a string accepts exactly the strings that are written. -/
theorem exact_string : Exact string ofString fun _ => True where
  of_read {bytes payload rest} hread := by
    obtain ⟨h, behind, hhead, hkind, rfl, rfl⟩ := string_eq_ok.mp hread
    obtain ⟨hann, hroom⟩ := Head.read_eq_ok.mp hhead
    refine ⟨trivial, ?_⟩
    rcases Head.eq_bytes_of_announce hann with ⟨rfl, rfl, b, tail, rfl, hb⟩ | ⟨rfl, -, hbyte⟩
    · simp [ofString, hb]
    · have hlen : (behind.take h.size).length = h.size := by rw [List.length_take]; omega
      have hstring : h = ⟨false, h.size⟩ := by
        cases h
        simp_all
      rw [ofString_of_not_bare, hlen, ← hstring, List.append_assoc, List.take_append_drop]
      rw [hlen]
      rintro hone ⟨b, tail, heq, hb⟩
      refine hbyte (by rw [hstring, hone]) ⟨b, tail ++ behind.drop h.size, ?_, hb⟩
      rw [← List.cons_append, ← heq, List.take_append_drop]
  read_more {bytes payload rest} more hread := by
    obtain ⟨h, behind, hhead, hkind, rfl, rfl⟩ := string_eq_ok.mp hread
    have hroom := (Head.read_eq_ok.mp hhead).2
    exact string_eq_ok.mpr ⟨h, behind ++ more, Head.read_more more hhead, hkind,
      (List.take_append_of_le_length hroom).symm, (List.drop_append_of_le_length hroom).symm⟩
  read_append {payload rest} _ hlen := by
    have hsize : payload.length < 2 ^ 64 := by
      have hle := length_le_ofString payload
      rw [List.length_append] at hlen
      unfold sizeLimit at hlen
      omega
    by_cases hbare : payload.length = 1 ∧ Head.BeginsBare payload
    · obtain ⟨hone, b, tail, rfl, hb⟩ := hbare
      obtain rfl : tail = [] := by simpa using hone
      simp [ofString, hb, string, Head.read, Head.announce]
    · rw [ofString_of_not_bare fun hone h => hbare ⟨hone, h⟩, List.append_assoc]
      have hann : Head.announce (Head.bytes ⟨false, payload.length⟩ ++ (payload ++ rest)) =
          .ok (⟨false, payload.length⟩, payload ++ rest) := by
        refine Head.announce_bytes hsize fun heq => ?_
        have hone : payload.length = 1 := congrArg Head.size heq
        obtain ⟨b, rfl⟩ := List.length_eq_one_iff.mp hone
        refine ⟨by simp, ?_⟩
        rintro ⟨b', tail, heq, hb⟩
        obtain ⟨rfl, -⟩ := List.cons.inj heq
        exact hbare ⟨rfl, b, [], rfl, hb⟩
      exact string_eq_ok.mpr ⟨_, _, Head.read_eq_ok.mpr ⟨hann, by simp⟩, rfl, by simp, by simp⟩

/-! ## Numbers, blocks and truth values -/

/-- A payload is the number of at most `width` bytes that it is the shortest form of. -/
theorem numberOf_eq_ok {width n : Nat} {order : Precedence} {payload : List UInt8} :
    numberOf width order payload = .ok n ↔
      n < 256 ^ width ∧ payload = BigEndian.shortest n := by
  have hcases : numberOf width order payload = .ok n ↔
      payload.length ≤ width ∧ payload.head? ≠ some 0 ∧ BigEndian.toNat payload = n := by
    unfold numberOf
    cases order <;> by_cases hlong : width < payload.length <;>
      by_cases hzero : payload.head? = some 0 <;> simp [hlong, hzero] <;> omega
  rw [hcases]
  constructor
  · rintro ⟨hlen, hzero, rfl⟩
    refine ⟨(BigEndian.width_le_iff _ _).mp ?_, (BigEndian.shortest_toNat hzero).symm⟩
    rwa [BigEndian.width_toNat hzero]
  · rintro ⟨hlt, rfl⟩
    exact ⟨by rw [BigEndian.length_shortest]; exact (BigEndian.width_le_iff _ _).mpr hlt,
      BigEndian.head?_shortest n, BigEndian.toNat_shortest n⟩

/-- A number is read off a string whose payload it is the number of. -/
theorem number_eq_ok {width n : Nat} {order : Precedence} {bytes rest : List UInt8} :
    number width order bytes = .ok (n, rest) ↔
      ∃ payload, string bytes = .ok (payload, rest) ∧ numberOf width order payload = .ok n := by
  unfold number
  cases string bytes with
  | error e => simp
  | ok x =>
    obtain ⟨payload, left⟩ := x
    cases hn : numberOf width order payload <;> grind [Except.map]

/-- Reading a number accepts exactly the shortest forms of the numbers of its width. -/
theorem exact_number (width : Nat) (order : Precedence) :
    Exact (number width order) ofNat fun n => n < 256 ^ width where
  of_read hread := by
    obtain ⟨payload, hstring, hn⟩ := number_eq_ok.mp hread
    obtain ⟨hlt, rfl⟩ := numberOf_eq_ok.mp hn
    exact ⟨hlt, (exact_string.of_read hstring).2⟩
  read_more more hread := by
    obtain ⟨payload, hstring, hn⟩ := number_eq_ok.mp hread
    exact number_eq_ok.mpr ⟨payload, exact_string.read_more more hstring, hn⟩
  read_append {n rest} hlt hlen :=
    number_eq_ok.mpr ⟨BigEndian.shortest n, exact_string.read_append trivial hlen,
      numberOf_eq_ok.mpr ⟨hlt, rfl⟩⟩

instance : ExactItem UInt32 where
  exact := (exact_number 4 .lengthFirst).map UInt32.ofNat UInt32.toNat
    (fun _ hn => UInt32.toNat_ofNat_of_lt' hn) fun n => ⟨n.toNat_lt, UInt32.ofNat_toNat⟩

instance : ExactItem UInt64 where
  exact := (exact_number 8 .lengthFirst).map UInt64.ofNat UInt64.toNat
    (fun _ hn => UInt64.toNat_ofNat_of_lt' hn) fun n => ⟨n.toNat_lt, UInt64.ofNat_toNat⟩

instance : ExactItem (BitVec 256) where
  exact := (exact_number 32 .zeroFirst).map (BitVec.ofNat 256) BitVec.toNat
    (fun _ hn => by rw [BitVec.toNat_ofNat]; exact Nat.mod_eq_of_lt hn)
    fun n => ⟨n.isLt, by rw [BitVec.ofNat_toNat, BitVec.setWidth_eq]⟩

instance : ExactItem (List UInt8) where
  exact := exact_string

/-- A truth value is read where the number 0 or 1 is, and from no other number. -/
theorem readBool_eq_ok {bytes rest : List UInt8} {b : Bool} :
    (Item.read : Reader Bool) bytes = .ok (b, rest) ↔
      number 1 .lengthFirst bytes = .ok (b.toNat, rest) := by
  simp only [Item.read]
  cases number 1 .lengthFirst bytes with
  | error e => simp
  | ok x =>
    obtain ⟨n, left⟩ := x
    dsimp only
    split
    · next hzero => cases b <;> simp [hzero]
    · next hzero =>
      split
      · next hone => cases b <;> simp [hone]
      · next hone => cases b <;> simp [hzero, hone]

instance : ExactItem Bool where
  exact := (exact_number 1 .lengthFirst).comap Bool.toNat (fun b => by cases b <;> simp)
    readBool_eq_ok

/-- A block is read where a string of its size is. -/
theorem readBlock_eq_ok {size : Nat} {bytes rest : List UInt8} {b : Block size} :
    (Item.read : Reader (Block size)) bytes = .ok (b, rest) ↔
      string bytes = .ok (b.bytes, rest) := by
  simp only [Item.read]
  cases string bytes with
  | error e => simp
  | ok x =>
    obtain ⟨payload, left⟩ := x
    by_cases hlen : payload.length = size
    · simp only [Block.ofBytes?, hlen, ↓reduceDIte, Except.ok.injEq, Prod.mk.injEq]
      exact and_congr_left' ⟨fun h => h ▸ rfl, fun h => Block.ext_bytes h⟩
    · simp only [Block.ofBytes?, hlen, ↓reduceDIte, reduceCtorEq, Except.ok.injEq, Prod.mk.injEq,
        false_iff, not_and]
      rintro rfl
      exact absurd b.length_eq hlen

instance (size : Nat) : ExactItem (Block size) where
  exact := exact_string.comap Block.bytes (fun _ => trivial) readBlock_eq_ok

/-! ## Records -/

/-- No record or list is written with no bytes. -/
theorem ofItems_ne_nil (payload : List UInt8) : ofItems payload ≠ [] := by
  simp [ofItems, Head.bytes_ne_nil]

/-- The head of a record or list is read from its written form. -/
theorem Head.read_ofItems {payload rest : List UInt8}
    (hlen : (ofItems payload ++ rest).length < sizeLimit) :
    Head.read (ofItems payload ++ rest) = .ok (⟨true, payload.length⟩, payload ++ rest) := by
  have hsize : payload.length < 2 ^ 64 := by
    simp only [ofItems, List.length_append, sizeLimit] at hlen
    omega
  rw [ofItems, List.append_assoc]
  exact Head.read_eq_ok.mpr ⟨Head.announce_bytes hsize (by simp), by simp⟩

/-- What stands behind the head of a list is the rest of its written form, if the head is right
about the size. -/
theorem Head.eq_ofItems {bytes payload rest : List UInt8} {h : Head}
    (hread : Head.read bytes = .ok (h, payload ++ rest)) (hkind : h.isList = true)
    (hsize : payload.length = h.size) : bytes = ofItems payload ++ rest := by
  obtain ⟨hann, -⟩ := Head.read_eq_ok.mp hread
  have hhead : h = ⟨true, payload.length⟩ := by
    cases h
    simp_all
  rcases Head.eq_bytes_of_announce hann with ⟨rfl, -, -⟩ | ⟨rfl, -, -⟩
  · contradiction
  · rw [ofItems, ← hhead, List.append_assoc]

/-- A record is read off a head of its kind when its fields take up what the head announces. -/
theorem record_eq_ok {α : Type} {fields : Reader α} {bytes rest : List UInt8} {a : α} :
    record fields bytes = .ok (a, rest) ↔
      ∃ h behind, Head.read bytes = .ok (h, behind) ∧ h.isList = true ∧
        fields behind = .ok (a, rest) ∧ behind.length - rest.length = h.size := by
  unfold Rlp.record
  cases Head.read bytes with
  | error e => simp
  | ok x =>
    obtain ⟨h, behind⟩ := x
    cases hkind : h.isList with
    | false => simp [hkind]
    | true => cases hfields : fields behind <;> grind

/-- A record is exact when its fields are. -/
theorem Exact.record {α : Type} {fields : Reader α} {write : α → List UInt8}
    (h : Exact fields write fun _ => True) :
    Exact (record fields) (fun a => ofItems (write a)) fun _ => True where
  of_read hread := by
    obtain ⟨head, behind, hhead, hkind, hfields, hsize⟩ := record_eq_ok.mp hread
    obtain ⟨-, rfl⟩ := h.of_read hfields
    rw [List.length_append] at hsize
    exact ⟨trivial, Head.eq_ofItems hhead hkind (by omega)⟩
  read_more more hread := by
    obtain ⟨head, behind, hhead, hkind, hfields, hsize⟩ := record_eq_ok.mp hread
    refine record_eq_ok.mpr ⟨head, behind ++ more, Head.read_more more hhead, hkind,
      h.read_more more hfields, ?_⟩
    simp only [List.length_append]
    omega
  read_append {a rest} _ hlen := by
    have hfields : (write a ++ rest).length < sizeLimit := by
      simp only [ofItems, List.length_append, sizeLimit] at hlen ⊢
      omega
    exact record_eq_ok.mpr ⟨_, _, Head.read_ofItems hlen, rfl, h.read_append trivial hfields,
      by simp⟩

/-- What stands behind the head of a record that is read are its written fields, and they are no
longer than a head can say. -/
theorem fields_of_record {α : Type} {fields : Reader α} {write : α → List UInt8}
    (h : Exact fields write fun _ => True) {bytes rest : List UInt8} {a : α}
    (hread : record fields bytes = .ok (a, rest)) :
    ∃ head, Head.read bytes = .ok (head, write a ++ rest) ∧ (write a).length < sizeLimit := by
  obtain ⟨head, behind, hhead, -, hfields, hsize⟩ := record_eq_ok.mp hread
  obtain ⟨-, rfl⟩ := h.of_read hfields
  have hlt := Head.size_lt_of_read hhead
  rw [List.length_append] at hsize
  exact ⟨head, hhead, by omega⟩

/-! ## Lists -/

/-- Elements that are read one after another up to the end are all there is. -/
theorem eq_flatMap_of_readAll {α : Type} {item : Reader α} {write : α → List UInt8}
    (h : Exact item write fun _ => True) {fuel : Nat} {bytes : List UInt8} {xs : List α}
    (hread : readAll item fuel bytes = .ok xs) : bytes = xs.flatMap write := by
  induction fuel generalizing bytes xs with
  | zero =>
    cases bytes with
    | nil =>
      obtain rfl := Except.ok.inj hread
      rfl
    | cons b bytes => contradiction
  | succ fuel ih =>
    cases bytes with
    | nil =>
      obtain rfl := Except.ok.inj hread
      rfl
    | cons b bytes =>
      simp only [readAll] at hread
      cases hitem : item (b :: bytes) with
      | error e => simp [hitem] at hread
      | ok x =>
        obtain ⟨a, rest⟩ := x
        cases hrest : readAll item fuel rest with
        | error e => simp [hitem, hrest, Except.map] at hread
        | ok ys =>
          simp only [hitem, hrest, Except.map, Except.ok.injEq] at hread
          subst hread
          rw [(h.of_read hitem).2, ih hrest, List.flatMap_cons]

/-- Elements written one after another are all read, as long as each of them takes up a byte. -/
theorem readAll_flatMap {α : Type} {item : Reader α} {write : α → List UInt8}
    (h : Exact item write fun _ => True) (hne : ∀ a, write a ≠ []) {fuel : Nat} {xs : List α}
    (hfuel : (xs.flatMap write).length ≤ fuel) (hlen : (xs.flatMap write).length < sizeLimit) :
    readAll item fuel (xs.flatMap write) = .ok xs := by
  induction xs generalizing fuel with
  | nil => cases fuel <;> rfl
  | cons a xs ih =>
    rw [List.flatMap_cons] at hfuel hlen ⊢
    obtain ⟨b, tail, hb⟩ := List.exists_cons_of_ne_nil (hne a)
    have hitem := h.read_append (a := a) trivial hlen
    rw [hb, List.cons_append] at hitem ⊢
    rw [List.length_append] at hfuel hlen
    have hpos : 0 < (write a).length := by rw [hb]; simp
    cases fuel with
    | zero => omega
    | succ fuel =>
      have hrest : readAll item fuel (xs.flatMap write) = .ok xs := ih (by omega) (by omega)
      simp [readAll, hitem, hrest, Except.map]

/-- A list is read off a head of its kind when what the head announces is all elements. -/
theorem list_eq_ok {α : Type} {item : Reader α} {bytes rest : List UInt8} {xs : List α} :
    list item bytes = .ok (xs, rest) ↔
      ∃ h behind, Head.read bytes = .ok (h, behind) ∧ h.isList = true ∧
        readAll item h.size (behind.take h.size) = .ok xs ∧ rest = behind.drop h.size := by
  unfold Rlp.list
  cases Head.read bytes with
  | error e => simp
  | ok x =>
    obtain ⟨h, behind⟩ := x
    cases hkind : h.isList with
    | false => simp [hkind]
    | true => cases hall : readAll item h.size (behind.take h.size) <;> grind [Except.map]

/-- A list is exact when its elements are and none of them is written with no bytes. -/
theorem Exact.list {α : Type} {item : Reader α} {write : α → List UInt8}
    (h : Exact item write fun _ => True) (hne : ∀ a, write a ≠ []) :
    Exact (list item) (fun xs => ofItems (xs.flatMap write)) fun _ => True where
  of_read hread := by
    obtain ⟨head, behind, hhead, hkind, hall, rfl⟩ := list_eq_ok.mp hread
    have hroom := (Head.read_eq_ok.mp hhead).2
    refine ⟨trivial, ?_⟩
    rw [← eq_flatMap_of_readAll h hall]
    refine Head.eq_ofItems ?_ hkind (by rw [List.length_take]; omega)
    rw [List.take_append_drop, hhead]
  read_more more hread := by
    obtain ⟨head, behind, hhead, hkind, hall, rfl⟩ := list_eq_ok.mp hread
    have hroom := (Head.read_eq_ok.mp hhead).2
    refine list_eq_ok.mpr ⟨head, behind ++ more, Head.read_more more hhead, hkind, ?_,
      (List.drop_append_of_le_length hroom).symm⟩
    rw [List.take_append_of_le_length hroom, hall]
  read_append {xs rest} _ hlen := by
    have hpayload : (xs.flatMap write).length < sizeLimit := by
      simp only [ofItems, List.length_append, sizeLimit] at hlen ⊢
      omega
    refine list_eq_ok.mpr ⟨_, _, Head.read_ofItems hlen, rfl, ?_, List.drop_left.symm⟩
    rw [List.take_left, readAll_flatMap h hne le_rfl hpayload]

/-- What stands behind the head of a list that is read are its written elements, and they are no
longer than a head can say. -/
theorem elements_of_list {α : Type} {item : Reader α} {write : α → List UInt8}
    (h : Exact item write fun _ => True) {bytes rest : List UInt8} {xs : List α}
    (hread : list item bytes = .ok (xs, rest)) :
    ∃ head, Head.read bytes = .ok (head, xs.flatMap write ++ rest) ∧
      (xs.flatMap write).length < sizeLimit := by
  obtain ⟨head, behind, hhead, -, hall, rfl⟩ := list_eq_ok.mp hread
  have hlt := Head.size_lt_of_read hhead
  have hroom := (Head.read_eq_ok.mp hhead).2
  have hbytes := eq_flatMap_of_readAll h hall
  refine ⟨head, ?_, ?_⟩
  · rw [← hbytes, List.take_append_drop, hhead]
  · rw [← hbytes, List.length_take]
    omega

end PeerProbe.Rlp
