import PeerProbe.Json.Shape
import PeerProbe.Proofs.Json.Strings
import PeerProbe.Proofs.Text.Numerals

/-!
# Values as they are written

A value is written without blanks, and each of its parts ends where the reader stops: a numeral in
front of a comma or a bracket, everything else at its own last character. So what is read back is the
value that was written, whatever stands behind it.

This is true of values as a reader makes them, with the keys of every object in order, numbers that
fit 64 bits and no deeper nesting than the reader follows. Doubles are left out.
-/

namespace PeerProbe.Json

/-! ## Values that can be read back -/

/-- A value without doubles. -/
inductive Value.Exact : Value → Prop where
  | null : Exact .null
  | bool (b : Bool) : Exact (.bool b)
  | integer (n : Int) : Exact (.integer n)
  | string (s : String) : Exact (.string s)
  | array {items : List Value} (h : ∀ v ∈ items, Exact v) : Exact (.array items)
  | object {members : List (String × Value)} (h : ∀ m ∈ members, Exact m.2) :
      Exact (.object members)

/-- A value without doubles, nested no deeper than `depth`, as a reader makes it. -/
inductive Value.Plain : Nat → Value → Prop where
  | null {depth : Nat} : Plain depth .null
  | bool {depth : Nat} (b : Bool) : Plain depth (.bool b)
  | integer {depth : Nat} {n : Int} (hlow : -0x8000000000000000 ≤ n)
      (hhigh : n < 0x10000000000000000) : Plain depth (.integer n)
  | string {depth : Nat} (s : String) : Plain depth (.string s)
  | array {depth : Nat} {items : List Value} (h : ∀ v ∈ items, Plain depth v) :
      Plain (depth + 1) (.array items)
  | object {depth : Nat} {members : List (String × Value)}
      (hkeys : (members.map Prod.fst).Pairwise (· < ·)) (h : ∀ m ∈ members, Plain depth m.2) :
      Plain (depth + 1) (.object members)

/-- A plain value has no doubles. -/
theorem Value.Plain.exact {depth : Nat} {v : Value} (h : v.Plain depth) : v.Exact := by
  induction h with
  | null => exact .null
  | bool b => exact .bool b
  | integer => exact .integer _
  | string s => exact .string s
  | array h ih => exact .array ih
  | object hkeys h ih => exact .object ih

/-- What may stand behind a value: nothing, or what separates it from the next one. -/
def Stops : List Char → Prop
  | [] => True
  | c :: _ => c = ',' ∨ c = ']' ∨ c = '\x7d'

variable {depth fuel n d : Nat} {v : Value} {rest cs : List Char} {ds : List Nat}

/-! ## Numerals -/

/-- The digits of a number are read off its characters. -/
theorem values_of_places (h : Text.Places 10 n ds) :
    (Nat.toDigits 10 n).map (fun c => c.toNat - 48) = ds := by
  have hdigit : ∀ d < 10, (Nat.digitChar d).toNat - 48 = d := by decide
  rw [h.written, List.map_map]
  exact (List.map_congr_left fun d hd => hdigit d (h.small d hd)).trans (List.map_id ds)

/-- The digits of a numeral end where something else begins. -/
theorem digits_append (hsmall : ∀ d ∈ ds, d < 10) (hrest : Stops rest) :
    digits (ds.map Nat.digitChar ++ rest) = (ds, rest) := by
  induction ds with
  | nil =>
    cases rest with
    | nil => rfl
    | cons c rest => obtain rfl | rfl | rfl := hrest <;> rfl
  | cons d ds ih =>
    have hd : d < 10 := hsmall d List.mem_cons_self
    have hdigit : ∀ d < 10, (Nat.digitChar d).isDigit = true ∧ (Nat.digitChar d).toNat - 48 = d := by
      decide
    rw [List.map_cons, List.cons_append, digits, if_pos (hdigit d hd).1,
      ih fun e he => hsmall e (List.mem_cons_of_mem _ he)]
    simp [(hdigit d hd).2]

/-- A natural number is read digit by digit. -/
theorem numeral?_toDigits (negative : Bool) (n : Nat) (hrest : Stops rest) :
    numeral? negative (Nat.toDigits 10 n ++ rest) =
      some (⟨negative, (Nat.toDigits 10 n).map fun c => c.toNat - 48, none, none⟩, rest) := by
  obtain ⟨ds, hds⟩ := Text.exists_places (by decide : 1 < 10) n
  have hlone : (ds.isEmpty || (ds.head? == some 0 && 1 < ds.length)) = false := by
    cases hhead : ds.head? == some 0 with
    | true => simp [hds.lone (by simpa using hhead)]
    | false => simpa using hds.ne_nil
  have hfraction : fraction? rest = some (none, rest) := by
    cases rest with
    | nil => rfl
    | cons c rest => obtain rfl | rfl | rfl := hrest <;> rfl
  have hexponent : exponent? rest = some (none, rest) := by
    cases rest with
    | nil => rfl
    | cons c rest => obtain rfl | rfl | rfl := hrest <;> rfl
  rw [values_of_places hds, hds.written, numeral?, digits_append hds.small hrest]
  simp only [hlone, hfraction, hexponent, Bool.false_eq_true, ↓reduceIte, Option.bind_eq_bind,
    Option.bind_some]

/-- A numeral that fits 64 bits stands for its number. -/
theorem value?_integer {n : Int} (hlow : -0x8000000000000000 ≤ n) (hhigh : n < 0x10000000000000000) :
    Tree.value? depth (Value.integer n).tree = some (.integer n) := by
  obtain ⟨ds, hds⟩ := Text.exists_places (by decide : 1 < 10) n.natAbs
  have hvalue : digitsNat ds = n.natAbs := hds.value
  simp only [Value.tree, Tree.value?, Numeral.value?, values_of_places hds, hvalue]
  rw [if_pos ⟨rfl, rfl⟩]
  by_cases hnegative : n < 0
  · rw [if_pos (decide_eq_true hnegative), if_pos ⟨by omega, by omega⟩]
    have habs : -(n.natAbs : Int) = n := by omega
    rw [habs]
  · rw [if_neg (by simpa using hnegative), if_pos (by omega)]
    have habs : (n.natAbs : Int) = n := by omega
    rw [habs]

/-- A digit begins a numeral. -/
theorem readValue_digit (hd : d < 10) (fuel : Nat) (cs : List Char) :
    readValue (fuel + 1) (Nat.digitChar d :: cs) =
      (numeral? false (Nat.digitChar d :: cs)).map fun r => (.number r.1, r.2) := by
  match d, hd with
  | 0, _ | 1, _ | 2, _ | 3, _ | 4, _ | 5, _ | 6, _ | 7, _ | 8, _ | 9, _ => rfl

/-- An integer is read as its numeral. -/
theorem readValue_integer (n : Int) (hrest : Stops rest) (fuel : Nat) :
    readValue (fuel + 1) ((Value.integer n).chars ++ rest) = some ((Value.integer n).tree, rest) := by
  cases n with
  | ofNat m =>
    obtain ⟨ds, hds⟩ := Text.exists_places (by decide : 1 < 10) m
    obtain ⟨d, ds', rfl⟩ := List.exists_cons_of_ne_nil hds.ne_nil
    have hread := numeral?_toDigits false m hrest
    have hfirst : Nat.toDigits 10 m ++ rest =
        Nat.digitChar d :: (ds'.map Nat.digitChar ++ rest) := by
      rw [hds.written]
      rfl
    rw [hfirst] at hread
    rw [Value.chars, integerChars, hfirst, readValue_digit (hds.small d List.mem_cons_self), hread]
    rfl
  | negSucc m =>
    have hread := numeral?_toDigits true (m + 1) hrest
    have hfirst : (Value.integer (.negSucc m)).chars ++ rest =
        '-' :: (Nat.toDigits 10 (m + 1) ++ rest) := by
      rw [Value.chars, integerChars]
      rfl
    have hstep : readValue (fuel + 1) ('-' :: (Nat.toDigits 10 (m + 1) ++ rest)) =
        (numeral? true (Nat.toDigits 10 (m + 1) ++ rest)).map fun r => (.number r.1, r.2) := rfl
    rw [hfirst, hstep, hread]
    simp [Value.tree, Int.negSucc_lt_zero]

/-! ## From the text to the tree -/

/-- How a value begins: not with a blank, and not like the end of an array or an object. -/
theorem exists_head (h : v.Exact) :
    ∃ c cs, v.chars = c :: cs ∧ isSpace c = false ∧ c ≠ ']' ∧ c ≠ '\x7d' := by
  cases h with
  | null => exact ⟨'n', _, rfl, rfl, by decide, by decide⟩
  | bool b =>
    cases b with
    | true => exact ⟨'t', _, rfl, rfl, by decide, by decide⟩
    | false => exact ⟨'f', _, rfl, rfl, by decide, by decide⟩
  | string s => exact ⟨'"', _, rfl, rfl, by decide, by decide⟩
  | array => exact ⟨'[', _, rfl, rfl, by decide, by decide⟩
  | object => exact ⟨'\x7b', _, rfl, rfl, by decide, by decide⟩
  | integer n =>
    cases n with
    | negSucc m => exact ⟨'-', _, rfl, rfl, by decide, by decide⟩
    | ofNat m =>
      obtain ⟨ds, hds⟩ := Text.exists_places (by decide : 1 < 10) m
      obtain ⟨d, ds', rfl⟩ := List.exists_cons_of_ne_nil hds.ne_nil
      have hdigit : ∀ d < 10, isSpace (Nat.digitChar d) = false ∧ Nat.digitChar d ≠ ']' ∧
          Nat.digitChar d ≠ '\x7d' := by
        decide
      exact ⟨Nat.digitChar d, ds'.map Nat.digitChar, hds.written,
        hdigit d (hds.small d List.mem_cons_self)⟩

/-- A value is read as it was written, with enough fuel and whatever stands behind it. -/
def Value.ReadsBack (v : Value) : Prop :=
  ∀ fuel rest, 2 * v.chars.length ≤ fuel → Stops rest →
    readValue fuel (v.chars ++ rest) = some (v.tree, rest)

/-- Items that are read back are read back one after the other. -/
theorem readItems_itemsChars {items : List Value} (hne : items ≠ [])
    (h : ∀ v ∈ items, v.ReadsBack) (hfuel : 2 * (itemsChars items).length + 1 ≤ fuel)
    (rest : List Char) :
    readItems fuel (itemsChars items ++ ']' :: rest) = some (itemTrees items, rest) := by
  induction items generalizing fuel with
  | nil => exact absurd rfl hne
  | cons v items ih =>
    obtain ⟨fuel, rfl⟩ := Nat.exists_eq_add_one_of_ne_zero (Nat.ne_zero_of_lt hfuel)
    have hv := h v List.mem_cons_self
    cases items with
    | nil =>
      rw [itemsChars] at hfuel ⊢
      rw [readItems, hv fuel (']' :: rest) (by omega) (.inr (.inl rfl))]
      rfl
    | cons w items =>
      rw [itemsChars, List.length_append, List.length_cons] at hfuel
      have hrest : readItems fuel (itemsChars (w :: items) ++ ']' :: rest) =
          some (itemTrees (w :: items), rest) :=
        ih (List.cons_ne_nil _ _) (fun u hu => h u (List.mem_cons_of_mem _ hu)) (by omega)
      have hbehind : itemsChars (v :: w :: items) ++ ']' :: rest =
          v.chars ++ ',' :: (itemsChars (w :: items) ++ ']' :: rest) := by
        simp [itemsChars]
      have hcomma (cs : List Char) : skipSpace (',' :: cs) = ',' :: cs := rfl
      have hread := hv fuel (',' :: (itemsChars (w :: items) ++ ']' :: rest)) (by omega) (.inl rfl)
      rw [hbehind, readItems, hread]
      simp only [hcomma, hrest]
      rfl

/-- Members whose values are read back are read back one after the other. -/
theorem readMembers_membersChars {members : List (String × Value)} (hne : members ≠ [])
    (h : ∀ m ∈ members, m.2.ReadsBack) (hfuel : 2 * (membersChars members).length + 1 ≤ fuel)
    (rest : List Char) :
    readMembers fuel (membersChars members ++ '\x7d' :: rest) = some (memberTrees members, rest) := by
  induction members generalizing fuel with
  | nil => exact absurd rfl hne
  | cons m members ih =>
    obtain ⟨fuel, rfl⟩ := Nat.exists_eq_add_one_of_ne_zero (Nat.ne_zero_of_lt hfuel)
    obtain ⟨key, v⟩ := m
    have hv : v.ReadsBack := h (key, v) List.mem_cons_self
    have hkey (behind : List Char) : stringChars key.toList ++ ':' :: behind =
        '"' :: (key.toList.flatMap escapeChar ++ '"' :: ':' :: behind) := by
      simp [stringChars]
    have hquote (cs : List Char) : skipSpace ('"' :: cs) = '"' :: cs := rfl
    have hcolon (cs : List Char) : skipSpace (':' :: cs) = ':' :: cs := rfl
    cases members with
    | nil =>
      rw [membersChars, List.length_append, List.length_cons] at hfuel
      have hclose (cs : List Char) : skipSpace ('\x7d' :: cs) = '\x7d' :: cs := rfl
      have hread := hv fuel ('\x7d' :: rest) (by omega) (.inr (.inr rfl))
      rw [membersChars, List.append_assoc, List.cons_append, hkey, readMembers]
      simp only [hquote, string?_flatMap, hcolon, hread, hclose]
      rfl
    | cons m members =>
      rw [membersChars, List.length_append, List.length_append, List.length_cons,
        List.length_cons] at hfuel
      have hrest : readMembers fuel (membersChars (m :: members) ++ '\x7d' :: rest) =
          some (memberTrees (m :: members), rest) :=
        ih (List.cons_ne_nil _ _) (fun u hu => h u (List.mem_cons_of_mem _ hu)) (by omega)
      have hcomma (cs : List Char) : skipSpace (',' :: cs) = ',' :: cs := rfl
      have hread := hv fuel (',' :: (membersChars (m :: members) ++ '\x7d' :: rest)) (by omega)
        (.inl rfl)
      have hbehind : membersChars ((key, v) :: m :: members) ++ '\x7d' :: rest =
          stringChars key.toList ++ ':' ::
            (v.chars ++ ',' :: (membersChars (m :: members) ++ '\x7d' :: rest)) := by
        simp [membersChars]
      rw [hbehind, hkey, readMembers]
      simp only [hquote, string?_flatMap, hcolon, hread, hcomma, hrest]
      rfl

/-- What begins with the items of an array does not end it, and no blank is skipped. -/
theorem exists_head_items {items : List Value} (hne : items ≠ []) (h : ∀ v ∈ items, v.Exact) :
    ∃ c cs, itemsChars items = c :: cs ∧ isSpace c = false ∧ c ≠ ']' := by
  obtain ⟨v, items, rfl⟩ := List.exists_cons_of_ne_nil hne
  obtain ⟨c, cs, hv, hspace, hclose, -⟩ := exists_head (h v List.mem_cons_self)
  cases items with
  | nil => exact ⟨c, cs, hv, hspace, hclose⟩
  | cons w items => exact ⟨c, _, by rw [itemsChars, hv, List.cons_append], hspace, hclose⟩

/-- The members of an object begin with the quote of the first key. -/
theorem exists_head_members {members : List (String × Value)} (hne : members ≠ []) :
    ∃ cs, membersChars members = '"' :: cs := by
  obtain ⟨⟨key, v⟩, members, rfl⟩ := List.exists_cons_of_ne_nil hne
  cases members with
  | nil => exact ⟨_, by rw [membersChars, stringChars]; rfl⟩
  | cons m members => exact ⟨_, by rw [membersChars, stringChars]; rfl⟩

/-- An array that does not end at once is read as its items. -/
theorem readValue_array {c : Char} (hspace : isSpace c = false) (hclose : c ≠ ']') (fuel : Nat)
    (cs : List Char) : readValue (fuel + 1) ('[' :: c :: cs) =
      (readItems fuel (c :: cs)).map fun r => (.array r.1, r.2) := by
  have hopen : skipSpace ('[' :: c :: cs) = '[' :: c :: cs := rfl
  have hskip : skipSpace (c :: cs) = c :: cs := by
    rw [skipSpace, List.dropWhile_cons_of_neg (by simp [hspace])]
  rw [readValue, hopen]
  simp only [hskip]
  split
  · next h => exact absurd (List.cons.inj h).1 hclose
  · rfl

/-- An object that does not end at once is read as its members. -/
theorem readValue_object (fuel : Nat) (cs : List Char) : readValue (fuel + 1) ('\x7b' :: '"' :: cs) =
    (readMembers fuel ('"' :: cs)).map fun r => (.object r.1, r.2) := rfl

/-- An array is read back when its items are. -/
theorem readsBack_array {items : List Value} (hexact : ∀ v ∈ items, v.Exact)
    (h : ∀ v ∈ items, v.ReadsBack) : (Value.array items).ReadsBack := by
  intro fuel rest hfuel _
  rw [Value.chars, List.length_append, List.length_cons, List.length_singleton] at hfuel
  obtain ⟨fuel, rfl⟩ := Nat.exists_eq_add_one_of_ne_zero (n := fuel) (by omega)
  rw [Value.chars, List.append_assoc, List.cons_append, List.singleton_append]
  by_cases hne : items = []
  · subst hne
    rfl
  · have hread : readItems fuel (itemsChars items ++ ']' :: rest) = some (itemTrees items, rest) :=
      readItems_itemsChars hne h (by omega) rest
    obtain ⟨c, cs, hitems, hspace, hclose⟩ := exists_head_items hne hexact
    rw [hitems, List.cons_append] at hread ⊢
    rw [readValue_array hspace hclose, hread]
    rfl

/-- An object is read back when the values of its members are. -/
theorem readsBack_object {members : List (String × Value)} (h : ∀ m ∈ members, m.2.ReadsBack) :
    (Value.object members).ReadsBack := by
  intro fuel rest hfuel _
  rw [Value.chars, List.length_append, List.length_cons, List.length_singleton] at hfuel
  obtain ⟨fuel, rfl⟩ := Nat.exists_eq_add_one_of_ne_zero (n := fuel) (by omega)
  rw [Value.chars, List.append_assoc, List.cons_append, List.singleton_append]
  by_cases hne : members = []
  · subst hne
    rfl
  · have hread : readMembers fuel (membersChars members ++ '\x7d' :: rest) =
        some (memberTrees members, rest) :=
      readMembers_membersChars hne h (by omega) rest
    obtain ⟨cs, hmembers⟩ := exists_head_members hne
    rw [hmembers, List.cons_append] at hread ⊢
    rw [readValue_object, hread]
    rfl

/-- A value without doubles is read back. -/
theorem Value.Exact.readsBack (h : v.Exact) : v.ReadsBack := by
  induction h with
  | null =>
    intro fuel rest hfuel _
    obtain ⟨fuel, rfl⟩ := Nat.exists_eq_add_one_of_ne_zero (Nat.ne_zero_of_lt hfuel)
    rfl
  | bool b =>
    intro fuel rest hfuel _
    cases b <;>
    · obtain ⟨fuel, rfl⟩ := Nat.exists_eq_add_one_of_ne_zero (Nat.ne_zero_of_lt hfuel)
      rfl
  | integer n =>
    intro fuel rest hfuel hrest
    obtain ⟨c, cs, hchars, -⟩ := exists_head (.integer n)
    rw [hchars, List.length_cons] at hfuel
    obtain ⟨fuel, rfl⟩ := Nat.exists_eq_add_one_of_ne_zero (Nat.ne_zero_of_lt hfuel)
    exact readValue_integer _ hrest fuel
  | string s =>
    intro fuel rest hfuel _
    obtain ⟨fuel, rfl⟩ := Nat.exists_eq_add_one_of_ne_zero (Nat.ne_zero_of_lt hfuel)
    exact readValue_string (List.forall_mem_nil fun c => isSpace c = true) s rest fuel
  | array h ih => exact readsBack_array h ih
  | object h ih => exact readsBack_object ih

/-- The text of a value without doubles is read as its tree. -/
theorem ofChars?_chars (h : v.Exact) : Tree.ofChars? v.chars = some v.tree := by
  have hread := h.readsBack (2 * v.chars.length + 2) [] (by omega) trivial
  rw [List.append_nil] at hread
  rw [Tree.ofChars?, hread]
  rfl

/-! ## From the tree to the value -/

/-- A member whose key is behind all others comes last. -/
theorem insertMember_of_lt {members : List (String × Value)} {key : String}
    (h : ∀ m ∈ members, m.1 < key) (v : Value) :
    insertMember key v members = members ++ [(key, v)] := by
  induction members with
  | nil => rfl
  | cons m members ih =>
    have hlt : m.1 < key := h m List.mem_cons_self
    have hne : key ≠ m.1 := fun heq => String.lt_irrefl key (heq ▸ hlt : key < key)
    have hnot : ¬ key < m.1 := fun hgt => String.lt_irrefl key (String.lt_trans hgt hlt)
    rw [insertMember, if_neg hne, if_neg hnot, ih fun u hu => h u (List.mem_cons_of_mem _ hu)]
    rfl

/-- Items that have their values have them together. -/
theorem itemValues?_itemTrees {items : List Value}
    (h : ∀ v ∈ items, Tree.value? depth v.tree = some v) :
    itemValues? depth (itemTrees items) = some items := by
  induction items with
  | nil => rfl
  | cons v items ih =>
    rw [itemTrees, itemValues?, h v List.mem_cons_self,
      ih fun u hu => h u (List.mem_cons_of_mem _ hu)]
    rfl

/-- Members that have their values have them together, if their keys are in order. -/
theorem memberValues?_memberTrees {members : List (String × Value)}
    (h : ∀ m ∈ members, Tree.value? depth m.2.tree = some m.2) (before : List (String × Value))
    (hkeys : ((before ++ members).map Prod.fst).Pairwise (· < ·)) :
    memberValues? depth (memberTrees members) before = some (before ++ members) := by
  induction members generalizing before with
  | nil => rw [memberTrees, memberValues?, List.append_nil]
  | cons m members ih =>
    obtain ⟨key, v⟩ := m
    have hlast : ∀ m ∈ before, m.1 < key := by
      intro m hm
      rw [List.map_append, List.pairwise_append] at hkeys
      exact hkeys.2.2 m.1 (List.mem_map_of_mem hm) key (by simp)
    have hrest := ih (fun u hu => h u (List.mem_cons_of_mem _ hu)) (before ++ [(key, v)])
      (by simpa using hkeys)
    rw [memberTrees, memberValues?, h (key, v) List.mem_cons_self]
    simp only [Option.bind_eq_bind, Option.bind_some, insertMember_of_lt hlast, hrest]
    simp

/-- The tree of a plain value has that value. -/
theorem Value.Plain.value?_tree (h : v.Plain depth) : Tree.value? depth v.tree = some v := by
  induction h with
  | null | bool | string => rfl
  | integer hlow hhigh => exact value?_integer hlow hhigh
  | array h ih =>
    rw [Value.tree, Tree.value?, itemValues?_itemTrees ih]
    rfl
  | object hkeys h ih =>
    rw [Value.tree, Tree.value?, memberValues?_memberTrees ih [] hkeys]
    rfl

/-- A 64-bit number can be read back. -/
theorem plain_word (x : UInt64) {depth : Nat} : (Value.nat x.toNat).Plain depth := by
  have hlt : x.toNat < 0x10000000000000000 := x.toNat_lt
  exact .integer (by omega) (by omega)

/-- A 64-bit number is read as it was written. -/
theorem word?_nat (x : UInt64) : (Value.nat x.toNat).tree.word? = some x := by
  have hvalue : Tree.value? 0 (Value.nat x.toNat).tree = some (.integer (.ofNat x.toNat)) :=
    (plain_word x).value?_tree
  rw [Value.nat, Value.tree, Tree.value?] at hvalue
  rw [Value.nat, Value.tree, Tree.word?]
  simp only [hvalue]
  exact congrArg some UInt64.ofNat_toNat

/-! ## What is not in the text -/

/-- What is in no item and separates none is not in the text of the items. -/
theorem not_mem_itemsChars {c : Char} {items : List Value} (hcomma : c ≠ ',')
    (h : ∀ v ∈ items, c ∉ v.chars) : c ∉ itemsChars items := by
  induction items with
  | nil => exact List.not_mem_nil
  | cons v items ih =>
    have hv := h v List.mem_cons_self
    have hitems := ih fun u hu => h u (List.mem_cons_of_mem _ hu)
    cases items with
    | nil => exact hv
    | cons w items =>
      rw [itemsChars, List.mem_append, List.mem_cons, not_or, not_or]
      exact ⟨hv, hcomma, hitems⟩

/-- What is in no key and no value and separates none is not in the text of the members. -/
theorem not_mem_membersChars {c : Char} {members : List (String × Value)} (hcomma : c ≠ ',')
    (hcolon : c ≠ ':') (h : ∀ m ∈ members, c ∉ stringChars m.1.toList ∧ c ∉ m.2.chars) :
    c ∉ membersChars members := by
  induction members with
  | nil => exact List.not_mem_nil
  | cons m members ih =>
    obtain ⟨key, v⟩ := m
    obtain ⟨hkey, hv⟩ := h (key, v) List.mem_cons_self
    have hmembers := ih fun u hu => h u (List.mem_cons_of_mem _ hu)
    cases members with
    | nil =>
      rw [membersChars, List.mem_append, List.mem_cons, not_or, not_or]
      exact ⟨hkey, hcolon, hv⟩
    | cons m members =>
      rw [membersChars, List.mem_append, List.mem_append, List.mem_cons, List.mem_cons, not_or,
        not_or, not_or, not_or]
      exact ⟨⟨hkey, hcolon, hv⟩, hcomma, hmembers⟩

/-- The text of a value without doubles has no control characters, so it stays on one line. -/
theorem Value.Exact.control_not_mem_chars {c : Char} (h : v.Exact) (hsmall : c.toNat < 0x20) :
    c ∉ v.chars := by
  have hne {e : Char} (he : ¬e.toNat < 0x20) : c ≠ e := fun heq => he (heq ▸ hsmall)
  have hdigits (m : Nat) : c ∉ Nat.toDigits 10 m := by
    obtain ⟨ds, hds⟩ := Text.exists_places (by decide : 1 < 10) m
    have hdigit : ∀ d < 10, ¬(Nat.digitChar d).toNat < 0x20 := by decide
    rw [hds.written, List.mem_map]
    rintro ⟨d, hd, rfl⟩
    exact hdigit d (hds.small d hd) hsmall
  induction h with
  | null => simp [Value.chars, hne]
  | bool b => cases b <;> simp [Value.chars, hne]
  | integer n =>
    cases n with
    | ofNat m => exact hdigits m
    | negSucc m =>
      rw [Value.chars, integerChars, List.mem_cons, not_or]
      exact ⟨hne (by decide), hdigits (m + 1)⟩
  | string s => exact control_not_mem_stringChars hsmall
  | array h ih =>
    have hitems := not_mem_itemsChars (hne (by decide)) ih
    simp [Value.chars, hitems, hne]
  | object h ih =>
    have hmembers := not_mem_membersChars (hne (by decide)) (hne (by decide))
      fun m hm => ⟨control_not_mem_stringChars hsmall, ih m hm⟩
    simp [Value.chars, hmembers, hne]

end PeerProbe.Json
