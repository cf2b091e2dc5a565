import PeerProbe.Net.Address
import PeerProbe.Proofs.Text.Numerals

/-!
# Endpoints as they are written

Each reader takes off the front of a text what the printer of its kind wrote, if what follows cannot
belong to it. A number ends at the first character that is no digit, so numbers need a separator behind
them; groups end at a `]`, or at the `::` that stands for zeros.

An IPv6 address has three forms. Groups are tried as a dotted part first, and they are not one since no
dot follows their digits. Where zeros were left out, the groups on both sides of the `::` are fewer than
eight, and the zeros that are filled in are those of the run. The dotted form ends in the two groups
of an IPv4 address, which are the two groups it was made from.
-/

namespace PeerProbe

namespace AddressReader

open Text (Places)

variable {radix bound n limit : Nat} {most : Option Nat} {zeros first : Bool} {ds : List Nat}
  {c : Char} {cs rest more : List Char} {g : UInt16} {gs : List UInt16}

/-! ## Numbers -/

/-- No digit of a radix stands at the front of a text. -/
def Stops (radix : Nat) (cs : List Char) : Prop := ∀ c ∈ cs.head?, Text.digit? radix c = none

@[simp] theorem stops_nil : Stops radix [] := by simp [Stops]

@[simp] theorem stops_cons : Stops radix (c :: cs) ↔ Text.digit? radix c = none := by simp [Stops]

theorem leadingDigits_of_stops (h : Stops radix cs) : leadingDigits radix cs = ([], cs) := by
  cases cs with
  | nil => rfl
  | cons c cs => rw [leadingDigits, stops_cons.mp h]

theorem leadingDigits_map (hradix : radix ≤ 16) (hsmall : ∀ d ∈ ds, d < radix)
    (hrest : Stops radix rest) :
    leadingDigits radix (ds.map Nat.digitChar ++ rest) = (ds, rest) := by
  induction ds with
  | nil => exact leadingDigits_of_stops hrest
  | cons d ds ih =>
    have hd : Text.digit? radix (Nat.digitChar d) = some d :=
      Text.digit?_digitChar hradix (hsmall d List.mem_cons_self)
    have hds := ih fun d' hd' => hsmall d' (List.mem_cons_of_mem _ hd')
    rw [List.map_cons, List.cons_append, leadingDigits, hd, hds]

/-- A number is read as it was written, and what follows it is left. -/
theorem number?_toDigits (hradix : 1 < radix) (hradix' : radix ≤ 16) (hbound : n < bound)
    (hmost : ∀ m ∈ most, (Nat.toDigits radix n).length ≤ m) (hrest : Stops radix rest) :
    number? radix most zeros bound (Nat.toDigits radix n ++ rest) = some (n, rest) := by
  obtain ⟨ds, hds⟩ := Text.exists_places hradix n
  have hread := leadingDigits_map hradix' hds.small hrest
  have hvalue : value radix ds = n := hds.value
  have hempty : ds.isEmpty = false := by simp [hds.ne_nil]
  have hlong : most.any (· < ds.length) = false := by
    cases most with
    | none => rfl
    | some m =>
      have hlength := hmost m rfl
      rw [hds.written, List.length_map] at hlength
      simpa using hlength
  have hzero : (!zeros && ds.head? == some 0 && decide (1 < ds.length)) = false := by
    by_cases hfront : ds.head? = some 0
    · simp [hds.lone hfront]
    · simp [hfront]
  rw [hds.written, number?, hread]
  simp [hempty, hlong, hzero, hvalue, hbound]

/-- What a number leaves is what stands behind the digits. -/
theorem rest_of_number? (h : number? radix most zeros bound cs = some (n, rest)) :
    rest = (leadingDigits radix cs).2 := by
  rw [number?] at h
  split at h
  next ds behind hread =>
    split at h
    · contradiction
    · split at h
      · cases h
        rw [hread]
      · contradiction

theorem octet?_decimal (b : UInt8) (hrest : Stops 10 rest) :
    octet? (Text.decimal b.toNat ++ rest) = some (b, rest) := by
  have hbound : b.toNat < 256 := b.toNat_lt
  have hlength : (Nat.toDigits 10 b.toNat).length ≤ 3 :=
    (Nat.length_toDigits_le_iff (by decide) (by decide)).mpr (by omega)
  have hread : number? 10 (some 3) false 256 (Text.decimal b.toNat ++ rest) = some (b.toNat, rest) :=
    number?_toDigits (by decide) (by decide) hbound (by simpa using hlength) hrest
  simp [octet?, hread]

theorem group?_hexadecimal (g : UInt16) (hrest : Stops 16 rest) :
    group? (Text.hexadecimal g.toNat ++ rest) = some (g, rest) := by
  have hbound : g.toNat < 65536 := g.toNat_lt
  have hlength : (Nat.toDigits 16 g.toNat).length ≤ 4 :=
    (Nat.length_toDigits_le_iff (by decide) (by decide)).mpr hbound
  have hread : number? 16 (some 4) true 65536 (Text.hexadecimal g.toNat ++ rest) =
      some (g.toNat, rest) :=
    number?_toDigits (by decide) (by decide) hbound (by simpa using hlength) hrest
  simp [group?, hread]

theorem port?_decimal (port : UInt16) (hrest : Stops 10 rest) :
    port? (Text.decimal port.toNat ++ rest) = some (port, rest) := by
  have hread : number? 10 none true 65536 (Text.decimal port.toNat ++ rest) =
      some (port.toNat, rest) :=
    number?_toDigits (by decide) (by decide) port.toNat_lt nofun hrest
  simp [port?, hread]

/-! ## Dotted addresses -/

@[simp] theorem expect?_cons_self : expect? c (c :: cs) = some cs := by simp [expect?]

/-- A dotted address is read as it was written. -/
theorem ipv4?_chars (x : IPv4) (hrest : Stops 10 rest) : ipv4? (x.chars ++ rest) = some (x, rest) := by
  have hdot (cs : List Char) : Stops 10 ('.' :: cs) := stops_cons.mpr rfl
  simp [ipv4?, IPv4.chars, octet?_decimal _ (hdot _), octet?_decimal _ hrest]

/-- What is left behind digits without a dot in or behind them does not begin with one. -/
theorem head?_leadingDigits (hcs : '.' ∉ cs) (hrest : Stops radix rest)
    (hdot : rest.head? ≠ some '.') : (leadingDigits radix (cs ++ rest)).2.head? ≠ some '.' := by
  induction cs with
  | nil => rwa [List.nil_append, leadingDigits_of_stops hrest]
  | cons c cs ih =>
    rw [List.cons_append, leadingDigits]
    split
    · exact ih fun hmem => hcs (List.mem_cons_of_mem _ hmem)
    · rintro heq
      obtain rfl : c = '.' := Option.some.inj heq
      exact hcs List.mem_cons_self

/-- Digits without a dot in or behind them are no dotted address. -/
theorem ipv4?_eq_none (hcs : '.' ∉ cs) (hrest : Stops 10 rest) (hdot : rest.head? ≠ some '.') :
    ipv4? (cs ++ rest) = none := by
  have hleft := head?_leadingDigits hcs hrest hdot
  have hexpect : expect? '.' (leadingDigits 10 (cs ++ rest)).2 = none := by
    cases hbehind : (leadingDigits 10 (cs ++ rest)).2 with
    | nil => rfl
    | cons c more =>
      rw [hbehind] at hleft
      rw [expect?, if_neg fun heq => hleft (by rw [heq]; rfl)]
  cases hnumber : number? 10 (some 3) false 256 (cs ++ rest) with
  | none => simp [ipv4?, octet?, hnumber]
  | some r => simp [ipv4?, octet?, hnumber, rest_of_number? hnumber, hexpect]

/-! ## Groups -/

/-- What may stand behind groups: the end of the address, or the mark of zeros that were left out. -/
inductive Closing : List Char → Prop where
  | bracket (more : List Char) : Closing (']' :: more)
  | zeros (more : List Char) : Closing (':' :: ':' :: more)

theorem Closing.stops (h : Closing rest) : Stops radix rest := by
  cases h <;> simp [Text.digit?, Hex.value?]

theorem Closing.ne_dot (h : Closing rest) : rest.head? ≠ some '.' := by
  cases h <;> simp

/-- Groups end at what may stand behind them. -/
theorem groups_of_closing (h : Closing rest) (first : Bool) (limit : Nat) :
    groups first limit rest = ([], false, rest) := by
  have hbracket (cs : List Char) : ipv4? (']' :: cs) = none ∧ group? (']' :: cs) = none := ⟨rfl, rfl⟩
  have hcolon (cs : List Char) : ipv4? (':' :: cs) = none ∧ group? (':' :: cs) = none := ⟨rfl, rfl⟩
  cases limit with
  | zero => rfl
  | succ limit =>
    cases h <;> cases first <;> simp [groups, separator?, expect?, hbracket, hcolon]

/-- One group in front of others that are no dotted part. -/
theorem groups_cons (hcs : separator? first cs = some (Text.hexadecimal g.toNat ++ rest))
    (hrest : ∀ radix, Stops radix rest) (hdot : rest.head? ≠ some '.') :
    groups first (limit + 1) cs =
      (g :: (groups false limit rest).1, (groups false limit rest).2) := by
  have hdigits : '.' ∉ Text.hexadecimal g.toNat :=
    Text.not_mem_toDigits (by decide) (by decide) rfl
  have hdotted : ipv4? (Text.hexadecimal g.toNat ++ rest) = none := ipv4?_eq_none hdigits (hrest 10) hdot
  have hgroup : group? (Text.hexadecimal g.toNat ++ rest) = some (g, rest) :=
    group?_hexadecimal g (hrest 16)
  simp [groups, hcs, hdotted, hgroup]

/-- Groups with a colon in front of each. -/
def spelled (gs : List UInt16) : List Char := gs.flatMap fun g => ':' :: Text.hexadecimal g.toNat

theorem joined_cons (g : UInt16) (gs : List UInt16) :
    IPv6.joined (g :: gs) = Text.hexadecimal g.toNat ++ spelled gs := by
  induction gs generalizing g with
  | nil => simp [IPv6.joined, spelled]
  | cons g' gs ih =>
    have hcolon : IPv6.joined (g :: g' :: gs) =
        Text.hexadecimal g.toNat ++ ':' :: IPv6.joined (g' :: gs) := rfl
    rw [hcolon, ih]
    simp [spelled]

/-- What stands behind a group is a colon or the end. -/
theorem stops_spelled (h : Closing rest) (gs : List UInt16) :
    (∀ radix, Stops radix (spelled gs ++ rest)) ∧ (spelled gs ++ rest).head? ≠ some '.' := by
  cases gs with
  | nil => exact ⟨fun _ => h.stops, h.ne_dot⟩
  | cons g gs => simp [spelled, Text.digit?, Hex.value?]

theorem groups_spelled (h : Closing rest) (hlimit : gs.length ≤ limit) :
    groups false limit (spelled gs ++ rest) = (gs, false, rest) := by
  induction gs generalizing limit with
  | nil => exact groups_of_closing h false limit
  | cons g gs ih =>
    obtain ⟨limit, rfl⟩ := Nat.exists_eq_succ_of_ne_zero (Nat.ne_zero_of_lt hlimit)
    obtain ⟨hstops, hdot⟩ := stops_spelled h gs
    have hcs : separator? false (spelled (g :: gs) ++ rest) =
        some (Text.hexadecimal g.toNat ++ (spelled gs ++ rest)) := by
      simp [separator?, spelled]
    rw [groups_cons hcs hstops hdot, ih (Nat.le_of_succ_le_succ hlimit)]

/-- Groups are read as they were written, if there is room for them. -/
theorem groups_joined (h : Closing rest) (hlimit : gs.length ≤ limit) :
    groups true limit (IPv6.joined gs ++ rest) = (gs, false, rest) := by
  cases gs with
  | nil => exact groups_of_closing h true limit
  | cons g gs =>
    obtain ⟨limit, rfl⟩ := Nat.exists_eq_succ_of_ne_zero (Nat.ne_zero_of_lt hlimit)
    obtain ⟨hstops, hdot⟩ := stops_spelled h gs
    have hcs : separator? true (IPv6.joined (g :: gs) ++ rest) =
        some (Text.hexadecimal g.toNat ++ (spelled gs ++ rest)) := by
      rw [joined_cons, List.append_assoc]
      rfl
    rw [groups_cons hcs hstops hdot, groups_spelled h (Nat.le_of_succ_le_succ hlimit)]

/-! ## Zeros that are left out -/

theorem zeroRun_spec (gs : List UInt16) :
    IPv6.zeroRun gs ≤ gs.length ∧
      gs = List.replicate (IPv6.zeroRun gs) 0 ++ gs.drop (IPv6.zeroRun gs) := by
  induction gs with
  | nil => exact ⟨Nat.le_refl 0, rfl⟩
  | cons g gs ih =>
    rw [IPv6.zeroRun]
    split
    · next hzero =>
      refine ⟨Nat.succ_le_succ ih.1, ?_⟩
      rw [List.replicate_succ, List.drop_succ_cons, List.cons_append, ← ih.2, hzero]
    · exact ⟨Nat.zero_le _, rfl⟩

/-- The longest run is a run of zeros. -/
theorem longestRun_spec (gs : List UInt16) {start len : Nat}
    (h : IPv6.longestRun gs = (start, len)) :
    start + len ≤ gs.length ∧
      gs = gs.take start ++ List.replicate len 0 ++ gs.drop (start + len) := by
  induction gs generalizing start len with
  | nil =>
    cases h
    exact ⟨Nat.le_refl 0, rfl⟩
  | cons g gs ih =>
    rw [IPv6.longestRun] at h
    split at h
    · cases h
      obtain ⟨hlength, hzeros⟩ := zeroRun_spec (g :: gs)
      simpa using ⟨hlength, hzeros⟩
    · obtain ⟨hlength, hzeros⟩ := ih rfl
      cases h
      refine ⟨by rw [List.length_cons]; omega, ?_⟩
      rw [Nat.add_right_comm, List.take_succ_cons, List.drop_succ_cons, List.cons_append,
        List.cons_append, ← hzeros]

/-- Filling in the run of zeros that was left out gives all groups back. -/
theorem filled?_longestRun (x : IPv6) {start len : Nat} (h : IPv6.longestRun x.groups = (start, len)) :
    filled? (x.groups.take start) (x.groups.drop (start + len)) = some x := by
  obtain ⟨hlength, hzeros⟩ := longestRun_spec x.groups h
  have htotal := x.length_eq
  have hcount : 8 - (x.groups.take start).length - (x.groups.drop (start + len)).length = len := by
    rw [List.length_take_of_le (by omega), List.length_drop]
    omega
  rw [filled?, hcount, ← hzeros]
  simp [htotal]

/-! ## The three forms -/

/-- A mapped address is the groups of its IPv4 address behind a fixed front. -/
theorem groups_of_mapped? {x : IPv6} {v4 : IPv4} (h : x.mapped? = some v4) :
    x.groups = [0, 0, 0, 0, 0, 0xffff] ++ v4.groups := by
  have hhalves (g : UInt16) : UInt16.ofNat (256 * (UInt8.ofNat (g.toNat / 256)).toNat +
      (UInt8.ofNat (g.toNat % 256)).toNat) = g := by
    have hg : g.toNat < 65536 := g.toNat_lt
    have hhigh : (UInt8.ofNat (g.toNat / 256)).toNat = g.toNat / 256 :=
      UInt8.toNat_ofNat_of_lt' (by omega : g.toNat / 256 < 256)
    have hlow : (UInt8.ofNat (g.toNat % 256)).toNat = g.toNat % 256 :=
      UInt8.toNat_ofNat_of_lt' (by omega : g.toNat % 256 < 256)
    rw [hhigh, hlow, Nat.div_add_mod, UInt16.ofNat_toNat]
  rw [IPv6.mapped?] at h
  split at h
  · next a b c d e f g k hgroups =>
    split at h
    · next hfront =>
      obtain ⟨rfl, rfl, rfl, rfl, rfl, rfl⟩ := hfront
      cases h
      rw [hgroups, IPv4.groups, hhalves, hhalves]
      rfl
    · cases h
  · cases h

/-- A dotted part behind a group counts for the two groups of its address. -/
theorem groups_dotted (x : IPv4) (limit : Nat) (hrest : Stops 10 rest) :
    groups false (limit + 2) (':' :: (x.chars ++ rest)) = (x.groups, true, rest) := by
  simp [groups, separator?, ipv4?_chars x hrest]

theorem ipv6?_mapped {x : IPv6} {v4 : IPv4} (h : x.mapped? = some v4) (more : List Char) :
    ipv6? (x.chars ++ ']' :: more) = some (x, ']' :: more) := by
  have hstops : Stops 10 (']' :: more) := (Closing.bracket more).stops
  have hchars : x.chars = [':', ':', 'f', 'f', 'f', 'f', ':'] ++ v4.chars := by rw [IPv6.chars, h]
  have hfront := groups_of_closing
    (.zeros ('f' :: 'f' :: 'f' :: 'f' :: ':' :: (v4.chars ++ ']' :: more))) true 8
  have htail : groups true 7 ('f' :: 'f' :: 'f' :: 'f' :: ':' :: (v4.chars ++ ']' :: more)) =
      (0xffff :: v4.groups, true, ']' :: more) := by
    have hdotted := groups_dotted v4 4 hstops
    have hcs : separator? true ('f' :: 'f' :: 'f' :: 'f' :: ':' :: (v4.chars ++ ']' :: more)) =
        some (Text.hexadecimal (0xffff : UInt16).toNat ++ ':' :: (v4.chars ++ ']' :: more)) := rfl
    rw [groups_cons hcs (fun _ => stops_cons.mpr rfl) (by simp), hdotted]
  have hfilled : filled? [] (0xffff :: v4.groups) = some x := by
    have hgroups := groups_of_mapped? h
    cases x
    simpa [filled?, IPv4.groups] using hgroups.symm
  rw [hchars]
  simp only [List.cons_append, List.nil_append, ipv6?, hfront]
  simp [htail, hfilled]

theorem ipv6?_compressed {x : IPv6} (h : x.mapped? = none) {start len : Nat}
    (hrun : IPv6.longestRun x.groups = (start, len)) (hlen : 1 < len) (more : List Char) :
    ipv6? (x.chars ++ ']' :: more) = some (x, ']' :: more) := by
  obtain ⟨hlength, -⟩ := longestRun_spec x.groups hrun
  have htotal := x.length_eq
  have hhead : (x.groups.take start).length = start := List.length_take_of_le (by omega)
  have hchars : x.chars = IPv6.joined (x.groups.take start) ++
      ':' :: ':' :: IPv6.joined (x.groups.drop (start + len)) := by
    rw [IPv6.chars, h]
    simp [hrun, hlen]
  have hroom : (x.groups.take start).length ≤ 8 := by omega
  have hleft : (x.groups.drop (start + len)).length ≤ 7 - start := by
    rw [List.length_drop]
    omega
  have hfront := groups_joined
    (.zeros (IPv6.joined (x.groups.drop (start + len)) ++ ']' :: more)) hroom
  have htail := groups_joined (.bracket more) hleft
  rw [hchars]
  simp only [List.append_assoc, List.cons_append, ipv6?, hfront, hhead]
  simp [htail, filled?_longestRun x hrun, show start ≠ 8 by omega]

theorem ipv6?_plain {x : IPv6} (h : x.mapped? = none) {start len : Nat}
    (hrun : IPv6.longestRun x.groups = (start, len)) (hlen : ¬1 < len) (more : List Char) :
    ipv6? (x.chars ++ ']' :: more) = some (x, ']' :: more) := by
  have htotal := x.length_eq
  have hchars : x.chars = IPv6.joined x.groups := by
    rw [IPv6.chars, h]
    simp [hrun, hlen]
  have hread := groups_joined (.bracket more) (Nat.le_of_eq htotal)
  rw [hchars, ipv6?, hread]
  simp [htotal]

/-- An IPv6 address is read as it was written, in whichever form. -/
theorem ipv6?_chars (x : IPv6) (more : List Char) :
    ipv6? (x.chars ++ ']' :: more) = some (x, ']' :: more) := by
  cases hmapped : x.mapped? with
  | some v4 => exact ipv6?_mapped hmapped more
  | none =>
    by_cases hlen : 1 < (IPv6.longestRun x.groups).2
    · exact ipv6?_compressed hmapped rfl hlen more
    · exact ipv6?_plain hmapped rfl hlen more

end AddressReader

/-! ## Endpoints -/

open AddressReader in
/-- An endpoint is read as it was written. -/
theorem Endpoint.parse?_chars (e : Endpoint) : Endpoint.parse? e.chars = some e := by
  obtain ⟨address, port⟩ := e
  have hport : port? (Text.decimal port.toNat) = some (port, []) := by
    have hread := port?_decimal port stops_nil
    rwa [List.append_nil] at hread
  cases address with
  | v4 x =>
    have hread := ipv4?_chars x (stops_cons.mpr rfl : Stops 10 (':' :: Text.decimal port.toNat))
    simp [Endpoint.parse?, Endpoint.chars, endpoint4?, hread, hport]
  | v6 x =>
    have hbracket (cs : List Char) : endpoint4? ('[' :: cs) = none := rfl
    have hread := ipv6?_chars x (':' :: Text.decimal port.toNat)
    have hscope (cs : List Char) : skipScope (']' :: cs) = ']' :: cs := rfl
    simp [Endpoint.parse?, Endpoint.chars, endpoint6?, hbracket, hread, hscope, hport]

end PeerProbe
