import Mathlib.Data.Finset.Card
import PeerProbe.Discovery.Responder

/-!
# Who has a bond

The table of bonds expires entries when one is added, refreshes an entry whose endpoint pings
again, and lets the oldest make room. All of that together is a fact about the history of pings
alone. Put the endpoints in the order of their last pings, the latest first (`standing`): the table
is a front of that list (`Bonds.Remembers`). What is behind the front has expired, or the front is
full. So an endpoint has a bond exactly while its last ping is young enough and fewer others pinged
since than there is room for.
-/

namespace PeerProbe.Discovery

/-- The last ping of each endpoint, the latest first, from all pings, the latest first. -/
def standing : List (Endpoint × Nat) → List (Endpoint × Nat)
  | [] => []
  | e :: older => e :: Bonds.without (standing older) e.1

/-- How many endpoints some pings came from. -/
def pingerCount (pings : List (Endpoint × Nat)) : Nat := (pings.map Prod.fst).toFinset.card

variable {pings since older : List (Endpoint × Nat)} {e : Endpoint × Nat} {a : Endpoint}

namespace Bonds

@[simp] theorem mem_without {seen : List (Endpoint × Nat)} :
    e ∈ without seen a ↔ e ∈ seen ∧ e.1 ≠ a := by
  simp [without]

theorem without_append (xs ys : List (Endpoint × Nat)) :
    without (xs ++ ys) a = without xs a ++ without ys a :=
  List.filter_append xs ys

theorem without_of_notMem {seen : List (Endpoint × Nat)} (h : a ∉ seen.map Prod.fst) :
    without seen a = seen := by
  refine List.filter_eq_self.mpr fun e he => ?_
  have hne : e.1 ≠ a := fun hea => h (hea ▸ List.mem_map_of_mem he)
  simpa using hne

/-- An endpoint that stands in a list once is one entry of it. -/
theorem length_without {seen : List (Endpoint × Nat)} (hnodup : (seen.map Prod.fst).Nodup)
    (h : a ∈ seen.map Prod.fst) : (without seen a).length + 1 = seen.length := by
  induction seen with
  | nil => cases h
  | cons e rest ih =>
    obtain ⟨hfirst, hrest⟩ := List.nodup_cons.mp hnodup
    by_cases hea : e.1 = a
    · have hdrop : without (e :: rest) a = without rest a := by simp [without, hea]
      rw [hdrop, without_of_notMem (hea ▸ hfirst), List.length_cons]
    · have hkeep : without (e :: rest) a = e :: without rest a := by simp [without, hea]
      have hmem : a ∈ rest.map Prod.fst := by
        obtain hhead | htail := List.mem_cons.mp h
        · exact absurd hhead.symm hea
        · exact htail
      rw [hkeep, List.length_cons, List.length_cons, ih hrest hmem]

end Bonds

/-! ### The order of the last pings -/

theorem standing_sublist (pings : List (Endpoint × Nat)) : (standing pings).Sublist pings := by
  induction pings with
  | nil => exact List.Sublist.refl _
  | cons e older ih => exact (List.filter_sublist.trans ih).cons_cons e

theorem nodup_standing (pings : List (Endpoint × Nat)) :
    ((standing pings).map Prod.fst).Nodup := by
  induction pings with
  | nil => exact List.nodup_nil
  | cons e older ih =>
    refine List.nodup_cons.mpr ⟨fun hmem => ?_, ih.sublist (List.filter_sublist.map _)⟩
    obtain ⟨e', he', heq⟩ := List.mem_map.mp hmem
    exact (Bonds.mem_without.mp he').2 heq

theorem mem_keys_standing : a ∈ (standing pings).map Prod.fst ↔ a ∈ pings.map Prod.fst := by
  induction pings with
  | nil => rfl
  | cons e older ih =>
    by_cases hea : a = e.1
    · simp [standing, hea]
    · have hwithout : a ∈ (Bonds.without (standing older) e.1).map Prod.fst ↔
          a ∈ (standing older).map Prod.fst := by
        simp only [List.mem_map, Bonds.mem_without]
        exact exists_congr fun e' => ⟨fun h => ⟨h.1.1, h.2⟩, fun h => ⟨⟨h.1, h.2 ▸ hea⟩, h.2⟩⟩
      rw [standing, List.map_cons, List.map_cons, List.mem_cons, List.mem_cons, hwithout, ih]

/-- Each endpoint stands in the list once. -/
theorem length_standing (pings : List (Endpoint × Nat)) :
    (standing pings).length = pingerCount pings := by
  have hkeys : (pings.map Prod.fst).toFinset = ((standing pings).map Prod.fst).toFinset := by
    ext a
    rw [List.mem_toFinset, List.mem_toFinset, mem_keys_standing]
  rw [pingerCount, hkeys, List.toFinset_card_of_nodup (nodup_standing pings), List.length_map]

/-- Later pings push the earlier ones back and take out those of the same endpoints. -/
theorem standing_append (since older : List (Endpoint × Nat)) :
    standing (since ++ older) =
      standing since ++ (standing older).filter fun e => e.1 ∉ since.map Prod.fst := by
  induction since with
  | nil => simp [standing]
  | cons e since ih =>
    rw [List.cons_append, standing, ih, Bonds.without_append, standing, List.cons_append]
    congr 2
    rw [Bonds.without, List.filter_filter]
    refine List.filter_congr fun e' _ => ?_
    rw [← Bool.decide_and, decide_eq_decide, List.map_cons, List.mem_cons, not_or]

/-- A last ping stands behind the endpoints that pinged after it. -/
theorem standing_split (older : List (Endpoint × Nat)) (h : e.1 ∉ since.map Prod.fst) :
    ∃ behind, standing (since ++ e :: older) = standing since ++ e :: behind := by
  rw [standing_append, standing, List.filter_cons_of_pos (by simpa using h)]
  exact ⟨_, rfl⟩

theorem mem_standing {t : Nat} (h : a ∉ since.map Prod.fst) :
    (a, t) ∈ standing (since ++ (a, t) :: older) := by
  obtain ⟨behind, hsplit⟩ := standing_split (e := (a, t)) older h
  rw [hsplit]
  exact List.mem_append_right _ List.mem_cons_self

/-- A last ping is in a front of the list exactly if fewer endpoints pinged since than the front
holds. -/
theorem mem_front_iff {t : Nat} {seen behind : List (Endpoint × Nat)}
    (h : a ∉ since.map Prod.fst)
    (heq : standing (since ++ (a, t) :: older) = seen ++ behind) :
    (a, t) ∈ seen ↔ pingerCount since < seen.length := by
  obtain ⟨rest, hsplit⟩ := standing_split (e := (a, t)) older h
  have hseen : seen = (standing since ++ (a, t) :: rest).take seen.length := by
    rw [← hsplit, heq, List.take_left]
  rw [← length_standing]
  constructor
  · intro hmem
    by_contra hle
    rw [hseen, List.take_append_of_le_length (Nat.le_of_not_lt hle)] at hmem
    have hkey := List.mem_map_of_mem (f := Prod.fst) (List.mem_of_mem_take hmem)
    exact h (mem_keys_standing.mp hkey)
  · intro hlt
    obtain ⟨n, hn⟩ := Nat.exists_eq_add_of_lt hlt
    have hn' : seen.length - (standing since).length = n + 1 := by omega
    rw [hseen, List.take_append, hn', List.take_succ_cons]
    exact List.mem_append_right _ List.mem_cons_self

/-- What stands in the list is a last ping. -/
theorem exists_last_of_mem_standing (h : e ∈ standing pings) :
    ∃ since older, pings = since ++ e :: older ∧ e.1 ∉ since.map Prod.fst := by
  induction pings with
  | nil => cases h
  | cons p rest ih =>
    obtain rfl | hrest := List.mem_cons.mp h
    · exact ⟨[], rest, rfl, List.not_mem_nil⟩
    · obtain ⟨hmem, hne⟩ := Bonds.mem_without.mp hrest
      obtain ⟨since, older, rfl, hlast⟩ := ih hmem
      exact ⟨p :: since, older, rfl, by simpa [hne] using hlast⟩

/-! ### The table is a front of that order -/

/-- A ping whose bond has expired by the time of another ping. -/
def ExpiredBy (ttl : Nat) (pings : List (Endpoint × Nat)) (e : Endpoint × Nat) : Prop :=
  ∃ p ∈ pings, ttl ≤ p.2 - e.2

namespace Bonds

/-- The table after some pings, the latest first: a front of the last pings that leaves out only
what has expired, or what there is no room for. -/
structure Remembers (b : Bonds) (pings : List (Endpoint × Nat)) : Prop where
  room : 0 < b.capacity
  fits : b.seen.length ≤ b.capacity
  front : ∃ behind, standing pings = b.seen ++ behind ∧
    ∀ e ∈ behind, b.capacity ≤ b.seen.length ∨ ExpiredBy b.ttl pings e

theorem remembers_empty (ttl : Duration) (max : Nat) : (empty ttl max).Remembers [] where
  room := Nat.lt_of_lt_of_le Nat.one_pos (Nat.le_max_right max 1)
  fits := Nat.zero_le _
  front := ⟨[], rfl, fun _ he => absurd he List.not_mem_nil⟩

variable {b : Bonds} {now : Nat}

theorem isBonded_iff_mem : b.isBonded a now ↔ ∃ t, (a, t) ∈ b.seen ∧ now - t < b.ttl := by
  simp only [isBonded, List.any_eq_true, Bool.and_eq_true, decide_eq_true_eq]
  constructor
  · rintro ⟨⟨_, t⟩, hmem, rfl, hage⟩
    exact ⟨t, hmem, hage⟩
  · rintro ⟨t, hmem, hage⟩
    exact ⟨(a, t), hmem, rfl, hage⟩

/-- In a list whose later entries are older, those that are young enough are a front. -/
theorem filter_prefix {seen : List (Endpoint × Nat)} {young : Endpoint × Nat → Bool}
    (hsorted : seen.Pairwise fun x y => young y → young x) :
    ∃ behind, seen = seen.filter young ++ behind ∧ ∀ e ∈ behind, ¬ young e := by
  induction seen with
  | nil => exact ⟨[], rfl, fun _ he => absurd he List.not_mem_nil⟩
  | cons x rest ih =>
    obtain ⟨hx, hrest⟩ := List.pairwise_cons.mp hsorted
    cases hyoung : young x with
    | true =>
      obtain ⟨behind, heq, hbehind⟩ := ih hrest
      refine ⟨behind, ?_, hbehind⟩
      rw [List.filter_cons_of_pos hyoung, List.cons_append, ← heq]
    | false =>
      have hold : ∀ e ∈ x :: rest, ¬ young e := by
        intro e he hyounge
        obtain rfl | hmem := List.mem_cons.mp he
        · rw [hyoung] at hyounge
          cases hyounge
        · rw [hx e hmem hyounge] at hyoung
          cases hyoung
      exact ⟨x :: rest, by rw [List.filter_eq_nil_iff.mpr hold, List.nil_append], hold⟩

/-- Among entries whose later ones are older, the oldest is the last. -/
theorem oldest?_eq_getLast? {seen : List (Endpoint × Nat)}
    (hsorted : seen.Pairwise fun x y => y.2 < x.2) : oldest? seen = seen.getLast? := by
  induction seen with
  | nil => rfl
  | cons x rest ih =>
    obtain ⟨hx, hrest⟩ := List.pairwise_cons.mp hsorted
    rw [oldest?, ih hrest]
    cases hlast : rest.getLast? with
    | none =>
      obtain rfl := List.getLast?_eq_none_iff.mp hlast
      rfl
    | some o =>
      have hlt : ¬ x.2 ≤ o.2 := Nat.not_le_of_lt (hx o (List.mem_of_getLast? hlast))
      rw [List.getLast?_cons, hlast, Option.getD_some]
      exact if_neg hlt

/-- A list in the order of the last pings makes room at its end. -/
theorem withRoom_eq {seen : List (Endpoint × Nat)} (hsorted : seen.Pairwise fun x y => y.2 < x.2)
    (hnodup : (seen.map Prod.fst).Nodup) :
    b.withRoom seen a =
      if b.capacity ≤ seen.length ∧ a ∉ seen.map Prod.fst then seen.dropLast else seen := by
  have hany : (¬ seen.any (·.1 = a)) ↔ a ∉ seen.map Prod.fst := by simp
  rw [withRoom, oldest?_eq_getLast? hsorted]
  refine if_congr (and_congr_right fun _ => hany) ?_ rfl
  rcases List.eq_nil_or_concat seen with rfl | ⟨front, o, rfl⟩
  · rfl
  · rw [List.concat_eq_append] at hnodup ⊢
    have ho : o.1 ∉ front.map Prod.fst := by
      rw [List.map_append] at hnodup
      exact fun h => (List.nodup_append.mp hnodup).2.2 o.1 h o.1 List.mem_cons_self rfl
    rw [List.getLast?_concat, List.dropLast_concat]
    simp only [without_append, without_of_notMem ho]
    simp [without]

/-- With the endpoint put in front, a front of the last pings stays one. It is full, or leaves out
only what was left out before. -/
theorem front_put {seen behind : List (Endpoint × Nat)} (e : Endpoint × Nat)
    (hsorted : (seen ++ behind).Pairwise fun x y => y.2 < x.2)
    (hnodup : ((seen ++ behind).map Prod.fst).Nodup) (hroom : 0 < b.capacity)
    (hfits : seen.length ≤ b.capacity) :
    ∃ behind', without (seen ++ behind) e.1 = without (b.withRoom seen e.1) e.1 ++ behind' ∧
      (without (b.withRoom seen e.1) e.1).length + 1 ≤ b.capacity ∧
      (b.capacity ≤ (without (b.withRoom seen e.1) e.1).length + 1 ∨
        seen.length < b.capacity ∧ behind' ⊆ behind) := by
  rw [List.map_append] at hnodup
  have hseen := (List.nodup_append.mp hnodup).1
  rw [withRoom_eq (List.pairwise_append.mp hsorted).1 hseen]
  by_cases hmem : e.1 ∈ seen.map Prod.fst
  · have hlength := length_without hseen hmem
    rw [if_neg fun h => h.2 hmem]
    refine ⟨without behind e.1, without_append _ _, hlength ▸ hfits, ?_⟩
    rw [hlength]
    exact (le_or_gt _ _).imp_right fun hlt => ⟨hlt, List.filter_subset_self _⟩
  · by_cases hfull : b.capacity ≤ seen.length
    · -- The last of the front makes room.
      have hne : seen ≠ [] := List.ne_nil_of_length_pos (Nat.lt_of_lt_of_le hroom hfull)
      have hnotMem : e.1 ∉ seen.dropLast.map Prod.fst := fun h =>
        hmem (((List.dropLast_sublist seen).map Prod.fst).subset h)
      have hlength : seen.dropLast.length + 1 = b.capacity := by
        rw [List.length_dropLast]
        omega
      rw [if_pos ⟨hfull, hmem⟩, without_append, without_of_notMem hnotMem, without_of_notMem hmem]
      refine ⟨seen.getLast hne :: without behind e.1, ?_, le_of_eq hlength, .inl (ge_of_eq hlength)⟩
      rw [← List.singleton_append, ← List.append_assoc, List.dropLast_append_getLast]
    · rw [if_neg fun h => hfull h.1, without_of_notMem hmem, without_append, without_of_notMem hmem]
      exact ⟨_, rfl, by omega, .inr ⟨by omega, List.filter_subset_self _⟩⟩

theorem sorted_standing (hsorted : pings.Pairwise fun x y => y.2 < x.2) :
    (standing pings).Pairwise fun x y => y.2 < x.2 :=
  hsorted.sublist (standing_sublist pings)

section Remembers

variable (h : b.Remembers pings) (hsorted : pings.Pairwise fun x y => y.2 < x.2)
  (hlater : ∀ p ∈ pings, p.2 < now)

include h hsorted hlater

/-- What has not expired when the next ping comes is a front again, and what falls away has expired
by then. -/
theorem Remembers.fresh_front : ∃ behind, standing pings = b.fresh now ++ behind ∧
    ∀ e ∈ behind, b.capacity ≤ (b.fresh now).length ∨ b.ttl ≤ now - e.2 := by
  obtain ⟨behind, heq, hbehind⟩ := h.front
  have hpairs := sorted_standing hsorted
  rw [heq, List.pairwise_append] at hpairs
  obtain ⟨hseen, -, hacross⟩ := hpairs
  have hyoung : b.seen.Pairwise fun x y =>
      decide (now - y.2 < b.ttl) → decide (now - x.2 < b.ttl) := by
    refine hseen.imp fun hxy hy => ?_
    rw [decide_eq_true_eq] at hy ⊢
    omega
  obtain ⟨gone, hsplit, hgone⟩ := filter_prefix hyoung
  have hfresh : b.seen = b.fresh now ++ gone := hsplit
  have hold : ∀ e ∈ gone, b.ttl ≤ now - e.2 := fun e he => by simpa using hgone e he
  refine ⟨gone ++ behind, by rw [← List.append_assoc, ← hfresh, heq], fun e he => ?_⟩
  obtain hgone | hfar := List.mem_append.mp he
  · exact .inr (hold e hgone)
  obtain hfull | ⟨p, hp, hexpired⟩ := hbehind e hfar
  · cases gone with
    | nil => exact .inl (by rwa [hfresh, List.append_nil] at hfull)
    | cons g gone =>
      -- What is behind an expired bond is older still.
      have hg : g ∈ b.seen := hfresh ▸ List.mem_append_right _ List.mem_cons_self
      have hlt := hacross g hg e hfar
      have hage := hold g List.mem_cons_self
      exact .inr (by omega)
  · have hlt := hlater p hp
    exact .inr (by omega)

/-- A ping is remembered. -/
theorem Remembers.insert (a : Endpoint) : (b.insert a now).Remembers ((a, now) :: pings) := by
  obtain ⟨behind, heq, hbehind⟩ := h.fresh_front hsorted hlater
  have hsortedFresh := heq ▸ sorted_standing hsorted
  have hnodupFresh := heq ▸ nodup_standing pings
  have hfits : (b.fresh now).length ≤ b.capacity := (List.length_filter_le _ _).trans h.fits
  obtain ⟨behind', hput, hlength, hout⟩ :=
    front_put (a, now) hsortedFresh hnodupFresh h.room hfits
  refine ⟨h.room, hlength, behind', ?_, fun e he => ?_⟩
  · rw [standing, heq, hput]
    rfl
  · obtain hfull | ⟨hroom, hsub⟩ := hout
    · exact .inl hfull
    · obtain hfull | hage := hbehind e (hsub he)
      · exact absurd hroom (Nat.not_lt_of_le hfull)
      · exact .inr ⟨(a, now), List.mem_cons_self, hage⟩

omit hsorted in
/-- An endpoint has a bond exactly if its last ping is young enough and fewer others pinged since
than there is room for. -/
theorem Remembers.isBonded_iff : b.isBonded a now ↔ ∃ since t older,
    pings = since ++ (a, t) :: older ∧ a ∉ since.map Prod.fst ∧ now - t < b.ttl ∧
      pingerCount since < b.capacity := by
  obtain ⟨behind, heq, hbehind⟩ := h.front
  have hfits := h.fits
  rw [isBonded_iff_mem]
  constructor
  · rintro ⟨t, hmem, hage⟩
    have hstanding : (a, t) ∈ standing pings := heq ▸ List.mem_append_left _ hmem
    obtain ⟨since, older, rfl, hlast⟩ := exists_last_of_mem_standing hstanding
    have hrank := (mem_front_iff hlast heq).mp hmem
    exact ⟨since, t, older, rfl, hlast, hage, Nat.lt_of_lt_of_le hrank hfits⟩
  · rintro ⟨since, t, older, rfl, hlast, hage, hcount⟩
    refine ⟨t, ?_, hage⟩
    obtain hmem | hmem := List.mem_append.mp (heq ▸ mem_standing hlast)
    · exact hmem
    obtain hfull | ⟨p, hp, hexpired⟩ := hbehind _ hmem
    · exact (mem_front_iff hlast heq).mpr (Nat.lt_of_lt_of_le hcount hfull)
    · have hlt := hlater p hp
      exact absurd hage (by omega)

end Remembers

end Bonds

end PeerProbe.Discovery
