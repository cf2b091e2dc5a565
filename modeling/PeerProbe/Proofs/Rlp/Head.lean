import PeerProbe.Proofs.Bytes.BigEndian
import PeerProbe.Rlp.Item

/-!
# Heads have one written form

A head that is accepted is the shortest head of its kind and size, and the shortest head of every
size below `2^64` is accepted. A byte below `0x80` is the one item without a head: it announces
itself and stays where it is.
-/

namespace PeerProbe.Rlp.Head

/-- Bytes that begin with an item of a single byte, which has no head. -/
def BeginsBare (bytes : List UInt8) : Prop := ∃ b rest, bytes = b :: rest ∧ b.toNat < 0x80

/-- No head is empty. -/
theorem bytes_ne_nil (h : Head) : h.bytes ≠ [] := by
  unfold Head.bytes
  split <;> simp

/-- A size of 56 or more takes between one and eight bytes of length. -/
theorem width_pos {size : Nat} (hlong : ¬ size < 56) : 0 < BigEndian.width size := by
  have hzero := BigEndian.width_le_iff size 0
  omega

/-- Sizes below `2^64` take at most eight bytes of length. -/
theorem width_le_eight {size : Nat} (hsize : size < 2 ^ 64) : BigEndian.width size ≤ 8 :=
  (BigEndian.width_le_iff size 8).mpr hsize

/-- A long head is read back from the length bytes that writing puts there. -/
theorem long_shortest (isList : Bool) {size : Nat} (rest : List UInt8) (hlong : ¬ size < 56) :
    Head.long isList (BigEndian.width size) (BigEndian.shortest size ++ rest) =
      .ok (⟨isList, size⟩, rest) := by
  have hlen := BigEndian.length_shortest size
  have htake : (BigEndian.shortest size ++ rest).take (BigEndian.width size) =
      BigEndian.shortest size := by rw [← hlen, List.take_left]
  have hdrop : (BigEndian.shortest size ++ rest).drop (BigEndian.width size) = rest := by
    rw [← hlen, List.drop_left]
  have hroom : ¬ (BigEndian.shortest size ++ rest).length < BigEndian.width size := by
    rw [List.length_append, hlen]; omega
  simp only [Head.long, if_neg hroom, htake, hdrop, if_neg (BigEndian.head?_shortest size),
    BigEndian.toNat_shortest, if_neg hlong]

/-- A long head that is accepted has the kind asked for, a size that needs it, and the shortest
length bytes of that size. -/
theorem eq_shortest_of_long {isList : Bool} {count : Nat} {bytes rest : List UInt8} {h : Head}
    (hlong : Head.long isList count bytes = .ok (h, rest)) :
    h.isList = isList ∧ ¬ h.size < 56 ∧ BigEndian.width h.size = count ∧
      bytes = BigEndian.shortest h.size ++ rest := by
  unfold Head.long at hlong
  split at hlong
  · contradiction
  · next hroom =>
    dsimp only at hlong
    split at hlong
    · contradiction
    · next hzero =>
      split at hlong
      · contradiction
      · next hsize =>
        obtain ⟨rfl, rfl⟩ := Prod.mk.inj (Except.ok.inj hlong)
        refine ⟨rfl, hsize, ?_, ?_⟩
        · rw [BigEndian.width_toNat hzero, List.length_take]; omega
        · rw [BigEndian.shortest_toNat hzero, List.take_append_drop]

/-- The shortest head of a size below `2^64` is accepted. A string of one byte has a head only if
that byte is `0x80` or more. -/
theorem announce_bytes {h : Head} {rest : List UInt8} (hsize : h.size < 2 ^ 64)
    (hbyte : h = ⟨false, 1⟩ → rest ≠ [] ∧ ¬ BeginsBare rest) :
    Head.announce (h.bytes ++ rest) = .ok (h, rest) := by
  obtain ⟨isList, size⟩ := h
  dsimp only at hsize
  by_cases hshort : size < 56
  · have hfirst : (UInt8.ofNat (Head.base isList + size)).toNat = Head.base isList + size := by
      cases isList <;> simp [Head.base] <;> omega
    simp only [Head.bytes, if_pos hshort, List.singleton_append, Head.announce, hfirst]
    cases isList with
    | true => simp [Head.base, show ¬ 192 + size < 128 by omega, show ¬ 192 + size < 184 by omega,
        show 192 + size < 248 by omega]
    | false =>
      by_cases hone : size = 1
      · subst hone
        obtain ⟨hne, hbare⟩ := hbyte rfl
        obtain ⟨b, tail, rfl⟩ := List.exists_cons_of_ne_nil hne
        have hb : ¬ b.toNat < 128 := fun hb => hbare ⟨b, tail, rfl, hb⟩
        simp [Head.base, hb]
      · simp [Head.base, show 128 + size < 184 by omega, show ¬ 128 + size = 129 by omega]
  · have hpos := width_pos hshort
    have hle := width_le_eight hsize
    have hfirst : (UInt8.ofNat (Head.base isList + 55 + BigEndian.width size)).toNat =
        Head.base isList + 55 + BigEndian.width size := by
      cases isList <;> simp [Head.base] <;> omega
    simp only [Head.bytes, if_neg hshort, BigEndian.length_shortest, List.cons_append,
      Head.announce, hfirst]
    have hlong := long_shortest isList rest hshort
    generalize BigEndian.width size = count at *
    cases isList with
    | true =>
      simp [Head.base, show ¬ 192 + 55 + count < 128 by omega,
        show ¬ 192 + 55 + count < 184 by omega, show ¬ 192 + 55 + count < 192 by omega,
        show ¬ 192 + 55 + count < 248 by omega, show 192 + 55 + count - 247 = count by omega, hlong]
    | false =>
      simp [Head.base, show ¬ 128 + 55 + count < 128 by omega,
        show ¬ 128 + 55 + count < 184 by omega, show 128 + 55 + count < 192 by omega,
        show 128 + 55 + count - 183 = count by omega, hlong]

/-- An accepted announcement is a bare byte left in place, or the shortest head of a size below
`2^64`; a head in front of a single byte below `0x80` is never accepted. -/
theorem eq_bytes_of_announce {bytes rest : List UInt8} {h : Head}
    (hread : Head.announce bytes = .ok (h, rest)) :
    (h = ⟨false, 1⟩ ∧ rest = bytes ∧ BeginsBare bytes) ∨
      (bytes = h.bytes ++ rest ∧ h.size < 2 ^ 64 ∧ (h = ⟨false, 1⟩ → ¬ BeginsBare rest)) := by
  cases bytes with
  | nil => contradiction
  | cons b tail =>
    have hb := b.toNat_lt
    -- The first byte of a head is recovered from the kind and the size or its byte count.
    have hback (n : Nat) (hn : n = b.toNat) : UInt8.ofNat n = b := by rw [hn, UInt8.ofNat_toNat]
    simp only [Head.announce] at hread
    split at hread
    · next hbare =>
      obtain ⟨rfl, rfl⟩ := Prod.mk.inj (Except.ok.inj hread)
      exact Or.inl ⟨rfl, rfl, b, tail, rfl, hbare⟩
    right
    split at hread
    · split at hread
      · next hone =>
        cases tail with
        | nil => contradiction
        | cons c tail =>
          dsimp only at hread
          split at hread
          · contradiction
          · next hc =>
            obtain ⟨rfl, rfl⟩ := Prod.mk.inj (Except.ok.inj hread)
            refine ⟨?_, by simp, ?_⟩
            · simp [Head.bytes, Head.base, hback 129 hone.symm]
            · rintro - ⟨c', tail', heq, hbare⟩
              obtain ⟨rfl, rfl⟩ := List.cons.inj heq
              exact hc hbare
      · next hone =>
        obtain ⟨rfl, rfl⟩ := Prod.mk.inj (Except.ok.inj hread)
        refine ⟨?_, by dsimp only; omega, ?_⟩
        · rw [Head.bytes, if_pos (by dsimp only; omega)]
          simp [Head.base, hback (128 + (b.toNat - 128)) (by omega)]
        · intro heq
          have hsize := congrArg Head.size heq
          dsimp only at hsize
          omega
    split at hread
    · obtain ⟨hkind, hlong, hwidth, rfl⟩ := eq_shortest_of_long hread
      refine ⟨?_, (BigEndian.width_le_iff h.size 8).mp (by omega), by rintro rfl; simp at hlong⟩
      rw [Head.bytes, if_neg hlong]
      simp [hkind, Head.base, hwidth, hback (128 + 55 + (b.toNat - 183)) (by omega)]
    split at hread
    · obtain ⟨rfl, rfl⟩ := Prod.mk.inj (Except.ok.inj hread)
      refine ⟨?_, by dsimp only; omega, by simp⟩
      rw [Head.bytes, if_pos (by dsimp only; omega)]
      simp [Head.base, hback (192 + (b.toNat - 192)) (by omega)]
    · obtain ⟨hkind, hlong, hwidth, rfl⟩ := eq_shortest_of_long hread
      refine ⟨?_, (BigEndian.width_le_iff h.size 8).mp (by omega), by rintro rfl; simp at hlong⟩
      rw [Head.bytes, if_neg hlong]
      simp [hkind, Head.base, hwidth, hback (192 + 55 + (b.toNat - 247)) (by omega)]

end PeerProbe.Rlp.Head
