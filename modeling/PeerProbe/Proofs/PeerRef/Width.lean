import Mathlib.Algebra.Group.Nat.Defs
import PeerProbe.Proofs.PeerRef.Text

/-!
# How long a record can be

A record is longest with an IPv6 address and a UDP port of its own. The bound here is not sharp: it
counts a colon behind every group of an address. All its characters are ASCII and none needs an escape
in a JSON string, so the bound also counts bytes there.
-/

namespace PeerProbe

namespace Text

/-- A text of at most so many characters, all of one kind. -/
def Within (kind : Char → Prop) (n : Nat) (cs : List Char) : Prop := cs.length ≤ n ∧ ∀ c ∈ cs, kind c

/-- A character of ASCII that stands for itself between quotes. -/
def IsPlain (c : Char) : Prop := 0x20 ≤ c.toNat ∧ c.toNat < 0x80 ∧ c ≠ '"' ∧ c ≠ '\\'

instance (c : Char) : Decidable (IsPlain c) := inferInstanceAs (Decidable (_ ∧ _))

variable {kind kind' : Char → Prop} {m n : Nat} {cs ds : List Char} {c : Char}

instance [DecidablePred kind] : Decidable (Within kind n cs) :=
  decidable_of_iff ((decide (cs.length ≤ n) && cs.all fun c => kind c) = true) (by simp [Within])

theorem within_nil : Within kind 0 [] := ⟨Nat.le_refl 0, List.forall_mem_nil _⟩

theorem Within.cons (hc : kind c) (h : Within kind n cs) : Within kind (n + 1) (c :: cs) :=
  ⟨Nat.succ_le_succ h.1, List.forall_mem_cons.mpr ⟨hc, h.2⟩⟩

theorem Within.append (h : Within kind m cs) (h' : Within kind n ds) :
    Within kind (m + n) (cs ++ ds) := by
  refine ⟨by rw [List.length_append]; exact Nat.add_le_add h.1 h'.1, fun c hc => ?_⟩
  exact (List.mem_append.mp hc).elim (h.2 c) (h'.2 c)

theorem Within.mono (h : Within kind m cs) (hle : m ≤ n) : Within kind n cs :=
  ⟨Nat.le_trans h.1 hle, h.2⟩

theorem Within.imp (h : Within kind n cs) (himp : ∀ c, kind c → kind' c) : Within kind' n cs :=
  ⟨h.1, fun c hc => himp c (h.2 c hc)⟩

/-- Digits stand for themselves. -/
theorem isPlain_of_value? (h : (Hex.value? c).isSome) : IsPlain c := by
  have hnumber : 48 ≤ c.toNat ∧ c.toNat < 0x80 ∧ c.toNat ≠ 92 := by
    simp only [Hex.value?] at h
    split at h
    · omega
    split at h
    · omega
    split at h
    · omega
    · contradiction
  refine ⟨by omega, hnumber.2.1, ?_, ?_⟩
  · rintro rfl
    exact absurd hnumber.1 (by decide)
  · rintro rfl
    exact hnumber.2.2 rfl

/-- A number below a power of its radix has at most as many digits. -/
theorem within_toDigits {radix : Nat} (hradix : 1 < radix) (hradix' : radix ≤ 16) (hm : 0 < m)
    (hn : n < radix ^ m) : Within IsPlain m (Nat.toDigits radix n) := by
  refine ⟨(Nat.length_toDigits_le_iff hradix hm).mpr hn, fun c hc => isPlain_of_value? ?_⟩
  obtain ⟨d, hd⟩ := Option.isSome_iff_exists.mp (isSome_digit?_of_mem hradix hradix' hc)
  exact Option.isSome_iff_exists.mpr ⟨d, (Option.filter_eq_some_iff.mp hd).1⟩

theorem within_byte (b : UInt8) : Within IsPlain 3 (decimal b.toNat) :=
  within_toDigits (by decide) (by decide) (by decide) (Nat.lt_trans b.toNat_lt (by decide))

theorem within_port (p : UInt16) : Within IsPlain 5 (decimal p.toNat) :=
  within_toDigits (by decide) (by decide) (by decide) (Nat.lt_trans p.toNat_lt (by decide))

theorem within_group (g : UInt16) : Within IsPlain 4 (hexadecimal g.toNat) :=
  within_toDigits (by decide) (by decide) (by decide) g.toNat_lt

end Text

open Text (Within IsPlain)

/-! ## Addresses -/

theorem IPv4.within_chars (x : IPv4) : Within IsPlain 15 x.chars := by
  have hdot {n : Nat} {cs : List Char} (h : Within IsPlain n cs) : Within IsPlain (n + 1) ('.' :: cs) :=
    h.cons (by decide)
  have hlast := (Text.within_byte x.c).append (hdot (Text.within_byte x.d))
  exact (Text.within_byte x.a).append (hdot ((Text.within_byte x.b).append (hdot hlast)))

/-- A group has four digits at most, and a colon behind it. -/
theorem IPv6.within_joined (gs : List UInt16) : Within IsPlain (5 * gs.length) (IPv6.joined gs) := by
  fun_induction IPv6.joined gs with
  | case1 => exact Text.within_nil
  | case2 g => exact (Text.within_group g).mono (by simp)
  | case3 g rest hne ih =>
    refine ((Text.within_group g).append (ih.cons (by decide : IsPlain ':'))).mono ?_
    rw [List.length_cons]
    omega

theorem IPv6.within_chars (x : IPv6) : Within IsPlain 42 x.chars := by
  have hlength := x.length_eq
  unfold IPv6.chars
  split
  · next v4 _ =>
    have hmark : Within IsPlain 7 [':', ':', 'f', 'f', 'f', 'f', ':'] := by decide
    exact (hmark.append v4.within_chars).mono (by decide)
  · obtain ⟨start, len⟩ := IPv6.longestRun x.groups
    dsimp only
    split
    · have hcolons := ((IPv6.within_joined (x.groups.drop (start + len))).cons
        (by decide : IsPlain ':')).cons (by decide : IsPlain ':')
      refine ((IPv6.within_joined (x.groups.take start)).append hcolons).mono ?_
      rw [List.length_take, List.length_drop]
      omega
    · exact (IPv6.within_joined x.groups).mono (by omega)

theorem Endpoint.within_chars (e : Endpoint) : Within IsPlain 50 e.chars := by
  have hport := (Text.within_port e.port).cons (by decide : IsPlain ':')
  unfold Endpoint.chars
  split
  · next x _ => exact (x.within_chars.append hport).mono (by decide)
  · next x _ =>
    have hbrackets := x.within_chars.append (hport.cons (by decide : IsPlain ']'))
    exact (hbrackets.cons (by decide : IsPlain '[')).mono (by decide)

/-! ## Records -/

/-- The digits of bytes are twice as many. -/
theorem Hex.within_digits (bytes : List UInt8) :
    Within IsPlain (2 * bytes.length) (Hex.digits bytes) := by
  obtain ⟨hlength, hdigits⟩ := Hex.areDigits_of_bytes? (Hex.bytes?_digits bytes)
  exact ⟨Nat.le_of_eq hlength, fun c hc => Text.isPlain_of_value? (hdigits c hc)⟩

theorem PeerRef.within_chars (p : PeerRef) : Within IsPlain 202 p.chars := by
  have hscheme : Within IsPlain 8 scheme := by decide
  have hid : Within IsPlain 128 (Hex.digits p.id.bytes) :=
    (Hex.within_digits p.id.bytes).mono (Nat.le_of_eq (by rw [p.id.length_eq]))
  have hquery : Within IsPlain 15 (if p.udp = p.tcp then [] else
      '?' :: (discPortKey ++ Text.decimal p.udp.toNat)) := by
    split
    · exact Text.within_nil.mono (by decide)
    · have hkey : Within IsPlain 9 discPortKey := by decide
      exact (hkey.append (Text.within_port p.udp)).cons (by decide)
  have hlocation := (p.tcpEndpoint.within_chars.append hquery).cons (by decide : IsPlain '@')
  exact (hscheme.append hid).append hlocation

end PeerProbe
