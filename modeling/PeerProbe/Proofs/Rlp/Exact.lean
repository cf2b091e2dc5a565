import PeerProbe.Proofs.Rlp.Head

/-!
# Readers that accept exactly what is written

A reader is exact for a writer when it accepts precisely the written forms, whatever follows them.
Exactness passes from strings to numbers and blocks, and from the fields of a record and the
elements of a list to the whole.

A head announces at most `2^64 - 1` bytes, so that written forms are read back is only claimed for
inputs below that length. What is accepted is canonical without any such limit.
-/

namespace PeerProbe.Rlp

/-- The length from which on an input may hold more than a head can announce. -/
def sizeLimit : Nat := 2 ^ 64

/-- Reading accepts exactly the written forms of the values with a property: a value that is read
has the property and its written form was taken off the front, whatever stands behind, and every
written form is read. -/
structure Exact {α : Type} (read : Reader α) (write : α → List UInt8) (p : α → Prop) : Prop where
  of_read : ∀ {bytes : List UInt8} {a : α} {rest : List UInt8},
    read bytes = .ok (a, rest) → p a ∧ bytes = write a ++ rest
  read_more : ∀ {bytes : List UInt8} {a : α} {rest : List UInt8} (more : List UInt8),
    read bytes = .ok (a, rest) → read (bytes ++ more) = .ok (a, rest ++ more)
  read_append : ∀ {a : α} {rest : List UInt8},
    p a → (write a ++ rest).length < sizeLimit → read (write a ++ rest) = .ok (a, rest)

/-- A type whose reader accepts exactly the written forms of its values. -/
class ExactItem (α : Type) [Item α] : Prop where
  exact : Exact (Item.read : Reader α) Item.write fun _ => True

section Readers

variable {α β : Type}

/-- Two readers in sequence succeed when the second succeeds on what the first left over. -/
theorem bind_eq_ok {r : Reader α} {k : α → Reader β} {bytes rest : List UInt8} {b : β} :
    (r >>= k) bytes = .ok (b, rest) ↔
      ∃ a middle, r bytes = .ok (a, middle) ∧ k a middle = .ok (b, rest) := by
  change (r bytes).bind (fun x => k x.1 x.2) = _ ↔ _
  cases hr : r bytes with
  | error e => simp [Except.bind]
  | ok x => simp [Except.bind, Prod.ext_iff]

/-- A reader whose value is converted succeeds when the reader does. -/
theorem map_eq_ok {r : Reader α} {f : α → β} {bytes rest : List UInt8} {b : β} :
    (f <$> r) bytes = .ok (b, rest) ↔ ∃ a, r bytes = .ok (a, rest) ∧ f a = b := by
  change ((r bytes).bind fun x => .ok (f x.1, x.2)) = _ ↔ _
  cases hr : r bytes with
  | error e => simp [Except.bind]
  | ok x => simp [Except.bind, Prod.ext_iff, and_comm]

namespace Exact

variable {read : Reader α} {write : α → List UInt8} {p : α → Prop}

/-- A reader that succeeds exactly when an exact one reads the source of its value is exact. -/
theorem comap (h : Exact read write p) (source : β → α) (hsource : ∀ b, p (source b))
    {read' : Reader β} (hread : ∀ {bytes b rest},
      read' bytes = .ok (b, rest) ↔ read bytes = .ok (source b, rest)) :
    Exact read' (fun b => write (source b)) fun _ => True where
  of_read hb := ⟨trivial, (h.of_read (hread.mp hb)).2⟩
  read_more more hb := hread.mpr (h.read_more more (hread.mp hb))
  read_append _ hlen := hread.mpr (h.read_append (hsource _) hlen)

/-- Converting the values of an exact reader back and forth keeps it exact. -/
theorem map (h : Exact read write p) (f : α → β) (source : β → α)
    (hto : ∀ a, p a → source (f a) = a) (hback : ∀ b, p (source b) ∧ f (source b) = b) :
    Exact (f <$> read) (fun b => write (source b)) fun _ => True := by
  refine h.comap source (fun b => (hback b).1) fun {bytes b rest} => ?_
  rw [map_eq_ok]
  constructor
  · rintro ⟨a, ha, rfl⟩
    rwa [hto a (h.of_read ha).1]
  · intro hb
    exact ⟨source b, hb, (hback b).2⟩

/-- A field in front of exactly read fields is exactly read with them. What is left to read behind
it are the values that have the field as it was read. -/
theorem field (h : Exact read write fun _ => True) (f : β → α) {k : α → Reader β}
    {writeRest : β → List UInt8} {q : β → Prop}
    (hrest : ∀ a, Exact (k a) writeRest fun b => f b = a ∧ q b) :
    Exact (read >>= k) (fun b => write (f b) ++ writeRest b) q where
  of_read hread := by
    obtain ⟨a, middle, ha, hb⟩ := bind_eq_ok.mp hread
    obtain ⟨-, hbytes⟩ := h.of_read ha
    obtain ⟨⟨hf, hq⟩, hmiddle⟩ := (hrest a).of_read hb
    exact ⟨hq, by rw [hbytes, hmiddle, hf, List.append_assoc]⟩
  read_more more hread := by
    obtain ⟨a, middle, ha, hb⟩ := bind_eq_ok.mp hread
    exact bind_eq_ok.mpr ⟨a, middle ++ more, h.read_more more ha, (hrest a).read_more more hb⟩
  read_append {b rest} hq hlen := by
    rw [List.append_assoc] at hlen ⊢
    have hmiddle : (writeRest b ++ rest).length < sizeLimit := by
      rw [List.length_append] at hlen; omega
    exact bind_eq_ok.mpr ⟨f b, _, h.read_append trivial hlen,
      (hrest (f b)).read_append ⟨rfl, hq⟩ hmiddle⟩

/-- The last field completes the record: one value alone has all the fields that were read. -/
theorem last (h : Exact read write fun _ => True) (f : β → α) {make : α → β} {q : β → Prop}
    (hmake : ∀ a b, f b = a ∧ q b ↔ b = make a) :
    Exact (read >>= fun a => pure (make a)) (fun b => write (f b)) q where
  of_read hread := by
    obtain ⟨a, middle, ha, hb⟩ := bind_eq_ok.mp hread
    obtain ⟨rfl, rfl⟩ := Prod.mk.inj (Except.ok.inj hb)
    obtain ⟨-, hbytes⟩ := h.of_read ha
    obtain ⟨hf, hq⟩ := (hmake a _).mpr rfl
    exact ⟨hq, by rw [hf, hbytes]⟩
  read_more more hread := by
    obtain ⟨a, middle, ha, hb⟩ := bind_eq_ok.mp hread
    obtain ⟨rfl, rfl⟩ := Prod.mk.inj (Except.ok.inj hb)
    exact bind_eq_ok.mpr ⟨a, middle ++ more, h.read_more more ha, rfl⟩
  read_append {b rest} hq hlen := by
    refine bind_eq_ok.mpr ⟨f b, rest, h.read_append trivial hlen, ?_⟩
    rw [← (hmake (f b) b).mp ⟨rfl, hq⟩]
    rfl

end Exact

end Readers

end PeerProbe.Rlp
