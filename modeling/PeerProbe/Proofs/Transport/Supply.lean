import PeerProbe.InProcess
import PeerProbe.Proofs.Eth.Trace

/-!
# What a connection has for its reader

A call of a reader takes one item off its connection, whichever item it is and however many polls that
takes. So the answers of its calls are the answers to the items that reads one behind the other give.

A connection inside the process has things for its reader in an order: the frames on their way and,
once the other end is gone, its end over and over again; or the entries of a script. A read that is
ready has taken the first of them, whatever a reader made of those before it, and one that waits has
taken nothing.
-/

namespace PeerProbe

/-! ## Calls of a reader -/

/-- Reads on a connection one after the other, each polled until it is ready, and what they give. -/
inductive Transport.Delivers {σ : Type} [Transport σ] (c : ConnId) : List UInt8 → σ →
    List (Except TransportError Frame) → σ → Prop where
  | done (taken : List UInt8) (t : σ) : Delivers c taken t [] t
  | ahead {now : Nat} {taken taken' : List UInt8} {t t' t'' : σ}
      {items : List (Except TransportError Frame)}
      (hread : Transport.read now c taken t = .ahead taken' t')
      (hrest : Delivers c taken' t' items t'') : Delivers c taken t items t''
  | item {now : Nat} {taken : List UInt8} {t t' t'' : σ} {item : Except TransportError Frame}
      {items : List (Except TransportError Frame)}
      (hread : Transport.read now c taken t = .ready item t')
      (hrest : Delivers c [] t' items t'') : Delivers c taken t (item :: items) t''

namespace Eth.Reading

/-- Calls of a reader on a connection one after the other, each polled until its read is ready. -/
inductive Calls {σ : Type} [Transport σ] (c : ConnId) : List UInt8 → Reading → σ →
    List (Except ReadError Payload) → Reading → σ → Prop where
  | done (taken : List UInt8) (r : Reading) (t : σ) : Calls c taken r t [] r t
  | ahead {now : Nat} {taken taken' : List UInt8} {r r' : Reading} {t t' t'' : σ}
      {answers : List (Except ReadError Payload)}
      (hread : Transport.read now c taken t = .ahead taken' t')
      (hrest : Calls c taken' r t' answers r' t'') : Calls c taken r t answers r' t''
  | call {now : Nat} {taken : List UInt8} {r r' : Reading} {t t' t'' : σ}
      {item : Except TransportError Frame} {answers : List (Except ReadError Payload)}
      (hread : Transport.read now c taken t = .ready item t')
      (hrest : Calls c [] (r.next item).2 t' answers r' t'') :
      Calls c taken r t ((r.next item).1 :: answers) r' t''

/-- Calls of a reader answer what the reads give, one item each. -/
theorem calls_iff {σ : Type} [Transport σ] {c : ConnId} {taken : List UInt8} {r r' : Reading}
    {t t' : σ} {answers : List (Except ReadError Payload)} :
    Calls c taken r t answers r' t' ↔
      ∃ items, Transport.Delivers c taken t items t' ∧ answers = r.run items ∧ r' = r.after items := by
  constructor
  · intro h
    induction h with
    | done taken r t => exact ⟨[], .done taken t, rfl, rfl⟩
    | ahead hread _ ih =>
      obtain ⟨items, hdelivers, hanswers, hreader⟩ := ih
      exact ⟨items, .ahead hread hdelivers, hanswers, hreader⟩
    | call hread _ ih =>
      obtain ⟨items, hdelivers, rfl, rfl⟩ := ih
      exact ⟨_ :: items, .item hread hdelivers, rfl, rfl⟩
  · rintro ⟨items, hdelivers, rfl, rfl⟩
    induction hdelivers generalizing r with
    | done taken t => exact .done taken r t
    | ahead hread _ ih => exact .ahead hread ih
    | item hread _ ih => exact .call hread ih

end Eth.Reading

/-! ## Connections inside the process -/

namespace InProcess

variable {c : ConnId} {t t' : InProcess} {now : Nat} {taken : List UInt8}
  {item : Except TransportError Frame} {items : List (Except TransportError Frame)}

/-- The things that a link has for its reader, in order. -/
def linkItem? : Link → Nat → Option (Except TransportError Frame)
  | .pipe p, n =>
    match p.inbound[n]? with
    | some f => some (.ok f)
    | none => if p.remoteOpen then none else some (.error .eof)
  | .script s, n => s.entries[n]?.map (·.item)

/-- The things that a connection has for its reader, in order. -/
def item? (c : ConnId) (t : InProcess) (n : Nat) : Option (Except TransportError Frame) :=
  t.links[c]?.bind fun l => linkItem? l n

theorem item?_eq {l : Link} (hl : t.links[c]? = some l) (n : Nat) : item? c t n = linkItem? l n := by
  rw [item?, hl]
  rfl

theorem item?_setLink {l l' : Link} (hl : t.links[c]? = some l) (n : Nat) :
    item? c (t.setLink c l') n = linkItem? l' n := by
  have hlt := (List.getElem?_eq_some_iff.mp hl).1
  exact item?_eq (List.getElem?_set_self hlt) n

/-- A read that is ready takes the first thing, and the others stay in their order. -/
theorem item?_of_ready (h : Transport.read now c taken t = .ready item t') :
    item? c t 0 = some item ∧ ∀ n, item? c t' n = item? c t (n + 1) := by
  change t.read now c taken = _ at h
  unfold InProcess.read at h
  split at h
  · next p hlink =>
    split at h
    · next f rest hinbound =>
      cases h
      refine ⟨?_, fun n => ?_⟩
      · simp [item?_eq hlink, linkItem?, hinbound]
      · simp [item?_setLink hlink, item?_eq hlink, linkItem?, hinbound]
    · next hinbound =>
      split at h
      · contradiction
      · next hgone =>
        cases h
        simp [item?_eq hlink, linkItem?, hinbound, hgone]
  · next s hlink =>
    split at h
    · next item' s' hread =>
      cases h
      unfold Script.read? at hread
      split at hread
      · contradiction
      · next e rest hentries =>
        obtain ⟨-, hread⟩ := Option.ite_none_right_eq_some.mp hread
        cases hread
        refine ⟨?_, fun n => ?_⟩
        · simp [item?_eq hlink, linkItem?, hentries]
        · simp [item?_setLink hlink, item?_eq hlink, linkItem?, hentries]
    · contradiction
  · contradiction

/-- Frames arrive whole. -/
theorem not_ahead {taken' : List UInt8} : Transport.read now c taken t ≠ .ahead taken' t' := by
  change t.read now c taken ≠ _
  unfold InProcess.read
  repeat' split
  all_goals exact nofun

/-- Where there is something for a reader, a read is ready from some time on. -/
theorem exists_ready (h : item? c t 0 = some item) (taken : List UInt8) :
    ∃ due, ∀ now, due ≤ now → ∃ t', Transport.read now c taken t = .ready item t' := by
  obtain ⟨l, hlink, hitem⟩ := Option.bind_eq_some_iff.mp h
  have hread (now : Nat) : Transport.read now c taken t = t.read now c taken := rfl
  cases l with
  | pipe p =>
    refine ⟨0, fun now _ => ?_⟩
    rw [hread, InProcess.read, hlink]
    cases hinbound : p.inbound with
    | cons f rest =>
      simp only [linkItem?, hinbound, List.getElem?_cons_zero, Option.some.injEq] at hitem
      simp [hinbound, hitem]
    | nil =>
      simp only [linkItem?, hinbound, List.getElem?_nil] at hitem
      obtain ⟨hgone, hitem⟩ := Option.ite_none_left_eq_some.mp hitem
      cases hitem
      simp [hinbound, hgone]
  | script s =>
    cases hentries : s.entries with
    | nil => simp [linkItem?, hentries] at hitem
    | cons e rest =>
      simp only [linkItem?, hentries, List.getElem?_cons_zero, Option.map_some,
        Option.some.injEq] at hitem
      refine ⟨s.started + e.due, fun now hdue => ?_⟩
      rw [hread, InProcess.read, hlink]
      simp [Script.read?, hentries, hdue, hitem]

/-- How reads use up what a connection has: the first gives the first thing, the second the second,
and so on, and the rest is left. -/
structure UsesUp (c : ConnId) (t t' : InProcess) (items : List (Except TransportError Frame)) :
    Prop where
  served : ∀ n < items.length, item? c t n = items[n]?
  rest : ∀ n, item? c t' n = item? c t (items.length + n)

theorem usesUp_of_delivers (h : Transport.Delivers c taken t items t') : UsesUp c t t' items := by
  induction h with
  | done => exact ⟨nofun, fun n => by simp⟩
  | ahead hread => exact absurd hread not_ahead
  | @item now taken t t₁ t' item items hread _ ih =>
    obtain ⟨hfirst, hlater⟩ := item?_of_ready hread
    refine ⟨fun n hn => ?_, fun n => ?_⟩
    · cases n with
      | zero => exact hfirst
      | succ n =>
        rw [← hlater, ih.served n (Nat.lt_of_succ_lt_succ hn), List.getElem?_cons_succ]
    · rw [ih.rest, hlater, List.length_cons, Nat.add_right_comm]

/-- As many reads as a connection has things for its reader give them all. -/
theorem exists_delivers (n : Nat) (h : ∀ m < n, (item? c t m).isSome) :
    ∃ items t', Transport.Delivers c [] t items t' ∧ items.length = n := by
  induction n generalizing t with
  | zero => exact ⟨[], t, .done [] t, rfl⟩
  | succ n ih =>
    obtain ⟨item, hitem⟩ := Option.isSome_iff_exists.mp (h 0 (Nat.succ_pos n))
    obtain ⟨due, hdue⟩ := exists_ready hitem []
    obtain ⟨t', hread⟩ := hdue due (Nat.le_refl due)
    obtain ⟨-, hlater⟩ := item?_of_ready hread
    have hleft : ∀ m < n, (item? c t' m).isSome := fun m hm => by
      rw [hlater]
      exact h (m + 1) (Nat.succ_lt_succ hm)
    obtain ⟨items, t'', hdelivers, hlength⟩ := ih hleft
    exact ⟨item :: items, t'', .item hread hdelivers, by rw [List.length_cons, hlength]⟩

end InProcess

end PeerProbe
