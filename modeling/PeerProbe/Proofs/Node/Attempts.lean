import PeerProbe.Proofs.Attempt.Course
import PeerProbe.Proofs.Node.Frame

/-!
# The attempts of a node

Whatever happens to a node, its attempts change in one of four ways: not at all, by a new one at the
end, by a step of one of them along its course, or by something that leaves the course of one
alone. The settings of a slot never change.

So every attempt in a slot stays sound for the settings of the slot, and what has been decided about
it stays decided.
-/

namespace PeerProbe

namespace Node

variable {σ : Type} [Transport σ] {n n' : Node σ}

/-- What may become of the attempts of a node. -/
inductive AttemptsChange (n : Node σ) (attempts : List Attempt) : Prop where
  | same (h : attempts = n.attempts)
  | begun (slot : Nat) (peer : PeerRef) (timeout subscription : Nat)
      (h : attempts = n.attempts ++ [.create slot peer timeout subscription])
  | advanced {j : Nat} {a : Attempt} {cfg : AttemptConfig} {s : Attempt.Stepped σ}
      (hj : n.attempts[j]? = some a) (hcfg : n.config? a.slot = some cfg)
      (hs : a.step? cfg n.now n.transport = some s) (h : attempts = n.attempts.set j s.1)
  | aside {j : Nat} {a a' : Attempt} (hj : n.attempts[j]? = some a) (hsame : a.SameCourse a')
      (h : attempts = n.attempts.set j a')

/-- Cancelling an attempt leaves its course alone. -/
theorem attemptsChange_cancelAttempt (n : Node σ) (k : Nat) :
    n.AttemptsChange (n.cancelAttempt k).attempts := by
  cases hk : n.attempts[k]? with
  | none => exact .same (List.modify_eq_self (List.getElem?_eq_none_iff.mp hk))
  | some a =>
    have hlt := (List.getElem?_eq_some_iff.mp hk).1
    refine .aside hk a.sameCourse_cancel (List.ext_getElem? fun j => ?_)
    by_cases hj : k = j
    · subst hj
      rw [List.getElem?_set_self hlt, cancelAttempt, List.getElem?_modify_eq, hk]
      rfl
    · rw [List.getElem?_set_ne hj]
      exact List.getElem?_modify_ne _ _ hj

/-- A step of a task changes the attempts in one of these ways. -/
theorem attemptsChange_of_step? {task : Task} (h : n.step? task = some n') :
    n.AttemptsChange n'.attempts := by
  cases stepped_of_step? h with
  | attempt ha hcfg hs => exact .advanced ha hcfg hs (by split <;> rfl)
  | watcher ha hr => exact .aside ha (Attempt.sameCourse_of_watcherStep? hr) rfl
  | openWatch | held | background => exact .same rfl
  | call hc hstep hreach =>
    cases hreach with
    | apart hsame => exact .same hsame.attempts
    | claim => exact .same rfl
    | begin purpose slot peer timeout =>
      exact .begun slot peer timeout (Transport.subscribe n.transport).1 rfl
    | cancel k => exact attemptsChange_cancelAttempt n k

/-- So does whatever else happens. -/
theorem attemptsChange_of_happens {allowed : Act σ → Prop} (h : Happens allowed n n') :
    n.AttemptsChange n'.attempts := by
  cases h with
  | step task h => exact attemptsChange_of_step? h
  | act a h =>
    cases a with
    | cancelAttempt k => exact attemptsChange_cancelAttempt n k
    | order | watch | cancelWatch | addSlot | move | wait => exact .same rfl

/-! ## Settings -/

/-- Setting one slot busy or free leaves all settings alone. -/
theorem config?_setBusy {τ : Type} (n : Node τ) (i slot : Nat) (busy : Bool) :
    (n.setBusy i busy).config? slot = n.config? slot := by
  unfold config? setBusy
  by_cases hi : i = slot
  · subst hi
    rw [List.getElem?_modify_eq]
    cases n.slots[i]? <;> rfl
  · exact congrArg (Option.map _) (List.getElem?_modify_ne _ _ hi)

/-- The settings depend on the slots alone. -/
theorem config?_congr {τ : Type} {n n' : Node τ} (h : n'.slots = n.slots) (slot : Nat) :
    n'.config? slot = n.config? slot := by
  rw [config?, config?, h]

/-- No step changes the settings of a slot. -/
theorem config?_of_step? {task : Task} (h : n.step? task = some n') (slot : Nat) :
    n'.config? slot = n.config? slot := by
  cases stepped_of_step? h with
  | attempt =>
    split
    · exact config?_setBusy _ _ _ _
    · rfl
  | watcher | openWatch | held | background => rfl
  | call hc hstep hreach =>
    cases hreach with
    | apart hsame => exact config?_congr hsame.slots slot
    | claim => exact config?_setBusy _ _ _ _
    | begin | cancel => rfl

/-- The settings of a slot stay, whatever happens. -/
theorem config?_of_happens {allowed : Act σ → Prop} (h : Happens allowed n n') {slot : Nat}
    {cfg : AttemptConfig} (hcfg : n.config? slot = some cfg) : n'.config? slot = some cfg := by
  cases h with
  | step task h => rw [config?_of_step? h, hcfg]
  | act a h =>
    cases a with
    | addSlot config =>
      obtain ⟨s, hs, rfl⟩ := Option.map_eq_some_iff.mp hcfg
      have hlt := (List.getElem?_eq_some_iff.mp hs).1
      simp only [config?, act, List.getElem?_append_left hlt, hs, Option.map_some]
    | order | watch | cancelWatch | cancelAttempt | move | wait => exact hcfg

/-! ## One attempt -/

/-- What one thing that happens may make of an attempt. -/
inductive Follows (n : Node σ) (a a' : Attempt) : Prop where
  | advance {cfg : AttemptConfig} {s : Attempt.Stepped σ} (hcfg : n.config? a.slot = some cfg)
      (hs : a.step? cfg n.now n.transport = some s) (h : a' = s.1)
  | aside (h : a.SameCourse a')

/-- Every attempt is still there afterwards. -/
theorem AttemptsChange.exists_follows {attempts : List Attempt} (h : n.AttemptsChange attempts)
    {j : Nat} {a : Attempt} (hj : n.attempts[j]? = some a) :
    ∃ a', attempts[j]? = some a' ∧ n.Follows a a' := by
  have hlt := (List.getElem?_eq_some_iff.mp hj).1
  have haside : n.Follows a a := .aside (.refl a)
  cases h with
  | same h => exact ⟨a, by rw [h, hj], haside⟩
  | begun slot peer timeout subscription h =>
    exact ⟨a, by rw [h, List.getElem?_append_left hlt, hj], haside⟩
  | @advanced i b cfg s hi hcfg hs h =>
    by_cases hij : i = j
    · subst hij
      obtain rfl := Option.some.inj (hj.symm.trans hi)
      exact ⟨s.1, by rw [h, List.getElem?_set_self hlt], .advance hcfg hs rfl⟩
    · exact ⟨a, by rw [h, List.getElem?_set_ne hij, hj], haside⟩
  | @aside i b b' hi hsame h =>
    by_cases hij : i = j
    · subst hij
      obtain rfl := Option.some.inj (hj.symm.trans hi)
      exact ⟨b', by rw [h, List.getElem?_set_self hlt], .aside hsame⟩
    · exact ⟨a, by rw [h, List.getElem?_set_ne hij, hj], haside⟩

/-- Every attempt was there before, or has just begun. -/
theorem AttemptsChange.origin {attempts : List Attempt} (h : n.AttemptsChange attempts) {j : Nat}
    {a' : Attempt} (hj : attempts[j]? = some a') :
    (∃ a, n.attempts[j]? = some a ∧ n.Follows a a') ∨
      ∃ slot peer timeout subscription, a' = .create slot peer timeout subscription := by
  cases ha : n.attempts[j]? with
  | some a =>
    obtain ⟨b, hb, hfollows⟩ := h.exists_follows ha
    obtain rfl := Option.some.inj (hj.symm.trans hb)
    exact .inl ⟨a, rfl, hfollows⟩
  | none =>
    have hle := List.getElem?_eq_none_iff.mp ha
    cases h with
    | same h => simp [h, ha] at hj
    | begun slot peer timeout subscription h =>
      right
      rw [h, List.getElem?_append_right hle] at hj
      exact ⟨slot, peer, timeout, subscription, List.mem_singleton.mp (List.mem_of_getElem? hj)⟩
    | advanced _ _ _ h | aside _ _ h =>
      rw [h, List.getElem?_eq_none (by rwa [List.length_set])] at hj
      contradiction

/-- The slot of an attempt never changes. -/
theorem Follows.slot {a a' : Attempt} (h : n.Follows a a') : a'.slot = a.slot := by
  cases h with
  | advance _ hs h => exact h ▸ (Attempt.advance_of_step? hs).slot
  | aside h => exact h.slot

/-- The peer of an attempt never changes. -/
theorem Follows.peer {a a' : Attempt} (h : n.Follows a a') : a'.peer = a.peer := by
  cases h with
  | advance _ hs h => exact h ▸ (Attempt.advance_of_step? hs).peer
  | aside h => exact h.peer

/-- What is true of a new attempt and what steps with some settings, as well as others, leave
true. -/
structure Lasting (σ : Type) [Transport σ] (cfg : AttemptConfig) (p : Attempt → Prop) : Prop where
  create : ∀ slot peer timeout subscription, p (.create slot peer timeout subscription)
  step : ∀ (a : Attempt) (now : Nat) (t : σ) (s : Attempt.Stepped σ),
    p a → a.step? cfg now t = some s → p s.1
  aside : ∀ a a' : Attempt, p a → a.SameCourse a' → p a'

/-- What lasts is true of an attempt that follows one of which it is true. -/
theorem Lasting.follows {cfg : AttemptConfig} {p : Attempt → Prop} (hp : Lasting σ cfg p)
    {a a' : Attempt} (h : n.Follows a a') (hcfg : n.config? a.slot = some cfg) (ha : p a) :
    p a' := by
  cases h with
  | advance hcfg' hs h =>
    obtain rfl := Option.some.inj (hcfg.symm.trans hcfg')
    exact h ▸ hp.step a _ _ _ ha hs
  | aside h => exact hp.aside a a' ha h

/-- What lasts stays true of all attempts in a slot, whatever happens. -/
theorem Lasting.happens {cfg : AttemptConfig} {p : Attempt → Prop} (hp : Lasting σ cfg p)
    {allowed : Act σ → Prop} {slot : Nat} (hcfg : n.config? slot = some cfg)
    (hn : ∀ (j : Nat) (a : Attempt), n.attempts[j]? = some a → a.slot = slot → p a)
    (h : Happens allowed n n') {j : Nat} {a' : Attempt} (hj : n'.attempts[j]? = some a')
    (hslot : a'.slot = slot) : p a' := by
  rcases (attemptsChange_of_happens h).origin hj with
    ⟨a, ha, hfollows⟩ | ⟨slot', peer, timeout, subscription, rfl⟩
  · have hslot' : a.slot = slot := hfollows.slot.symm.trans hslot
    exact hp.follows hfollows (by rw [hslot', hcfg]) (hn j a ha hslot')
  · exact hp.create slot' peer timeout subscription

/-! ## Sound attempts -/

/-- The settings of a slot are known, and every attempt in it is sound for them. -/
structure AttemptsSound (n : Node σ) (slot : Nat) (cfg : AttemptConfig) : Prop where
  config : n.config? slot = some cfg
  sound : ∀ (j : Nat) (a : Attempt), n.attempts[j]? = some a → a.slot = slot → a.Sound cfg

/-- To be sound lasts. -/
theorem lasting_sound (cfg : AttemptConfig) : Lasting σ cfg (Attempt.Sound cfg) :=
  ⟨Attempt.sound_create cfg, fun _ _ _ _ ha hs => ha.course (Attempt.advance_of_step? hs).course,
    fun _ _ ha h => ha.course h.course⟩

/-- Whatever happens, the attempts in a slot stay sound. -/
theorem AttemptsSound.happens {allowed : Act σ → Prop} {slot : Nat} {cfg : AttemptConfig}
    (hn : n.AttemptsSound slot cfg) (h : Happens allowed n n') : n'.AttemptsSound slot cfg :=
  ⟨config?_of_happens h hn.config,
    fun _ _ hj hslot => (lasting_sound cfg).happens hn.config hn.sound h hj hslot⟩

/-- The attempts in a slot are sound in every state that a node gets into. -/
theorem AttemptsSound.reachable {allowed : Act σ → Prop} {slot : Nat} {cfg : AttemptConfig}
    (hn : n.AttemptsSound slot cfg) (h : Reachable allowed n n') : n'.AttemptsSound slot cfg := by
  induction h with
  | first => exact hn
  | next _ hstep ih => exact ih.happens hstep

end Node

namespace Attempt

/-- A later state of an attempt: the slot and the peer are the same, a report stays what it is, and
a cancellation and the end are final. -/
structure Later (a a' : Attempt) : Prop where
  slot : a'.slot = a.slot
  peer : a'.peer = a.peer
  report : ∀ r, a.report = some r → a'.report = some r
  cancelled : a.cancelled = true → a'.cancelled = true
  finished : a.isFinished = true → a'.isFinished = true

/-- Every state is later than itself. -/
theorem Later.refl (a : Attempt) : a.Later a := ⟨rfl, rfl, fun _ h => h, id, id⟩

/-- What is later than a later state is later. -/
theorem Later.trans {a b c : Attempt} (h : a.Later b) (h' : b.Later c) : a.Later c :=
  ⟨h'.slot.trans h.slot, h'.peer.trans h.peer, fun r hr => h'.report r (h.report r hr),
    fun hc => h'.cancelled (h.cancelled hc), fun hf => h'.finished (h.finished hf)⟩

end Attempt

namespace Node

variable {σ : Type} [Transport σ] {n n' : Node σ}

/-- What follows a sound attempt is a later state of it. -/
theorem Follows.later {a a' : Attempt} {cfg : AttemptConfig} (h : n.Follows a a')
    (hs : a.Sound cfg) : a.Later a' := by
  cases h with
  | advance _ hstep h =>
    subst h
    have hadvance := Attempt.advance_of_step? hstep
    exact ⟨hadvance.slot, hadvance.peer, fun r hr => hs.report_eq_some hadvance.course hr,
      fun hc => by rw [hadvance.cancelled, hc],
      fun hf => by simp [Attempt.isFinished_of_step? hstep] at hf⟩
  | aside h =>
    refine ⟨h.slot, h.peer, fun r hr => by rw [h.report, hr], h.cancelled, fun hf => ?_⟩
    rwa [Attempt.isFinished, h.phase]

/-- The attempts in a slot are still there in every state that a node gets into. -/
theorem AttemptsSound.exists_later {allowed : Act σ → Prop} {slot : Nat} {cfg : AttemptConfig}
    (hn : n.AttemptsSound slot cfg) (h : Reachable allowed n n') {j : Nat} {a : Attempt}
    (hj : n.attempts[j]? = some a) (hslot : a.slot = slot) :
    ∃ a', n'.attempts[j]? = some a' ∧ a.Later a' := by
  induction h with
  | first => exact ⟨a, hj, .refl a⟩
  | next hreach hstep ih =>
    obtain ⟨b, hb, hab⟩ := ih
    obtain ⟨c, hc, hfollows⟩ := (attemptsChange_of_happens hstep).exists_follows hb
    have hsound := (hn.reachable hreach).sound j b hb (hab.slot.trans hslot)
    exact ⟨c, hc, hab.trans (hfollows.later hsound)⟩

end Node

end PeerProbe
