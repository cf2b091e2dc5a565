/-!
# Runs

A run is a sequence of states that goes on for ever: from each state to the next there is a step,
or nothing happens. What is said about a run at one time and another is said about the same run, so
"at most once" and "from then on" can be stated of it.
-/

namespace PeerProbe

variable {α : Type} {step : α → α → Prop} {a b : α}

/-- A run of a relation from a first state. -/
structure Run (step : α → α → Prop) (first : α) where
  state : Nat → α
  state_zero : state 0 = first
  next : ∀ k, step (state k) (state (k + 1)) ∨ state (k + 1) = state k

namespace Run

/-- The run in which nothing happens. -/
def stay (a : α) : Run step a := ⟨fun _ => a, rfl, fun _ => .inr rfl⟩

/-- A step, or nothing, and then a run. -/
def cons (h : step a b ∨ b = a) (r : Run step b) : Run step a where
  state
    | 0 => a
    | k + 1 => r.state k
  state_zero := rfl
  next
    | 0 => show step a (r.state 0) ∨ r.state 0 = a by rwa [r.state_zero]
    | k + 1 => r.next k

/-- The run in which some things are done one after the other, and nothing behind them. -/
def perform : (acts : List (α → α)) → (∀ f ∈ acts, ∀ x, step x (f x) ∨ f x = x) → (a : α) →
    Run step a
  | [], _, a => stay a
  | f :: acts, h, a =>
    cons (h f List.mem_cons_self a)
      (perform acts (fun g hg => h g (List.mem_cons_of_mem _ hg)) (f a))

/-- Things are done in their order. -/
theorem state_perform (acts : List (α → α)) (h : ∀ f ∈ acts, ∀ x, step x (f x) ∨ f x = x) (a : α)
    (k : Nat) : (perform acts h a).state k = (acts.take k).foldl (fun x f => f x) a := by
  induction acts generalizing a k with
  | nil =>
    rw [List.take_nil]
    rfl
  | cons f acts ih =>
    cases k with
    | zero => rfl
    | succ k => exact ih _ (f a) k

/-- The first thing is done at once. -/
theorem state_one_perform (f : α → α) (acts : List (α → α))
    (h : ∀ g ∈ f :: acts, ∀ x, step x (g x) ∨ g x = x) (a : α) :
    (perform (f :: acts) h a).state 1 = f a := state_perform (f :: acts) h a 1

/-- After the first things are done, there is what they lead to. -/
theorem state_perform_length (acts more : List (α → α))
    (h : ∀ f ∈ acts ++ more, ∀ x, step x (f x) ∨ f x = x) (a : α) :
    (perform (acts ++ more) h a).state acts.length = acts.foldl (fun x f => f x) a := by
  rw [state_perform, List.take_left]

/-- What comes behind them is done to that. -/
theorem state_perform_succ (acts more : List (α → α)) (f : α → α)
    (h : ∀ g ∈ acts ++ f :: more, ∀ x, step x (g x) ∨ g x = x) (a : α) :
    (perform (acts ++ f :: more) h a).state (acts.length + 1) =
      f ((perform (acts ++ f :: more) h a).state acts.length) := by
  rw [state_perform_length, state_perform, List.take_length_add_append, List.foldl_append]
  rfl

/-- What every step keeps is kept from one time to any later one. -/
theorem onwards {p : α → Prop} (hstep : ∀ x y, step x y → p x → p y) (r : Run step a) {k m : Nat}
    (hkm : k ≤ m) (h : p (r.state k)) : p (r.state m) := by
  induction hkm with
  | refl => exact h
  | step _ ih =>
    rename_i m _
    obtain hnext | hstay := r.next m
    · exact hstep _ _ hnext ih
    · rwa [hstay]

/-- What holds at first and is kept by every step holds always. -/
theorem always {p : α → Prop} (hfirst : p a) (hstep : ∀ x y, step x y → p x → p y)
    (r : Run step a) (m : Nat) : p (r.state m) :=
  r.onwards hstep (Nat.zero_le m) (by rwa [r.state_zero])

end Run

end PeerProbe
