import PeerProbe.InProcess
import PeerProbe.Node.Step

/-!
# Runs of a node

States that are reached one after the other are reached, and so is the state after a run that is
carried out: something is done to the node, and its tasks go on for some steps, each time the first
of them that can.

A task that comes closer to its end by every step of its own, and is not taken away from it by
others, ends after a bounded number of its steps.
-/

namespace PeerProbe

namespace Node

variable {σ : Type} [Transport σ] {allowed : Act σ → Prop} {first n m : Node σ}

/-- A run goes on where another one ended. -/
theorem Reachable.trans (h : Reachable allowed first n) (h' : Reachable allowed n m) :
    Reachable allowed first m := by
  induction h' with
  | first => exact h
  | next _ hstep ih => exact .next ih hstep

/-- The node after at most so many steps, each of the first task that can take one. -/
def runTasks (tasks : List Task) : Nat → Node σ → Node σ
  | 0, n => n
  | fuel + 1, n =>
    match tasks.findSome? n.step? with
    | some n' => runTasks tasks fuel n'
    | none => n

/-- The node after some things were done to it, with its tasks run behind each. -/
def perform (tasks : List Task) (fuel : Nat) (n : Node σ) (acts : List (Act σ)) : Node σ :=
  acts.foldl (fun n a => runTasks tasks fuel (n.act a)) n

/-- What tasks come to by themselves is reached, whatever else is allowed. -/
theorem reachable_runTasks (allowed : Act σ → Prop) (tasks : List Task) (fuel : Nat)
    (n : Node σ) : Reachable allowed n (n.runTasks tasks fuel) := by
  induction fuel generalizing n with
  | zero => exact .first
  | succ fuel ih =>
    unfold runTasks
    split
    · next n' hstep =>
      obtain ⟨task, -, htask⟩ := List.exists_of_findSome?_eq_some hstep
      exact Reachable.trans (.next .first (.step task htask)) (ih n')
    · exact .first

/-- A task that can take a step takes it when it is run once. -/
theorem step?_eq_some_runTasks {task : Task}
    (h : (n.step? task).isSome = true) : n.step? task = some (n.runTasks [task] 1) := by
  obtain ⟨n', hn'⟩ := Option.isSome_iff_exists.mp h
  simp [runTasks, hn']

/-- What is performed is reached if all of it is allowed. -/
theorem reachable_perform (tasks : List Task) (fuel : Nat) (n : Node σ) {acts : List (Act σ)}
    (hacts : ∀ a ∈ acts, allowed a) : Reachable allowed n (n.perform tasks fuel acts) := by
  induction acts generalizing n with
  | nil => exact .first
  | cons a acts ih =>
    have hact : Reachable allowed n (n.act a) :=
      .next .first (.act n a (hacts a List.mem_cons_self))
    have hrun := hact.trans (reachable_runTasks allowed tasks fuel (n.act a))
    exact hrun.trans (ih _ fun b hb => hacts b (List.mem_cons_of_mem _ hb))

/-! ## Runs in which some steps are counted -/

/-- The states that a node gets into from a first one while some of its tasks take so many steps.
Whatever else happens in between is not counted. -/
inductive Counted (allowed : Act σ → Prop) (tasks : List Task) (first : Node σ) :
    Nat → Node σ → Prop where
  | first : Counted allowed tasks first 0 first
  | counted {count : Nat} {n n' : Node σ} {task : Task} :
      Counted allowed tasks first count n → task ∈ tasks → n.step? task = some n' →
        Counted allowed tasks first (count + 1) n'
  | other {count : Nat} {n n' : Node σ} :
      Counted allowed tasks first count n → Happens allowed n n' →
        Counted allowed tasks first count n'

/-- A rank that never grows and that every counted step lowers bounds the counted steps. -/
theorem Counted.rank_le {tasks : List Task} (p : Node σ → Prop) (rank : Node σ → Nat)
    (hother : ∀ n n', p n → Happens allowed n n' → p n' ∧ rank n' ≤ rank n)
    (hcounted : ∀ n n' task, p n → task ∈ tasks → n.step? task = some n' → rank n' < rank n)
    (hfirst : p first) {count : Nat} (h : Counted allowed tasks first count n) :
    p n ∧ count + rank n ≤ rank first := by
  induction h with
  | first => exact ⟨hfirst, by omega⟩
  | @counted count n n' task _ htask hstep ih =>
    obtain ⟨hn, hle⟩ := ih
    have hlt := hcounted n n' task hn htask hstep
    exact ⟨(hother n n' hn (.step task hstep)).1, by omega⟩
  | @other count n n' _ hstep ih =>
    obtain ⟨hn, hle⟩ := ih
    obtain ⟨hn', hle'⟩ := hother n n' hn hstep
    exact ⟨hn', by omega⟩

/-! ## A node to run -/

/-- Settings without a status exchange. -/
def plainConfig : AttemptConfig := ⟨none, .mainnet, 0, true⟩

/-- The record of a node. -/
def ownRef : PeerRef := ⟨.replicate 64 0, .v4 .loopback, 30303, 30303⟩

/-- The record of a peer. -/
def guestRef : PeerRef := ⟨.replicate 64 1, .v4 .loopback, 30304, 30304⟩

/-- A new node with plain settings. -/
def plainNode : Node InProcess := create (.create (some ownRef) []) plainConfig 1000

end Node

end PeerProbe
