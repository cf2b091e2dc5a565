import PeerProbe.Proofs.Node.Frame

/-!
# The life cycle of a node

A call that has swapped the life cycle to starting or stopping is in a transition until it sets it
to running or stopped. One call at most is in a transition, the life cycle says in which, and it is
at rest while none is. So the life cycle goes along five edges only.
-/

namespace PeerProbe

/-- The steps that a life cycle may take. -/
inductive Lifecycle.Edge : Lifecycle → Lifecycle → Prop where
  | start : Edge .stopped .starting
  | fail : Edge .starting .stopped
  | run : Edge .starting .running
  | stop : Edge .running .stopping
  | rest : Edge .stopping .stopped

/-- The transition that a call has claimed and not completed. -/
def Call.transition? : Call → Option Lifecycle
  | .starting _ | .startFailed _ | .identifying | .aborting _ | .aborted | .caching _
  | .startDone _ => some .starting
  | .quiescing | .stopping _ | .clearing | .stopDone => some .stopping
  | _ => none

/-- A call starts the transport, or waits for it to start. -/
def Call.startsTransport : Call → Bool
  | .starting _ | .transportStart _ => true
  | _ => false

/-- A call stops the transport, or waits for it to stop. -/
def Call.stopsTransport : Call → Bool
  | .stopping _ | .aborting _ | .transportStop _ => true
  | _ => false

/-- A call is a direct use of the transport, past the service. -/
def Call.isDirect : Call → Bool
  | .transportStart _ | .transportStop _ => true
  | _ => false

/-- There are two transitions. -/
theorem Call.transition?_cases {c : Call} {s : Lifecycle} (h : c.transition? = some s) :
    s = .starting ∨ s = .stopping := by
  unfold Call.transition? at h
  split at h <;> simp_all

/-- A call that starts or stops the transport does so in a transition, or past the service. -/
theorem Call.transition?_of_uses {c : Call} (h : c.startsTransport = true ∨ c.stopsTransport = true)
    (hdirect : c.isDirect = false) : ∃ s, c.transition? = some s := by
  cases c <;> simp_all [Call.startsTransport, Call.stopsTransport, Call.isDirect, Call.transition?]

namespace Node

variable {σ : Type}

/-- The transition that a call of a node is in. -/
def transition? (n : Node σ) (i : Nat) : Option Lifecycle := n.ofCall? Call.transition? i

/-- What one thing that happens may make of the life cycle. -/
inductive LifecycleChange (n n' : Node σ) : Prop where
  | kept (hcalls : ∀ i, n'.transition? i = n.transition? i)
      (hlifecycle : n'.lifecycle = n.lifecycle)
  | entered (i : Nat) (c : Call) (hc : n'.calls[i]? = some c)
      (hfrom : n.lifecycle = .stopped ∧ n'.lifecycle = .starting ∧ c = .starting none ∨
        n.lifecycle = .running ∧ n'.lifecycle = .stopping ∧ c = .quiescing)
      (hcalls : ∀ j, n'.transition? j = if j = i then some n'.lifecycle else n.transition? j)
  | left (i : Nat) (s : Lifecycle) (hi : n.transition? i = some s)
      (hto : n'.lifecycle = .stopped ∨ s = .starting ∧ n'.lifecycle = .running)
      (hcalls : ∀ j, n'.transition? j = if j = i then none else n.transition? j)

/-- One call at most is in a transition, which is the one that the life cycle shows, and without
such a call the life cycle is at rest. -/
structure OneTransition (n : Node σ) : Prop where
  shown : ∀ i s, n.transition? i = some s → n.lifecycle = s
  unique : ∀ i j s s', n.transition? i = some s → n.transition? j = some s' → i = j
  rests : (∀ i, n.transition? i = none) → n.lifecycle = .stopped ∨ n.lifecycle = .running

/-- A node whose life cycle is at rest has no call in a transition. -/
theorem OneTransition.transition?_eq_none {n : Node σ} (hn : n.OneTransition)
    (hrest : n.lifecycle = .stopped ∨ n.lifecycle = .running) (i : Nat) :
    n.transition? i = none := by
  cases hi : n.transition? i with
  | none => rfl
  | some s =>
    obtain ⟨c, -, hc⟩ := Option.bind_eq_some_iff.mp hi
    have hshown := hn.shown i s hi
    rcases Call.transition?_cases hc with rfl | rfl <;> simp [hshown] at hrest

/-- Whatever becomes of the life cycle, there is one transition at most. -/
theorem OneTransition.change {n n' : Node σ} (hn : n.OneTransition) (h : n.LifecycleChange n') :
    n'.OneTransition := by
  cases h with
  | kept hcalls hlifecycle =>
    constructor
    · intro i s hi
      rw [hlifecycle]
      exact hn.shown i s (hcalls i ▸ hi)
    · intro i j s s' hi hj
      exact hn.unique i j s s' (hcalls i ▸ hi) (hcalls j ▸ hj)
    · intro hnone
      rw [hlifecycle]
      exact hn.rests fun i => hcalls i ▸ hnone i
  | entered i c hc hfrom hcalls =>
    have hnone : ∀ j, n.transition? j = none :=
      hn.transition?_eq_none (hfrom.imp And.left And.left)
    have honly : ∀ j s, n'.transition? j = some s → j = i ∧ n'.lifecycle = s := by
      intro j s hj
      rw [hcalls, hnone] at hj
      split at hj
      · next hji => exact ⟨hji, Option.some.inj hj⟩
      · contradiction
    constructor
    · exact fun j s hj => (honly j s hj).2
    · exact fun j j' s s' hj hj' => (honly j s hj).1.trans (honly j' s' hj').1.symm
    · intro hnone'
      have hi := hcalls i
      rw [if_pos rfl, hnone' i] at hi
      contradiction
  | left i s hi hto hcalls =>
    have hnone : ∀ j, n'.transition? j = none := by
      intro j
      rw [hcalls]
      split
      · rfl
      · next hji =>
        cases hj : n.transition? j with
        | none => rfl
        | some s' => exact absurd (hn.unique j i s' s hj hi) hji
    constructor
    · intro j s' hj
      simp [hnone] at hj
    · intro j j' s' s'' hj
      simp [hnone] at hj
    · exact fun _ => hto.imp id And.right

/-- The life cycle stays where it is or goes along an edge. -/
theorem OneTransition.edge {n n' : Node σ} (hn : n.OneTransition) (h : n.LifecycleChange n') :
    n'.lifecycle = n.lifecycle ∨ n.lifecycle.Edge n'.lifecycle := by
  cases h with
  | kept _ hlifecycle => exact .inl hlifecycle
  | entered i c hc hfrom =>
    right
    rcases hfrom with ⟨hfrom, hto, -⟩ | ⟨hfrom, hto, -⟩
    · rw [hfrom, hto]
      exact .start
    · rw [hfrom, hto]
      exact .stop
  | left i s hi hto =>
    right
    obtain ⟨c, -, hc⟩ := Option.bind_eq_some_iff.mp hi
    have hshown := hn.shown i s hi
    rcases hto with hto | ⟨rfl, hto⟩
    · rw [hshown, hto]
      rcases Call.transition?_cases hc with rfl | rfl
      · exact .fail
      · exact .rest
    · rw [hshown, hto]
      exact .run

/-! ## Steps -/

/-- The life cycle is kept by what leaves it alone and sets one call within its transition. -/
theorem lifecycleChange_of_set {n n' : Node σ} {i : Nat} {c c' : Call} (hc : n.calls[i]? = some c)
    (hcalls : n'.calls = n.calls.set i c') (hlifecycle : n'.lifecycle = n.lifecycle)
    (htransition : c'.transition? = c.transition?) : n.LifecycleChange n' :=
  .kept (ofCall?_set_eq _ hc hcalls htransition) hlifecycle

variable [Transport σ] {n n' : Node σ}

/-- What a step of a call makes of the life cycle. -/
theorem lifecycleChange_of_callStep? {i : Nat} {c : Call} (hc : n.calls[i]? = some c)
    (h : n.callStep? i c = some n') : n.LifecycleChange n' := by
  have hlt := (List.getElem?_eq_some_iff.mp hc).1
  have hleft : ∀ {m : Node σ} {s : Lifecycle} {r : Reply}, c.transition? = some s →
      m.calls = n.calls.set i (.done r) →
      (m.lifecycle = .stopped ∨ s = .starting ∧ m.lifecycle = .running) → n.LifecycleChange m :=
    fun htransition hcalls hto =>
      .left i _ (by simp [transition?, ofCall?, hc, htransition]) hto (ofCall?_set _ hc hcalls)
  cases callStepped_of_callStep? h with
  | startClaimed hl =>
    refine .entered i (.starting none) (List.getElem?_set_self hlt) (.inl ⟨hl, rfl, rfl⟩)
      fun j => ?_
    rw [transition?, ofCall?_set _ hc (by rfl)]
    rfl
  | stopClaimed hl =>
    refine .entered i .quiescing (List.getElem?_set_self hlt) (.inr ⟨hl, rfl, rfl⟩) fun j => ?_
    rw [transition?, ofCall?_set _ hc (by rfl)]
    rfl
  | startFailed | aborted | stopDone => exact hleft rfl (by rfl) (.inl rfl)
  | startDone => exact hleft rfl (by rfl) (.inr ⟨rfl, rfl⟩)
  | @subscribed purpose =>
    cases purpose <;> exact lifecycleChange_of_set hc (by rfl) (by rfl) (by rfl)
  | @joined purpose =>
    cases purpose <;> exact lifecycleChange_of_set hc (by rfl) (by rfl) (by rfl)
  | _ => exact lifecycleChange_of_set hc (by rfl) (by rfl) (by rfl)

/-- What happens to the life cycle is one of the three. -/
theorem lifecycleChange_of_happens {allowed : Act σ → Prop} (h : Happens allowed n n') :
    n.LifecycleChange n' := by
  cases h with
  | step task h =>
    cases stepped_of_step? h with
    | attempt => split <;> exact .kept (fun _ => rfl) rfl
    | watcher | openWatch | held | background => exact .kept (fun _ => rfl) rfl
    | call hc hstep => exact lifecycleChange_of_callStep? hc hstep
  | act a h =>
    cases a with
    | order o => exact .kept (ofCall?_append _ (by rfl) (by cases o <;> rfl)) rfl
    | cancelAttempt | watch | cancelWatch | addSlot | move | wait => exact .kept (fun _ => rfl) rfl

/-! ## Runs -/

omit [Transport σ] in
/-- A new node is in no transition. -/
theorem oneTransition_create (t : σ) (cfg : AttemptConfig) (timeout : Nat) :
    (create t cfg timeout).OneTransition := by
  have hnone : ∀ i, (create t cfg timeout).transition? i = none := fun _ => rfl
  exact ⟨fun i s hi => by simp [hnone] at hi, fun i j s s' hi => by simp [hnone] at hi,
    fun _ => .inl rfl⟩

/-- There is one transition at most in every state that a node gets into. -/
theorem OneTransition.reachable {allowed : Act σ → Prop} (hn : n.OneTransition)
    (h : Reachable allowed n n') : n'.OneTransition := by
  induction h with
  | first => exact hn
  | next _ hstep ih => exact ih.change (lifecycleChange_of_happens hstep)

/-- Nobody starts or stops the transport past the service. -/
def ServiceOnly (allowed : Act σ → Prop) : Prop :=
  ¬ allowed (.order .transportStart) ∧ ¬ allowed (.order .transportStop)

/-- No call turns into a direct use of the transport. -/
theorem isDirect_of_callStep? {i : Nat} {c c' : Call} (h : n.callStep? i c = some n')
    (hc' : n'.calls[i]? = some c') (hdirect : c.isDirect = false) : c'.isDirect = false := by
  have hset : ∀ {d : Call}, n'.calls = n.calls.set i d → d.isDirect = false →
      c'.isDirect = false := by
    intro d hcalls hd
    rw [eq_of_calls_set hcalls hc', hd]
  cases callStepped_of_callStep? h with
  | directStartSleeps | directStart | directStopSleeps | directStop => contradiction
  | @subscribed purpose => cases purpose <;> exact hset (by rfl) rfl
  | @joined purpose => cases purpose <;> exact hset (by rfl) rfl
  | _ => exact hset (by rfl) rfl

/-- No call is a direct use of the transport then. -/
theorem isDirect_of_reachable {allowed : Act σ → Prop} (hallowed : ServiceOnly allowed)
    (hn : ∀ c ∈ n.calls, c.isDirect = false) (h : Reachable allowed n n') :
    ∀ c ∈ n'.calls, c.isDirect = false := by
  induction h with
  | first => exact hn
  | @next m m' _ hstep ih =>
    intro c hc
    obtain ⟨i, hi⟩ := List.getElem?_of_mem hc
    rcases call_origin hstep hi with ⟨d, hd, rfl | hcall⟩ | ⟨o, ho, rfl⟩
    · exact ih c (List.mem_of_getElem? hd)
    · exact isDirect_of_callStep? hcall hi (ih d (List.mem_of_getElem? hd))
    · cases o with
      | transportStart => exact absurd ho hallowed.1
      | transportStop => exact absurd ho hallowed.2
      | _ => rfl

end Node

end PeerProbe
