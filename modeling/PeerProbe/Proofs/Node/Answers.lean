import PeerProbe.Proofs.Node.Attempts

/-!
# What the service answers

The answer to a peer that was added is the report of an attempt, and it is given after the attempt
has ended. So an answer that the peer is connected names a finished attempt in the service's own
slot that reported a connection.
-/

namespace PeerProbe

namespace Node

variable {σ : Type}

/-- There is an attempt of the service on a peer. -/
def HasAttempt (n : Node σ) (k : Nat) (peer : PeerRef) (p : Attempt → Prop) : Prop :=
  ∃ a, n.attempts[k]? = some a ∧ a.slot = 0 ∧ a.peer = peer ∧ p a

/-- What a call that adds a peer knows about its attempt. -/
def CallSound (n : Node σ) : Call → Prop
  | .claiming .service slot _ _ => slot = 0
  | .subscribing .service slot _ _ => slot = 0
  | .rechecking k peer => n.HasAttempt k peer fun _ => True
  | .awaiting .service k peer => n.HasAttempt k peer fun _ => True
  | .joining .service k peer answer =>
    n.HasAttempt k peer fun a => ∀ r, answer = some r → a.report = some r
  | .concluding peer answer =>
    ∃ k, n.HasAttempt k peer fun a =>
      a.isFinished = true ∧ ∀ r, answer = some r → a.report = some r
  | .done (.added added) =>
    added.ok = true → ∃ k peer, added.enode = peer.text ∧
      n.HasAttempt k peer fun a => a.isFinished = true ∧ a.isConnected = true
  | _ => True

/-- The attempts of the service go on, or are as they were. -/
def AttemptsLater (n n' : Node σ) : Prop :=
  ∀ (k : Nat) (a : Attempt), n.attempts[k]? = some a → a.slot = 0 →
    ∃ a', n'.attempts[k]? = some a' ∧ a.Later a'

/-- What lasts about an attempt is known of its later states. -/
theorem HasAttempt.later {n n' : Node σ} {k : Nat} {peer : PeerRef} {p : Attempt → Prop}
    (h : n.HasAttempt k peer p) (hlater : n.AttemptsLater n')
    (hp : ∀ a a', a.Later a' → p a → p a') : n'.HasAttempt k peer p := by
  obtain ⟨a, ha, hslot, hpeer, hpa⟩ := h
  obtain ⟨a', ha', hl⟩ := hlater k a ha hslot
  exact ⟨a', ha', hl.slot.trans hslot, hl.peer.trans hpeer, hp a a' hl hpa⟩

/-- A later state of a connected attempt is connected. -/
theorem isConnected_of_later {a a' : Attempt} (h : a.Later a') (hc : a.isConnected = true) :
    a'.isConnected = true := by
  unfold Attempt.isConnected at hc ⊢
  cases hr : a.report with
  | none => simp [hr] at hc
  | some r => simpa [hr, h.report r hr] using hc

/-- What a call knows about its attempt lasts. -/
theorem CallSound.later {n n' : Node σ} {c : Call} (h : n.CallSound c)
    (hlater : n.AttemptsLater n') : n'.CallSound c := by
  cases c with
  | claiming purpose | subscribing purpose => cases purpose <;> exact h
  | rechecking k peer => exact HasAttempt.later h hlater fun _ _ _ => id
  | awaiting purpose k peer =>
    cases purpose with
    | service => exact HasAttempt.later h hlater fun _ _ _ => id
    | direct | command => trivial
  | joining purpose k peer answer =>
    cases purpose with
    | service =>
      exact HasAttempt.later h hlater fun _ _ hl hr r hanswer => hl.report r (hr r hanswer)
    | direct | command => trivial
  | concluding peer answer =>
    obtain ⟨k, h⟩ := h
    exact ⟨k, h.later hlater fun _ _ hl ⟨hf, hr⟩ =>
      ⟨hl.finished hf, fun r hanswer => hl.report r (hr r hanswer)⟩⟩
  | done reply =>
    cases reply with
    | added added =>
      intro hok
      obtain ⟨k, peer, henode, h⟩ := h hok
      exact ⟨k, peer, henode, h.later hlater fun _ _ hl ⟨hf, hc⟩ =>
        ⟨hl.finished hf, isConnected_of_later hl hc⟩⟩
    | _ => trivial
  | _ => trivial

/-! ## Steps -/

variable {n n' : Node σ} {i : Nat}

/-- The answer of the service, once the attempt has ended. -/
theorem callSound_serviceReply {peer : PeerRef} {answer : Option AttemptReport}
    (lifecycle : Lifecycle) (h : n.CallSound (.concluding peer answer)) :
    n.CallSound (.done (serviceReply lifecycle peer answer)) := by
  obtain ⟨k, a, ha, hslot, hpeer, hfinished, hreport⟩ := h
  cases answer with
  | none => trivial
  | some r =>
    cases houtcome : r.outcome with
    | connected p =>
      simp only [serviceReply, houtcome]
      refine fun _ => ⟨k, peer, rfl, a, ha, hslot, hpeer, hfinished, ?_⟩
      simp [Attempt.isConnected, hreport r rfl, houtcome, Outcome.isConnected]
    | failed reason =>
      cases reason with
      | subscription e =>
        simp only [serviceReply, houtcome]
        trivial
      | dropped | timedOut | exchange =>
        simp only [serviceReply, houtcome]
        exact fun hok => by simp [AddedPeer.ok] at hok

/-- An attempt that gives its report as an answer has reported it. -/
theorem report_of_answer? {a : Attempt} {r : AttemptReport} (h : a.answer? = some (some r)) :
    a.report = some r := by
  unfold Attempt.answer? at h
  split at h
  · next r' hr => rw [hr, Option.some.inj (Option.some.inj h)]
  · split at h <;> simp at h

/-- The reply to a direct user is no answer of the service. -/
theorem callSound_directReply (answer : Option AttemptReport) :
    n.CallSound (.done (directReply answer)) := by
  cases answer <;> trivial

variable [Transport σ]

/-- A step of a call leaves it knowing what it says about its attempt. -/
theorem callSound_of_callStep? {c : Call} (hc : n.CallSound c)
    (h : n.callStep? i c = some n') :
    ∃ c', n'.calls = n.calls.set i c' ∧ n'.CallSound c' := by
  cases callStepped_of_callStep? h with
  | addRunning => exact ⟨_, rfl, rfl⟩
  | @claimRefused purpose => exact ⟨_, rfl, by cases purpose <;> trivial⟩
  | @claimed purpose => exact ⟨_, rfl, by cases purpose <;> exact hc⟩
  | @subscribed purpose slot peer timeout =>
    refine ⟨_, rfl, ?_⟩
    cases purpose with
    | service => exact ⟨_, List.getElem?_concat_length .., hc, rfl, trivial⟩
    | direct | command => trivial
  | recheckRunning => exact ⟨_, rfl, hc⟩
  | answeredAtOnce => exact ⟨_, rfl, callSound_directReply _⟩
  | @answered purpose k peer a answer hpurpose ha hanswer =>
    refine ⟨_, rfl, ?_⟩
    cases purpose with
    | service =>
      obtain ⟨b, hb, hslot, hpeer, -⟩ := hc
      obtain rfl := Option.some.inj (ha.symm.trans hb)
      exact ⟨a, ha, hslot, hpeer, fun r hr => report_of_answer? (hr ▸ hanswer)⟩
    | direct | command => trivial
  | @joined purpose k peer answer hfinished =>
    cases purpose with
    | service =>
      obtain ⟨a, ha, hslot, hpeer, hreport⟩ := hc
      simp only [attemptFinished, ha, Option.map_some, Option.getD_some] at hfinished
      exact ⟨_, rfl, k, a, ha, hslot, hpeer, hfinished, hreport⟩
    | direct => exact ⟨_, rfl, callSound_directReply answer⟩
    | command => exact ⟨_, rfl, trivial⟩
  | concluded => exact ⟨_, rfl, callSound_serviceReply n.lifecycle hc⟩
  | _ => exact ⟨_, rfl, trivial⟩

/-! ## Runs -/

/-- The service's own attempts are sound, and every call knows what it says about one. -/
structure ServiceSound (n : Node σ) (cfg : AttemptConfig) : Prop where
  attempts : n.AttemptsSound 0 cfg
  calls : ∀ c ∈ n.calls, n.CallSound c

omit [Transport σ] in
/-- A new node is sound for its settings without disconnection. -/
theorem serviceSound_create (t : σ) (cfg : AttemptConfig) (timeout : Nat) :
    (create t cfg timeout).ServiceSound { cfg with disconnect := false } :=
  ⟨⟨rfl, by simp [create]⟩, by simp [create]⟩

/-- Whatever happens, the attempts of the service go on, or are as they were. -/
theorem AttemptsSound.attemptsLater {allowed : Act σ → Prop} {cfg : AttemptConfig}
    (hn : n.AttemptsSound 0 cfg) (h : Happens allowed n n') : n.AttemptsLater n' := by
  intro k a ha hslot
  obtain ⟨a', ha', hfollows⟩ := (attemptsChange_of_happens h).exists_follows ha
  exact ⟨a', ha', hfollows.later (hn.sound k a ha hslot)⟩

/-- Whatever happens, the service stays sound. -/
theorem ServiceSound.happens {allowed : Act σ → Prop} {cfg : AttemptConfig}
    (hn : n.ServiceSound cfg) (h : Happens allowed n n') : n'.ServiceSound cfg := by
  have hlater : n.AttemptsLater n' := hn.attempts.attemptsLater h
  have hold : ∀ c ∈ n.calls, n'.CallSound c := fun c hc => (hn.calls c hc).later hlater
  refine ⟨hn.attempts.happens h, ?_⟩
  cases h with
  | act a =>
    cases a with
    | order o =>
      intro c hc
      rcases List.mem_append.mp hc with hc | hc
      · exact hold c hc
      · obtain rfl := List.mem_singleton.mp hc
        cases o <;> trivial
    | watch | cancelWatch | addSlot | cancelAttempt | move | wait => exact hold
  | step task h =>
    cases stepped_of_step? h with
    | attempt => exact fun c hc => hold c (by split at hc <;> exact hc)
    | watcher | openWatch | held | background => exact hold
    | @call j c _ hj hstep =>
      obtain ⟨d, hcalls, hd⟩ := callSound_of_callStep? (hn.calls c (List.mem_of_getElem? hj)) hstep
      intro c' hc'
      rw [hcalls] at hc'
      rcases List.mem_or_eq_of_mem_set hc' with hc' | rfl
      · exact hold c' hc'
      · exact hd

/-- A sound service is sound in every state that its node gets into. -/
theorem ServiceSound.reachable {allowed : Act σ → Prop} {cfg : AttemptConfig}
    (hn : n.ServiceSound cfg) (h : Reachable allowed n n') : n'.ServiceSound cfg := by
  induction h with
  | first => exact hn
  | next _ hstep ih => exact ih.happens hstep

end Node

end PeerProbe
