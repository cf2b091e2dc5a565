import PeerProbe.Proofs.Attempt.Acts
import PeerProbe.Proofs.Node.Lifecycle
import PeerProbe.Proofs.Node.Run
import PeerProbe.Proofs.Transport.InProcess

/-!
# Starts, stops and the cached identity

A run of a node is recorded by the starts and stops of its transport and by the identities that
starts yield. The record says whether the transport is up and under which identity. The life cycle,
the cache and the transport follow it: each is set in a step of its own, and at every one of these
steps the call that is in a transition knows how the others stand.
-/

namespace PeerProbe

/-- What happens to the power of a transport: a start, which may fail, the identity that it yields,
and a stop. -/
inductive PowerAct where
  | started
  | startFailed
  | identified (identity : Identity)
  | stopped
  deriving DecidableEq

/-- Whether a start of the transport took place. -/
def PowerAct.isStart : PowerAct → Bool
  | .started | .startFailed => true
  | _ => false

/-- A transport that is off, or on with its identity unknown or known. -/
inductive Power where
  | off
  | on
  | known (identity : Identity)
  deriving DecidableEq

/-- Power goes on and off by turns, and an identity is learnt in between. -/
def Power.next? : Power → PowerAct → Option Power
  | .off, .started => some .on
  | .off, .startFailed => some .off
  | .on, .identified identity => some (.known identity)
  | .on, .stopped | .known _, .stopped => some .off
  | _, _ => none

/-- The power after what is recorded, if it went by turns. -/
def Power.after? (p : Power) (record : List PowerAct) : Option Power := record.foldlM Power.next? p

namespace Power

/-- What is recorded last decides. -/
theorem after?_concat (p : Power) (record : List PowerAct) (a : PowerAct) :
    p.after? (record ++ [a]) = (p.after? record).bind (·.next? a) := by
  simp [after?, List.foldlM_append]

/-- What is recorded in between leaves its power to the rest. -/
theorem after?_append {p r : Power} {record more : List PowerAct}
    (h : p.after? (record ++ more) = some r) :
    ∃ q, p.after? record = some q ∧ q.after? more = some r := by
  rw [after?, List.foldlM_append] at h
  exact Option.bind_eq_some_iff.mp h

/-- What is recorded first is done first. -/
theorem after?_cons (p : Power) (a : PowerAct) (record : List PowerAct) :
    p.after? (a :: record) = (p.next? a).bind (·.after? record) :=
  List.foldlM_cons

/-- Power is known by an identity that was yielded after a start. -/
theorem next?_eq_known {p : Power} {a : PowerAct} {identity : Identity}
    (h : p.next? a = some (.known identity)) : p = .on ∧ a = .identified identity := by
  cases p <;> cases a <;> simp_all [next?]

/-- Power is on by a start. -/
theorem next?_eq_on {p : Power} {a : PowerAct} (h : p.next? a = some .on) : a = .started := by
  cases p <;> cases a <;> simp_all [next?]

/-- A start finds the power off. -/
theorem eq_off_of_next? {p q : Power} {a : PowerAct} (h : p.next? a = some q)
    (ha : a.isStart = true) : p = .off := by
  cases p <;> cases a <;> simp_all [next?, PowerAct.isStart]

/-- A known identity is the one that the last start has yielded. -/
theorem eq_append_of_known {record : List PowerAct} {identity : Identity}
    (h : Power.off.after? record = some (.known identity)) :
    ∃ before, record = before ++ [.started, .identified identity] := by
  rcases List.eq_nil_or_concat record with rfl | ⟨record, a, rfl⟩
  · exact absurd (Option.some.inj h) nofun
  · rw [List.concat_eq_append, after?_concat] at h
    obtain ⟨p, hp, hnext⟩ := Option.bind_eq_some_iff.mp h
    obtain ⟨rfl, rfl⟩ := next?_eq_known hnext
    rcases List.eq_nil_or_concat record with rfl | ⟨before, b, rfl⟩
    · exact absurd (Option.some.inj hp) nofun
    · rw [List.concat_eq_append, after?_concat] at hp
      obtain ⟨q, -, hnext'⟩ := Option.bind_eq_some_iff.mp hp
      obtain rfl := next?_eq_on hnext'
      exact ⟨before, by simp⟩

/-- Nothing but a start happens while the power is off. -/
theorem eq_nil_of_off {r : Power} {record : List PowerAct} (h : Power.off.after? record = some r)
    (hstart : ∀ a ∈ record, a.isStart = false) : record = [] := by
  cases record with
  | nil => rfl
  | cons a rest =>
    rw [after?_cons] at h
    obtain ⟨q, hq, -⟩ := Option.bind_eq_some_iff.mp h
    have ha := hstart a List.mem_cons_self
    cases a <;> contradiction

/-- Without another start, power that is on goes off by one stop. -/
theorem count_stopped_of_on {p : Power} {record : List PowerAct} (hp : p ≠ .off)
    (h : p.after? record = some .off) (hstart : ∀ a ∈ record, a.isStart = false) :
    record.count .stopped = 1 := by
  induction record generalizing p with
  | nil => exact absurd (Option.some.inj h) hp
  | cons a rest ih =>
    rw [after?_cons] at h
    obtain ⟨q, hq, hrest⟩ := Option.bind_eq_some_iff.mp h
    have hstart' : ∀ x ∈ rest, x.isStart = false := fun x hx => hstart x (List.mem_cons_of_mem a hx)
    cases a with
    | started | startFailed => exact absurd (hstart _ List.mem_cons_self) nofun
    | identified identity =>
      have hne : PowerAct.identified identity ≠ .stopped := nofun
      have hq' : q ≠ .off := by
        rintro rfl
        cases p <;> simp [next?] at hq
      rw [List.count_cons_of_ne hne]
      exact ih hq' hrest hstart'
    | stopped =>
      have hq' : q = .off := by cases p <;> simp_all [next?]
      rw [hq'] at hrest
      rw [eq_nil_of_off hrest hstart']
      rfl

/-- Between a start that succeeds and the next start there is one stop. -/
theorem count_stopped_between_starts {r : Power} {before between behind : List PowerAct}
    {a : PowerAct}
    (h : Power.off.after? (before ++ .started :: (between ++ a :: behind)) = some r)
    (ha : a.isStart = true) (hbetween : ∀ x ∈ between, x.isStart = false) :
    between.count .stopped = 1 := by
  obtain ⟨p, -, hp⟩ := after?_append h
  rw [after?_cons] at hp
  obtain ⟨q, hq, hrest⟩ := Option.bind_eq_some_iff.mp hp
  obtain rfl := eq_off_of_next? hq rfl
  obtain rfl := Option.some.inj hq
  obtain ⟨p', hp', hbehind⟩ := after?_append hrest
  rw [after?_cons] at hbehind
  obtain ⟨q', hq', -⟩ := Option.bind_eq_some_iff.mp hbehind
  obtain rfl := eq_off_of_next? hq' ha
  have hon : Power.on ≠ .off := nofun
  exact count_stopped_of_on hon hp' hbetween

end Power

namespace Node

variable {σ : Type}

/-- Whether a wait is over is decided by the clock. -/
instance (n : Node σ) (wake : Option Nat) (delay : Nat) : Decidable (n.Rested wake delay) :=
  match wake with
  | none => inferInstanceAs (Decidable (delay = 0))
  | some w => inferInstanceAs (Decidable (w ≤ n.now))

variable [Transport σ]

/-- What a step of a call does to the power of the transport. -/
def callPower (n : Node σ) : Call → List PowerAct
  | .starting wake | .transportStart wake =>
    if n.Rested wake (Transport.startDelay n.transport) then
      match (Transport.start n.transport).1 with
      | .ok _ => [.started]
      | .error _ => [.startFailed]
    else []
  | .identifying =>
    match Transport.selfRef? n.transport, Transport.nodeInfo? n.transport with
    | some selfRef, some info => [.identified ⟨selfRef, info⟩]
    | _, _ => []
  | .aborting wake | .stopping wake | .transportStop wake =>
    if n.Rested wake (Transport.stopDelay n.transport) then [.stopped] else []
  | _ => []

/-- What a step of a task does to it. -/
def power (n : Node σ) : Task → List PowerAct
  | .call i => (n.calls[i]?.map n.callPower).getD []
  | _ => []

/-- What a task does to a transport between two states of it, by its record. -/
inductive PowerChange (t t' : σ) : List PowerAct → Prop where
  | started (h : Transport.start t = (.ok (), t')) : PowerChange t t' [.started]
  | startFailed (e : TransportError) (h : Transport.start t = (.error e, t')) :
      PowerChange t t' [.startFailed]
  | stopped (h : t' = Transport.stop t) : PowerChange t t' [.stopped]
  | identified (selfRef : PeerRef) (info : NodeInfo) (hself : Transport.selfRef? t = some selfRef)
      (hinfo : Transport.nodeInfo? t = some info) (h : t' = t) :
      PowerChange t t' [.identified ⟨selfRef, info⟩]
  | none (h : Transport.Uses t t') : PowerChange t t' []

section Calls

variable {n n' : Node σ} {i : Nat} {wake : Option Nat}

/-- A start that succeeds is recorded. -/
theorem callPower_of_start_ok {t : σ} (hrest : n.Rested wake (Transport.startDelay n.transport))
    (ht : Transport.start n.transport = (.ok (), t)) :
    n.callPower (.starting wake) = [.started] := by
  apply (if_pos hrest).trans
  rw [ht]

/-- A start that fails is recorded. -/
theorem callPower_of_start_error {e : TransportError} {t : σ}
    (hrest : n.Rested wake (Transport.startDelay n.transport))
    (ht : Transport.start n.transport = (.error e, t)) :
    n.callPower (.starting wake) = [.startFailed] := by
  apply (if_pos hrest).trans
  rw [ht]

/-- A stop is recorded. -/
theorem callPower_of_stop (hrest : n.Rested wake (Transport.stopDelay n.transport)) :
    n.callPower (.stopping wake) = [.stopped] := if_pos hrest

/-- Nothing is recorded before a start that takes its time. -/
theorem callPower_of_startDelay (hdelay : Transport.startDelay n.transport ≠ 0) :
    n.callPower (.starting none) = [] := if_neg hdelay

/-- Nothing is recorded before a stop that takes its time. -/
theorem callPower_of_stopDelay (hdelay : Transport.stopDelay n.transport ≠ 0) :
    n.callPower (.stopping none) = [] := if_neg hdelay

/-- An identity is recorded. -/
theorem callPower_of_identity {selfRef : PeerRef} {info : NodeInfo}
    (hself : Transport.selfRef? n.transport = some selfRef)
    (hinfo : Transport.nodeInfo? n.transport = some info) :
    n.callPower .identifying = [.identified ⟨selfRef, info⟩] := by
  simp [callPower, hself, hinfo]

/-- Nothing is recorded without one. -/
theorem callPower_of_no_identity
    (hid : Transport.selfRef? n.transport = none ∨ Transport.nodeInfo? n.transport = none) :
    n.callPower .identifying = [] := by
  unfold callPower
  rcases hid with hid | hid <;> simp [hid]

/-- What a step of a call records is what it does. -/
theorem powerChange_of_callStep? {c : Call} (h : n.callStep? i c = some n') :
    PowerChange n.transport n'.transport (n.callPower c) := by
  have hstart : ∀ {wake : Option Nat} {t : σ} {r : Except TransportError Unit},
      n.Rested wake (Transport.startDelay n.transport) → Transport.start n.transport = (r, t) →
        PowerChange n.transport t (n.callPower (.starting wake)) := by
    intro wake t r hrest ht
    cases r with
    | ok u => exact callPower_of_start_ok hrest ht ▸ .started ht
    | error e => exact callPower_of_start_error hrest ht ▸ .startFailed e ht
  have hstop : ∀ {wake : Option Nat}, n.Rested wake (Transport.stopDelay n.transport) →
      PowerChange n.transport (Transport.stop n.transport) (n.callPower (.stopping wake)) :=
    fun hrest => callPower_of_stop hrest ▸ .stopped rfl
  have hnone : ∀ {d : Call}, n.callPower d = [] →
      PowerChange n.transport n.transport (n.callPower d) := fun hd => hd ▸ .none .none
  cases callStepped_of_callStep? h with
  | transportUp hrest ht | transportFailed hrest ht => exact hstart hrest ht
  | directStart hrest => exact hstart hrest rfl
  | abortDown hrest | transportDown hrest | directStop hrest => exact hstop hrest
  | startSleeps hdelay | directStartSleeps hdelay => exact hnone (callPower_of_startDelay hdelay)
  | abortSleeps hdelay | stopSleeps hdelay | directStopSleeps hdelay =>
    exact hnone (callPower_of_stopDelay hdelay)
  | identified hself hinfo =>
    exact callPower_of_identity hself hinfo ▸ .identified _ _ hself hinfo rfl
  | unidentified hid => exact hnone (callPower_of_no_identity hid)
  | removed => exact .none (Transport.Use.remove _).uses
  | subscribed => exact .none (Transport.Use.withFeed _).uses
  | @joined purpose => cases purpose <;> exact hnone rfl
  | _ => exact hnone rfl

/-- What a step of a task records is what it does. -/
theorem powerChange_of_step? {task : Task} (h : n.step? task = some n') :
    PowerChange n.transport n'.transport (n.power task) := by
  cases stepped_of_step? h with
  | attempt _ _ hs =>
    have huses := Attempt.uses_of_step? hs
    exact .none (by split <;> exact huses)
  | watcher _ hr => exact .none (Attempt.uses_of_watcherStep? hr)
  | openWatch => exact .none (Transport.Use.withFeed _).uses
  | held _ hr => exact .none (HeldPeer.uses_of_step? hr)
  | background ht => exact .none (Transport.Use.background ht).uses
  | @call j c _ hc hstep =>
    have hpower : n.power (.call j) = n.callPower c := by simp [power, hc]
    exact hpower ▸ powerChange_of_callStep? hstep

end Calls

/-- What lasts of a transport is still true whatever happens to its node. -/
theorem lasts_of_happens {p : σ → Prop} (hp : Transport.Lasts p) {allowed : Act σ → Prop}
    {n n' : Node σ} (h : Happens allowed n n') (hn : p n.transport) : p n'.transport := by
  cases h with
  | step task h =>
    have hchange := powerChange_of_step? h
    generalize n.power task = acts at hchange
    cases hchange with
    | started h | startFailed _ h =>
      have hstart := hp.start _ hn
      rwa [h] at hstart
    | stopped h => exact h ▸ hp.stop _ hn
    | identified _ _ _ _ h => exact h ▸ hn
    | none h => exact hp.uses hn h
  | act a =>
    cases a with
    | move m => exact hp.use _ _ hn (.move n.now m)
    | order | watch | cancelWatch | cancelAttempt | addSlot | wait => exact hn

/-- What lasts of a transport is true in every state that its node gets into. -/
theorem lasts_of_reachable {p : σ → Prop} (hp : Transport.Lasts p) {allowed : Act σ → Prop}
    {n n' : Node σ} (h : Reachable allowed n n') (hn : p n.transport) : p n'.transport := by
  induction h with
  | first => exact hn
  | next _ hstep ih => exact lasts_of_happens hp hstep ih

/-- The states that a node gets into from a first one, with the record of the transport's power. -/
inductive Recorded (allowed : Act σ → Prop) (first : Node σ) : List PowerAct → Node σ → Prop where
  | first : Recorded allowed first [] first
  | step {record : List PowerAct} {n n' : Node σ} (task : Task) :
      Recorded allowed first record n → n.step? task = some n' →
        Recorded allowed first (record ++ n.power task) n'
  | act {record : List PowerAct} {n : Node σ} (a : Act σ) :
      Recorded allowed first record n → allowed a → Recorded allowed first record (n.act a)

/-- Every state that a node gets into has a record. -/
theorem exists_recorded_iff {allowed : Act σ → Prop} {first n : Node σ} :
    (∃ record, Recorded allowed first record n) ↔ Reachable allowed first n := by
  constructor
  · rintro ⟨record, h⟩
    induction h with
    | first => exact .first
    | step task _ hstep ih => exact .next ih (.step task hstep)
    | act a _ ha ih => exact .next ih (.act _ a ha)
  · intro h
    induction h with
    | first => exact ⟨[], .first⟩
    | next _ hstep ih =>
      obtain ⟨record, h⟩ := ih
      cases hstep with
      | step task hstep => exact ⟨_, .step task h hstep⟩
      | act a ha => exact ⟨_, .act a h ha⟩

/-! ## What the call in a transition knows -/

/-- A transport is off, by the record and by itself. -/
structure IsOff (t : σ) (record : List PowerAct) : Prop where
  off : Power.off.after? record = some .off
  stopped : Transport.isRunning t = false

/-- A transport is on under an identity. -/
def IsKnown (record : List PowerAct) (identity : Identity) : Prop :=
  Power.off.after? record = some (.known identity)

/-- How the record, the transport and the cache stand at a call. A call that is in no transition
knows nothing about them. -/
def Stands (n : Node σ) (record : List PowerAct) : Call → Prop
  | .starting _ | .startFailed _ | .aborted | .stopDone =>
    IsOff n.transport record ∧ n.identity = none
  | .identifying | .aborting _ => Power.off.after? record = some .on ∧ n.identity = none
  | .caching identity => IsKnown record identity ∧ n.identity = none
  | .startDone identity => IsKnown record identity ∧ n.identity = some identity
  | .quiescing | .stopping _ =>
    ∃ identity, IsKnown record identity ∧ n.identity = some identity
  | .clearing => IsOff n.transport record
  | _ => True

/-- How they stand while no call is in a transition. -/
def Rests (n : Node σ) (record : List PowerAct) : Prop :=
  match n.lifecycle with
  | .stopped => IsOff n.transport record ∧ n.identity = none
  | .running => ∃ identity, IsKnown record identity ∧ n.identity = some identity
  | .starting | .stopping => True

/-- Record, transport and cache agree with the life cycle and with the call that is in a
transition. -/
structure Agrees (n : Node σ) (record : List PowerAct) : Prop where
  one : n.OneTransition
  calls : ∀ (i : Nat) (c : Call), n.calls[i]? = some c → n.Stands record c
  rests : n.Rests record

variable {n n' : Node σ} {record record' : List PowerAct}

omit [Transport σ] in
/-- The call that has claimed a transition is the only one. -/
theorem OneTransition.transition?_eq_none_of_ne (hn : n.OneTransition) {i j : Nat} {c d : Call}
    {s : Lifecycle} (hi : n.calls[i]? = some c) (hc : c.transition? = some s)
    (hj : n.calls[j]? = some d) (hij : i ≠ j) : d.transition? = none := by
  cases hd : d.transition? with
  | none => rfl
  | some s' =>
    have hi' : n.transition? i = some s := by simp [transition?, ofCall?, hi, hc]
    have hj' : n.transition? j = some s' := by simp [transition?, ofCall?, hj, hd]
    exact absurd (hn.unique i j s s' hi' hj') hij

/-- A call that is in no transition stands anyhow. -/
theorem stands_of_transition? {c : Call} (h : c.transition? = none) : n.Stands record c := by
  cases c with
  | starting | startFailed | identifying | aborting | aborted | caching | startDone | quiescing
  | stopping | clearing | stopDone => contradiction
  | _ => trivial

/-- Two states with the same cache, in both of which the transport runs, or in neither. -/
structure SamePower (n n' : Node σ) : Prop where
  identity : n'.identity = n.identity
  running : Transport.isRunning n'.transport = Transport.isRunning n.transport

/-- What leaves cache and power alone leaves the transport off. -/
theorem SamePower.isOff (h : n.SamePower n') (hoff : IsOff n.transport record) :
    IsOff n'.transport record :=
  ⟨hoff.off, h.running.trans hoff.stopped⟩

/-- A call stands as before. -/
theorem SamePower.stands (h : n.SamePower n') {c : Call} (hc : n.Stands record c) :
    n'.Stands record c := by
  cases c with
  | starting | startFailed | aborted | stopDone =>
    exact ⟨h.isOff hc.1, h.identity.trans hc.2⟩
  | identifying | aborting | caching | startDone => exact ⟨hc.1, h.identity.trans hc.2⟩
  | quiescing | stopping =>
    obtain ⟨identity, hknown, hidentity⟩ := hc
    exact ⟨identity, hknown, h.identity.trans hidentity⟩
  | clearing => exact h.isOff hc
  | _ => trivial

/-- The rest is as before. -/
theorem SamePower.rests (h : n.SamePower n') (hl : n'.lifecycle = n.lifecycle)
    (hn : n.Rests record) : n'.Rests record := by
  unfold Rests at hn ⊢
  rw [hl]
  generalize n.lifecycle = l at hn ⊢
  cases l with
  | stopped => exact ⟨h.isOff hn.1, h.identity.trans hn.2⟩
  | running =>
    obtain ⟨identity, hknown, hidentity⟩ := hn
    exact ⟨identity, hknown, h.identity.trans hidentity⟩
  | starting | stopping => trivial

/-! ## Steps -/

/-- While a call is in a transition the life cycle does not rest. -/
theorem rests_of_transition? (hone : n.OneTransition) {i : Nat} {c : Call} {s : Lifecycle}
    (hi : n.calls[i]? = some c) (hc : c.transition? = some s) : n.Rests record := by
  have hl : n.lifecycle = s := hone.shown i s (by simp [transition?, ofCall?, hi, hc])
  unfold Rests
  rcases Call.transition?_cases hc with rfl | rfl
  · rw [hl]
    trivial
  · rw [hl]
    trivial

/-- What leaves calls, cache and power alone keeps all in agreement. -/
theorem Agrees.aside (hn : n.Agrees record) (hone : n'.OneTransition)
    (hcalls : ∀ (i : Nat) (c : Call), n'.calls[i]? = some c →
      n.calls[i]? = some c ∨ c.transition? = none)
    (hl : n'.lifecycle = n.lifecycle) (h : n.SamePower n') : n'.Agrees record := by
  refine ⟨hone, fun i c hc => ?_, h.rests hl hn.rests⟩
  rcases hcalls i c hc with hc | hc
  · exact h.stands (hn.calls i c hc)
  · exact stands_of_transition? hc

/-- A step of a call keeps all in agreement if this call, the others and the rest agree behind
it. -/
theorem agrees_of_set (hone : n'.OneTransition) {i : Nat} {c' : Call}
    (hcalls : n'.calls = n.calls.set i c') (hc' : n'.Stands record' c')
    (hothers : ∀ (j : Nat) (d : Call), i ≠ j → n.calls[j]? = some d → n'.Stands record' d)
    (hrests : n'.Rests record') : n'.Agrees record' := by
  refine ⟨hone, fun j d hd => ?_, hrests⟩
  by_cases hj : i = j
  · subst hj
    rw [eq_of_calls_set hcalls hd]
    exact hc'
  · rw [hcalls, List.getElem?_set_ne hj] at hd
    exact hothers j d hj hd

section Calls

variable {i : Nat} {c c' : Call}

/-- A step outside of transitions that leaves cache and power alone keeps all in agreement. -/
theorem Agrees.outside (hn : n.Agrees record) (hone : n'.OneTransition)
    (hcalls : n'.calls = n.calls.set i c') (hc' : c'.transition? = none)
    (hl : n'.lifecycle = n.lifecycle) (h : n.SamePower n') : n'.Agrees record :=
  agrees_of_set hone hcalls (stands_of_transition? hc')
    (fun j d _ hd => h.stands (hn.calls j d hd)) (h.rests hl hn.rests)

/-- A step that claims a transition and leaves cache and power alone keeps all in agreement. -/
theorem Agrees.enter (c' : Call) (hn : n.Agrees record) (hone : n'.OneTransition)
    (hi : i < n.calls.length) {s : Lifecycle} (hcalls : n'.calls = n.calls.set i c')
    (hs : c'.transition? = some s) (hc' : n'.Stands record c') (h : n.SamePower n') :
    n'.Agrees record :=
  agrees_of_set hone hcalls hc' (fun j d _ hd => h.stands (hn.calls j d hd))
    (rests_of_transition? hone (by rw [hcalls, List.getElem?_set_self hi]) hs)

/-- A step within a transition keeps all in agreement if the call knows what it has done. -/
theorem Agrees.inside (c' : Call) (hn : n.Agrees record) (hone : n'.OneTransition)
    (hc : n.calls[i]? = some c) {s s' : Lifecycle} (hs : c.transition? = some s)
    (hcalls : n'.calls = n.calls.set i c') (hs' : c'.transition? = some s')
    (hc' : n'.Stands record' c') : n'.Agrees record' := by
  have hlt := (List.getElem?_eq_some_iff.mp hc).1
  refine agrees_of_set hone hcalls hc' (fun j d hj hd => ?_)
    (rests_of_transition? hone (by rw [hcalls, List.getElem?_set_self hlt]) hs')
  exact stands_of_transition? (hn.one.transition?_eq_none_of_ne hc hs hd hj)

/-- The end of a transition keeps all in agreement if they are at rest behind it. -/
theorem Agrees.leave (hn : n.Agrees record) (hone : n'.OneTransition) (hc : n.calls[i]? = some c)
    {s : Lifecycle} (hs : c.transition? = some s) {r : Reply}
    (hcalls : n'.calls = n.calls.set i (.done r)) (hrests : n'.Rests record) : n'.Agrees record :=
  agrees_of_set hone hcalls trivial
    (fun _ _ hj hd => stands_of_transition? (hn.one.transition?_eq_none_of_ne hc hs hd hj)) hrests

/-- A step of a call of the service keeps all in agreement. -/
theorem Agrees.callStep (hσ : Transport.Switched σ) (hn : n.Agrees record)
    (hc : n.calls[i]? = some c) (hdirect : c.isDirect = false)
    (h : n.callStep? i c = some n') : n'.Agrees (record ++ n.callPower c) := by
  have hlt := (List.getElem?_eq_some_iff.mp hc).1
  have hone := hn.one.change (lifecycleChange_of_callStep? hc h)
  have hstands := hn.calls i c hc
  have hrests := hn.rests
  have hnil : n.callPower c = [] → n'.Agrees record → n'.Agrees (record ++ n.callPower c) := by
    intro hpower hagrees
    rwa [hpower, List.append_nil]
  cases callStepped_of_callStep? h with
  -- starting the node
  | startClaimed hl =>
    simp only [Rests, hl] at hrests
    exact hnil rfl (hn.enter (.starting none) hone hlt (by rfl) rfl hrests ⟨rfl, rfl⟩)
  | startSleeps hdelay =>
    exact hnil (callPower_of_startDelay hdelay)
      (hn.inside (.starting _) hone hc rfl (by rfl) rfl hstands)
  | transportUp hrest ht =>
    rw [callPower_of_start_ok hrest ht]
    refine hn.inside .identifying hone hc rfl (by rfl) rfl ⟨?_, hstands.2⟩
    rw [Power.after?_concat, hstands.1.off]
    rfl
  | @transportFailed wake e t hrest ht =>
    rw [callPower_of_start_error hrest ht]
    have hdown : Transport.isRunning t = false := hσ.start _ _ _ hstands.1.stopped ht
    refine hn.inside (.startFailed e) hone hc rfl (by rfl) rfl ⟨⟨?_, hdown⟩, hstands.2⟩
    rw [Power.after?_concat, hstands.1.off]
    rfl
  | startFailed e => exact hnil rfl (hn.leave hone hc rfl (by rfl) hstands)
  | identified hself hinfo =>
    rw [callPower_of_identity hself hinfo]
    refine hn.inside (.caching _) hone hc rfl (by rfl) rfl ⟨?_, hstands.2⟩
    rw [IsKnown, Power.after?_concat, hstands.1]
    rfl
  | unidentified hid =>
    exact hnil (callPower_of_no_identity hid)
      (hn.inside (.aborting none) hone hc rfl (by rfl) rfl hstands)
  | abortSleeps hdelay =>
    exact hnil (callPower_of_stopDelay hdelay)
      (hn.inside (.aborting _) hone hc rfl (by rfl) rfl hstands)
  | @abortDown wake hrest =>
    have hpower : n.callPower (.aborting wake) = [.stopped] := callPower_of_stop hrest
    rw [hpower]
    refine hn.inside .aborted hone hc rfl (by rfl) rfl ⟨⟨?_, hσ.stop _⟩, hstands.2⟩
    rw [Power.after?_concat, hstands.1]
    rfl
  | aborted => exact hnil rfl (hn.leave hone hc rfl (by rfl) hstands)
  | caching identity =>
    exact hnil rfl (hn.inside (.startDone identity) hone hc rfl (by rfl) rfl ⟨hstands.1, rfl⟩)
  | startDone identity => exact hnil rfl (hn.leave hone hc rfl (by rfl) ⟨identity, hstands⟩)
  -- stopping the node
  | stopClaimed hl =>
    simp only [Rests, hl] at hrests
    exact hnil rfl (hn.enter .quiescing hone hlt (by rfl) rfl hrests ⟨rfl, rfl⟩)
  | quiet => exact hnil rfl (hn.inside (.stopping none) hone hc rfl (by rfl) rfl hstands)
  | stopSleeps hdelay =>
    exact hnil (callPower_of_stopDelay hdelay)
      (hn.inside (.stopping _) hone hc rfl (by rfl) rfl hstands)
  | transportDown hrest =>
    obtain ⟨identity, hknown, -⟩ := hstands
    rw [callPower_of_stop hrest]
    refine hn.inside .clearing hone hc rfl (by rfl) rfl ⟨?_, hσ.stop _⟩
    rw [Power.after?_concat, hknown]
    rfl
  | clearing =>
    exact hnil rfl (hn.inside .stopDone hone hc rfl (by rfl) rfl ⟨hstands, rfl⟩)
  | stopDone => exact hnil rfl (hn.leave hone hc rfl (by rfl) hstands)
  -- past the service
  | directStartSleeps | directStart | directStopSleeps | directStop => contradiction
  -- apart from the life cycle
  | removed =>
    exact hnil rfl (hn.outside hone (by rfl) (by rfl) (by rfl) ⟨rfl, hσ.use _ _ (.remove _)⟩)
  | @subscribed purpose =>
    refine hnil rfl (hn.outside hone (by rfl) ?_ (by rfl) ⟨rfl, hσ.use _ _ (.withFeed _)⟩)
    split <;> rfl
  | @joined purpose =>
    cases purpose <;>
      exact hnil rfl (hn.outside hone (by rfl) (by rfl) (by rfl) ⟨rfl, rfl⟩)
  | _ => exact hnil rfl (hn.outside hone (by rfl) (by rfl) (by rfl) ⟨rfl, rfl⟩)

end Calls

/-! ## Runs -/

/-- A new node on a transport that does not run is in agreement with the empty record. -/
theorem agrees_create {t : σ} (ht : Transport.isRunning t = false) (cfg : AttemptConfig)
    (timeout : Nat) : (create t cfg timeout).Agrees [] :=
  ⟨oneTransition_create t cfg timeout, by simp [create], ⟨rfl, ht⟩, rfl⟩

/-- A step of a task keeps all in agreement. -/
theorem Agrees.step (hσ : Transport.Switched σ) (hn : n.Agrees record)
    (hdirect : ∀ c ∈ n.calls, c.isDirect = false) {task : Task} (h : n.step? task = some n') :
    n'.Agrees (record ++ n.power task) := by
  have hhappens : Happens (fun _ => True) n n' := .step task h
  have hone := hn.one.change (lifecycleChange_of_happens hhappens)
  have haside : n.power task = [] → n'.calls = n.calls → n'.lifecycle = n.lifecycle →
      n.SamePower n' → n'.Agrees (record ++ n.power task) := by
    intro hpower hcalls hl hsame
    rw [hpower, List.append_nil]
    exact hn.aside hone (fun i c hc => .inl (hcalls ▸ hc)) hl hsame
  cases stepped_of_step? h with
  | attempt ha hcfg hs =>
    have hrunning := hσ.isRunning_uses (Attempt.uses_of_step? hs)
    refine haside rfl ?_ ?_ ⟨?_, ?_⟩
    · split <;> rfl
    · split <;> rfl
    · split <;> rfl
    · split <;> exact hrunning
  | watcher ha hr =>
    exact haside rfl rfl rfl ⟨rfl, hσ.isRunning_uses (Attempt.uses_of_watcherStep? hr)⟩
  | openWatch => exact haside rfl rfl rfl ⟨rfl, hσ.use _ _ (.withFeed _)⟩
  | held hh hr => exact haside rfl rfl rfl ⟨rfl, hσ.isRunning_uses (HeldPeer.uses_of_step? hr)⟩
  | background ht => exact haside rfl rfl rfl ⟨rfl, hσ.use _ _ (.background ht)⟩
  | @call j c _ hc hstep =>
    have hpower : n.power (.call j) = n.callPower c := by simp [power, hc]
    rw [hpower]
    exact hn.callStep hσ hc (hdirect c (List.mem_of_getElem? hc)) hstep

/-- What is done from outside keeps all in agreement. -/
theorem Agrees.act (hσ : Transport.Switched σ) (hn : n.Agrees record) (a : Act σ) :
    (n.act a).Agrees record := by
  have hhappens : Happens (fun _ => True) n (n.act a) := .act n a trivial
  have hone := hn.one.change (lifecycleChange_of_happens hhappens)
  cases a with
  | order o =>
    refine hn.aside hone (fun i c hc => ?_) rfl ⟨rfl, rfl⟩
    rcases Nat.lt_or_ge i n.calls.length with hi | hi
    · exact .inl ((List.getElem?_append_left hi).symm.trans hc)
    · have hnew : [o.call][i - n.calls.length]? = some c :=
        (List.getElem?_append_right hi).symm.trans hc
      obtain rfl := List.mem_singleton.mp (List.mem_of_getElem? hnew)
      exact .inr (by cases o <;> rfl)
  | move m => exact hn.aside hone (fun _ _ => .inl) rfl ⟨rfl, hσ.use _ _ (.move _ m)⟩
  | cancelAttempt | watch | cancelWatch | addSlot | wait =>
    exact hn.aside hone (fun _ _ => .inl) rfl ⟨rfl, rfl⟩

/-- Record, transport and cache agree with the life cycle in every state that a node gets into. -/
theorem agrees_of_recorded (hσ : Transport.Switched σ) {allowed : Act σ → Prop}
    (hallowed : ServiceOnly allowed) {first : Node σ} (hfirst : first.Agrees [])
    (hdirect : ∀ c ∈ first.calls, c.isDirect = false) (h : Recorded allowed first record n) :
    n.Agrees record := by
  induction h with
  | first => exact hfirst
  | step task h hstep ih =>
    have hreach := exists_recorded_iff.mp ⟨_, h⟩
    exact ih.step hσ (isDirect_of_reachable hallowed hdirect hreach) hstep
  | act a _ _ ih => exact ih.act hσ a

/-- A record that the node agrees with went by turns. -/
theorem Agrees.exists_after? (hn : n.Agrees record) : ∃ p, Power.off.after? record = some p := by
  by_cases hnone : ∀ i, n.transition? i = none
  · have hrests := hn.rests
    unfold Rests at hrests
    rcases hn.one.rests hnone with hl | hl
    · rw [hl] at hrests
      exact ⟨_, hrests.1.off⟩
    · rw [hl] at hrests
      obtain ⟨identity, hknown, -⟩ := hrests
      exact ⟨_, hknown⟩
  · obtain ⟨i, hi⟩ := Classical.not_forall.mp hnone
    obtain ⟨s, hs⟩ := Option.ne_none_iff_exists'.mp hi
    obtain ⟨c, hc, htransition⟩ := Option.bind_eq_some_iff.mp hs
    have hstands := hn.calls i c hc
    cases c with
    | starting | startFailed | aborted | stopDone => exact ⟨_, hstands.1.off⟩
    | identifying | aborting | caching | startDone => exact ⟨_, hstands.1⟩
    | quiescing | stopping =>
      obtain ⟨identity, hknown, -⟩ := hstands
      exact ⟨_, hknown⟩
    | clearing => exact ⟨_, hstands.off⟩
    | _ => contradiction

/-- What starts and stops of a node can rely on, in one of its states and with its record. -/
structure Orderly (allowed : Act σ → Prop) (n : Node σ) (record : List PowerAct) : Prop where
  /-- The life cycle goes along its edges only. -/
  edges : ∀ n', Happens allowed n n' →
    n'.lifecycle = n.lifecycle ∨ n.lifecycle.Edge n'.lifecycle
  /-- One call at most has claimed a transition and not completed it. -/
  one : ∀ i j s s', n.transition? i = some s → n.transition? j = some s' → i = j
  /-- Starts and stops of the transport never overlap. -/
  apart : ∀ (i j : Nat) (c d : Call), n.calls[i]? = some c → n.calls[j]? = some d →
    (c.startsTransport = true ∨ c.stopsTransport = true) →
    (d.startsTransport = true ∨ d.stopsTransport = true) → i = j
  /-- Between a start that succeeded and the next one there was exactly one stop. -/
  turns : ∀ before between behind a, record = before ++ .started :: (between ++ a :: behind) →
    a.isStart = true → (∀ x ∈ between, x.isStart = false) → between.count .stopped = 1
  /-- A running node has cached the identity that its start has yielded. -/
  running : n.lifecycle = .running → ∃ identity before,
    n.identity = some identity ∧ record = before ++ [.started, .identified identity]
  /-- A stopped node has cached none, and its transport does not run. -/
  stopped : n.lifecycle = .stopped →
    n.identity = none ∧ Transport.isRunning n.transport = false

/-- However calls that start and stop a node interleave, on a transport whose start may succeed,
fail or yield no identity, its life cycle, its cache and its transport stay in order. -/
theorem orderly_of_recorded (hσ : Transport.Switched σ) {t : σ}
    (ht : Transport.isRunning t = false) (cfg : AttemptConfig) (timeout : Nat)
    {allowed : Act σ → Prop} (hallowed : ServiceOnly allowed)
    (h : Recorded allowed (create t cfg timeout) record n) : n.Orderly allowed record := by
  have hfirst : ∀ c ∈ (create t cfg timeout).calls, c.isDirect = false := by simp [create]
  have hn := agrees_of_recorded hσ hallowed (agrees_create ht cfg timeout) hfirst h
  have hdirect := isDirect_of_reachable hallowed hfirst (exists_recorded_iff.mp ⟨record, h⟩)
  have hrests := hn.rests
  unfold Rests at hrests
  constructor
  · exact fun n' h' => hn.one.edge (lifecycleChange_of_happens h')
  · exact hn.one.unique
  · intro i j c d hc hd hcuses hduses
    obtain ⟨s, hs⟩ := Call.transition?_of_uses hcuses (hdirect c (List.mem_of_getElem? hc))
    obtain ⟨s', hs'⟩ := Call.transition?_of_uses hduses (hdirect d (List.mem_of_getElem? hd))
    refine hn.one.unique i j s s' ?_ ?_
    · simp [transition?, ofCall?, hc, hs]
    · simp [transition?, ofCall?, hd, hs']
  · intro before between behind a hrecord ha hbetween
    obtain ⟨p, hp⟩ := hn.exists_after?
    rw [hrecord] at hp
    exact Power.count_stopped_between_starts hp ha hbetween
  · intro hl
    rw [hl] at hrests
    obtain ⟨identity, hknown, hidentity⟩ := hrests
    obtain ⟨before, hrecord⟩ := Power.eq_append_of_known hknown
    exact ⟨identity, before, hidentity, hrecord⟩
  · intro hl
    rw [hl] at hrests
    exact ⟨hrests.2, hrests.1.stopped⟩

/-- Starting and stopping the node, and nothing else from outside. -/
def StartsAndStops : Act InProcess → Prop
  | .order .start | .order .stop => True
  | _ => False

/-- A node that was started, stopped by two calls at once while a third one was refused, and
started again. -/
def restartedNode : Node InProcess :=
  ((plainNode.perform [.call 0] 5 [.order .start]).perform [.call 3, .call 2, .call 1, .call 4] 2
    [.order .stop, .order .stop, .order .start, .order .start]).perform [.call 4] 4 [.order .stop]

/-- That node runs again, and all is in order. -/
theorem orderly_restartedNode :
    Transport.isRunning plainNode.transport = false ∧ ServiceOnly StartsAndStops ∧
      restartedNode.lifecycle = .running ∧
      ∃ record, Recorded StartsAndStops plainNode record restartedNode ∧
        restartedNode.Orderly StartsAndStops record := by
  have hservice : ServiceOnly StartsAndStops := ⟨id, id⟩
  have hreachable : Reachable StartsAndStops plainNode restartedNode :=
    ((reachable_perform _ _ _ (by simp [StartsAndStops])).trans
      (reachable_perform _ _ _ (by simp [StartsAndStops]))).trans
        (reachable_perform _ _ _ (by simp [StartsAndStops]))
  obtain ⟨record, hrecorded⟩ := exists_recorded_iff.mpr hreachable
  exact ⟨rfl, hservice, by decide +kernel, record, hrecorded,
    orderly_of_recorded InProcess.switched rfl plainConfig 1000 hservice hrecorded⟩

end Node

end PeerProbe
