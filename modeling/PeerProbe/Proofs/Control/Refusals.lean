import PeerProbe.Proofs.Control.Answering
import PeerProbe.Proofs.Node.Frame
import PeerProbe.Proofs.Node.Run
import PeerProbe.Proofs.Run

/-!
# Refusals change nothing

A line is checked in many places: as JSON, as a request, for its method and its parameters, then the
record in it, the life cycle of the node and the slot for attempts. A check that fails is the end of it.
So a call is one of three things (`Call.stage`): still being asked whether it may go on, turned away, or
engaged. It only ever changes something when it becomes engaged, and an engaged call stays engaged,
whatever it comes back with. So a call that was turned away has done nothing but answer.

What happens to a node from elsewhere while a call is under way is not the call's doing. The statement is
about each step of the call, in any run.
-/

namespace PeerProbe

/-! ## The stages of a call -/

/-- How a call stands with the node. -/
inductive Stage where
  | asking
  | turnedAway
  | engaged
  deriving DecidableEq

/-- A call asks until it takes hold of something; one that was refused before that is turned away. -/
def Call.stage : Call → Stage
  | .start | .startCached | .addPeer .. | .addChecked .. | .removePeer _
  | .claiming .service .. => .asking
  | .done (.refused .startInProgress) | .done (.refused .busy)
  | .done (.refused (.malformedPeerRef _)) => .turnedAway
  | _ => .engaged

namespace Node

variable {σ : Type}

/-- What a step of the call with a number leaves as it was: everything but the call itself and the
log. -/
structure Unmoved (i : Nat) (n n' : Node σ) : Prop extends SameTasks n n' where
  now : n'.now = n.now
  transport : n'.transport = n.transport
  lifecycle : n'.lifecycle = n.lifecycle
  identity : n'.identity = n.identity
  calls : ∀ j ≠ i, n'.calls[j]? = n.calls[j]?

variable {n n' : Node σ} {i k m time : Nat} {c d : Call}

/-- A call that is set is there. -/
theorem getElem?_setCall (hc : n.calls[i]? = some c) (d : Call) : (n.setCall i d).calls[i]? = some d :=
  List.getElem?_set_self (List.getElem?_eq_some_iff.mp hc).1

/-- A call that is set moves nothing else. -/
theorem unmoved_setCall (n : Node σ) (i : Nat) (c : Call) : n.Unmoved i (n.setCall i c) where
  slots := rfl
  attempts := rfl
  watches := rfl
  held := rfl
  now := rfl
  transport := rfl
  lifecycle := rfl
  identity := rfl
  calls _ hj := List.getElem?_set_ne (Ne.symm hj)

/-- Neither does what is logged. -/
theorem Unmoved.logged (h : n.Unmoved i n') (es : List Log.Entry) : n.Unmoved i (n'.logged es) :=
  ⟨⟨h.slots, h.attempts, h.watches, h.held⟩, h.now, h.transport, h.lifecycle, h.identity, h.calls⟩

/-- A call that is new moves nothing else. -/
theorem unmoved_append (n : Node σ) (c : Call) :
    n.Unmoved n.calls.length { n with calls := n.calls ++ [c] } where
  slots := rfl
  attempts := rfl
  watches := rfl
  held := rfl
  now := rfl
  transport := rfl
  lifecycle := rfl
  identity := rfl
  calls j hj := by
    obtain hlt | hlt := Nat.lt_or_gt_of_ne hj
    · exact List.getElem?_append_left hlt
    · rw [List.getElem?_append_right (Nat.le_of_lt hlt), List.getElem?_eq_none (Nat.le_of_lt hlt)]
      exact List.getElem?_eq_none (Nat.sub_pos_of_lt hlt)

variable [Transport σ] {allowed : Act σ → Prop} {first : Node σ}

/-- The answer to a peer that was tried is not one of those at the door. -/
theorem stage_serviceReply (lifecycle : Lifecycle) (peer : PeerRef) (answer : Option AttemptReport) :
    (Call.done (serviceReply lifecycle peer answer)).stage = .engaged := by
  unfold serviceReply
  split
  · split <;> rfl
  · split
    · rfl
    · split <;> rfl
    · rfl

/-- An engaged call stays engaged. -/
theorem engaged_of_callStep? (h : n.callStep? i c = some n') (hc : c.stage = .engaged) :
    ∃ d, n'.calls = n.calls.set i d ∧ d.stage = .engaged := by
  cases callStepped_of_callStep? h with
  | @claimRefused purpose =>
    cases purpose with
    | service => cases hc
    | direct | command => exact ⟨_, rfl, rfl⟩
  | @subscribed purpose => cases purpose <;> exact ⟨_, rfl, rfl⟩
  | @answeredAtOnce _ _ _ answer => cases answer <;> exact ⟨_, rfl, rfl⟩
  | @joined purpose _ _ answer =>
    cases purpose with
    | direct => cases answer <;> exact ⟨_, rfl, rfl⟩
    | service | command => exact ⟨_, rfl, rfl⟩
  | concluded => exact ⟨_, rfl, stage_serviceReply _ _ _⟩
  | startClaimed | startRunning | startRefused | cached | uncached | addRead | addRefused | addCrashed
  | addRunning | addIdle | removed | removeRefused | removeCrashed => cases hc
  | _ => exact ⟨_, rfl, rfl⟩

/-- A call that asks moves nothing by its step, or it is engaged behind it. -/
theorem unmoved_or_engaged (h : n.callStep? i c = some n') (hc : c.stage = .asking) :
    n.Unmoved i n' ∨ ∃ d, n'.calls = n.calls.set i d ∧ d.stage = .engaged := by
  cases callStepped_of_callStep? h with
  | startClaimed | claimed | removed => exact .inr ⟨_, rfl, rfl⟩
  | claimRefused => exact .inl ((unmoved_setCall n i _).logged _)
  | startRunning | startRefused | cached | uncached | addRead | addRefused | addCrashed
  | addRunning | addIdle | removeRefused | removeCrashed => exact .inl (unmoved_setCall n i _)
  | _ => cases hc

/-! ## Calls in a run -/

section Runs

variable {r : Run (Happens allowed) first}

/-- What a call is at some time that its steps keep, it is from then on. -/
theorem call_onwards {p : Call → Prop}
    (hkeep : ∀ (n n' : Node σ) c, p c → n.callStep? i c = some n' →
      ∃ d, n'.calls = n.calls.set i d ∧ p d)
    (hkm : k ≤ m) (h : ∃ c, (r.state k).calls[i]? = some c ∧ p c) :
    ∃ c, (r.state m).calls[i]? = some c ∧ p c := by
  refine r.onwards (p := fun n => ∃ c, n.calls[i]? = some c ∧ p c) ?_ hkm h
  rintro n n' hstep ⟨c, hc, hp⟩
  obtain hsame | hown := call_of_happens hstep hc
  · exact ⟨c, hsame, hp⟩
  · obtain ⟨d, hcalls, hd⟩ := hkeep n n' c hp hown
    exact ⟨d, by rw [hcalls, List.getElem?_set_self (List.getElem?_eq_some_iff.mp hc).1], hd⟩

/-- A call that has come back has no more steps, from then on. -/
theorem step?_of_done {reply : Reply} (hkm : k ≤ m) (h : (r.state k).calls[i]? = some (.done reply)) :
    (r.state m).step? (.call i) = none := by
  obtain ⟨c, hc, rfl⟩ := call_onwards (p := (· = .done reply))
    (fun n n' c hc hstep => by subst hc; cases hstep) hkm ⟨_, h, rfl⟩
  simp [step?, hc, callStep?]

/-- The steps of a call that is not engaged later on move nothing. -/
theorem unmoved_of_later (hkm : k < m) (hstep : (r.state k).step? (.call i) = some (r.state (k + 1)))
    (hd : (r.state m).calls[i]? = some d) (hstage : d.stage ≠ .engaged) :
    (r.state k).Unmoved i (r.state (k + 1)) := by
  obtain ⟨c, hc, hown⟩ := Option.bind_eq_some_iff.mp hstep
  have hlt := (List.getElem?_eq_some_iff.mp hc).1
  -- an engaged call would be engaged later on
  have hnot : ¬∃ d', (r.state (k + 1)).calls = (r.state k).calls.set i d' ∧ d'.stage = .engaged := by
    rintro ⟨d', hcalls, hd'⟩
    obtain ⟨c', hc', hengaged⟩ := call_onwards (r := r) (p := fun c => c.stage = .engaged)
      (fun _ _ _ hc hstep => engaged_of_callStep? hstep hc) hkm
      ⟨d', by rw [hcalls, List.getElem?_set_self hlt], hd'⟩
    obtain rfl := Option.some.inj (hc'.symm.trans hd)
    exact hstage hengaged
  cases hc' : c.stage with
  | asking => exact (unmoved_or_engaged hown hc').resolve_right hnot
  | engaged => exact absurd (engaged_of_callStep? hown hc') hnot
  | turnedAway =>
    obtain ⟨reply, rfl⟩ : ∃ reply, c = .done reply := by
      unfold Call.stage at hc'
      split at hc' <;> first | exact ⟨_, rfl⟩ | cases hc'
    cases hown

end Runs

/-! ## Lines and their answers -/

open Control (requestId order? isAsking Response)

/-- A connection gives the service the call that a line asks for, and nothing else. -/
theorem handle_eq_call_iff {connection : Control.Connection} {bytes : List UInt8} {line : List Char}
    (hdecode : Utf8.decode bytes = some line) {o : Order} :
    (∃ c', connection.handle bytes = .call o c') ↔ isAsking line = true ∧ order? line = some o := by
  rw [Control.Connection.handle, hdecode, isAsking, order?]
  dsimp only
  cases (Text.trim line).isEmpty with
  | true => simp
  | false => cases Control.dispatch line <;> simp

/-- A node to which a line is dispatched: the call that it asks for begins, if it asks for one. -/
def takeLine (n : Node σ) (line : List Char) : Node σ :=
  match order? line with
  | some o => n.act (.order o)
  | none => n

/-- The answer to a line: it is known at once, or it is what the call with a number came back with. -/
def answer? (n : Node σ) (i : Nat) (line : List Char) : Option Response :=
  match Control.dispatch line with
  | .answered answer => some answer
  | .call id _ => (n.calls[i]?.bind Call.reply?).map (Reply.response id)

/-- The codes of refusals at the door. -/
def doorCodes : List String :=
  [Control.badRequest, Control.unknownMethod, "malformed_peer_ref", "busy", "start_in_progress"]

/-- The times at which a dispatch does something: when the line comes, and at the steps of its call. -/
inductive Acts (r : Run (Happens allowed) first) (line : List Char) (time : Nat) : Nat → Prop where
  | arrives : Acts r line time time
  | steps {k : Nat} (hasked : (order? line).isSome) (hlater : time < k)
      (h : (r.state k).step? (.call (r.state time).calls.length) = some (r.state (k + 1))) :
      Acts r line time k

/-- A call that adds a peer looks at the life cycle for the first time, and finds the node not
running. -/
def FoundIdle (r : Run (Happens allowed) first) (i k : Nat) : Prop :=
  (∃ peer timeout, (r.state k).calls[i]? = some (.addChecked peer timeout)) ∧
    (r.state k).lifecycle ≠ .running ∧ (r.state k).step? (.call i) = some (r.state (k + 1))

/-- What can be relied on when a line is dispatched at some time of a run. -/
structure Refusals (r : Run (Happens allowed) first) (line : List Char) (time : Nat) : Prop where
  /-- On every connection the line leads to the call that is taken here, and to no other. -/
  handed : ∀ (connection : Control.Connection) bytes, Utf8.decode bytes = some line →
    ∀ o, (∃ c', connection.handle bytes = .call o c') ↔ isAsking line = true ∧ order? line = some o
  /-- Every answer has the number of the request, 0 if the line is none. -/
  numbered : ∀ m answer, (r.state m).answer? (r.state time).calls.length line = some answer →
    answer.id = requestId line
  /-- A dispatch that is answered at the door, or with the first look at a node that does not run, has
  moved nothing. -/
  unmoved : ∀ m answer e, time < m →
    (r.state m).answer? (r.state time).calls.length line = some answer → answer.error = some e →
      (e.code ∈ doorCodes ∨
        e.code = "not_running" ∧ ∃ k, FoundIdle r (r.state time).calls.length k) →
      ∀ k, Acts r line time k → (r.state k).Unmoved (r.state time).calls.length (r.state (k + 1))
  /-- A record that is no record is refused as such, whatever the node is doing: if not yet, then with
  the next step of the call. -/
  malformed : ∀ enode e, PeerRef.parse enode = .error (.refused e) →
    (order? line = some (.removePeer enode) ∨ ∃ timeout, order? line = some (.addPeer enode timeout)) →
    ∀ m, time < m → ∃ answered, answered.answer? (r.state time).calls.length line =
        some (.err (requestId line) "malformed_peer_ref" (ServiceError.malformedPeerRef e).message) ∧
      (answered = r.state m ∨
        (r.state m).step? (.call (r.state time).calls.length) = some answered)

/-- A refusal with a code of the door is one at the door. -/
theorem stage_of_code {e : ServiceError} (h : e.code ∈ doorCodes) :
    (Call.done (.refused e)).stage = .turnedAway := by
  cases e with
  | startInProgress | busy | malformedPeerRef => rfl
  | notStarted | transport | notRunning | subscription | cancelled =>
    exact absurd h (by simp only [ServiceError.code]; decide)

omit [Transport σ] in
/-- A line is answered at once with an error, or with what the call that it asks for came back with. -/
theorem answer?_cases (n : Node σ) (i : Nat) (line : List Char) :
    (order? line = none ∧ ∃ code message,
      n.answer? i line = some (.err (requestId line) code message)) ∨
    (order? line).isSome ∧
      n.answer? i line = (n.calls[i]?.bind Call.reply?).map (Reply.response (requestId line)) := by
  unfold answer? order?
  obtain ⟨o, hdispatch⟩ | ⟨code, message, hdispatch⟩ := Control.dispatch_cases line
  · exact .inr (by simp [hdispatch])
  · exact .inl (by simp [hdispatch])

omit [Transport σ] in
theorem numbered_of_answer? {line : List Char} {answer : Response} (h : n.answer? i line = some answer) :
    answer.id = requestId line := by
  obtain ⟨-, code, message, hanswer⟩ | ⟨-, hanswer⟩ := n.answer?_cases i line <;>
    rw [hanswer] at h
  · obtain rfl := Option.some.inj h
    rfl
  · obtain ⟨reply, -, rfl⟩ := Option.map_eq_some_iff.mp h
    cases reply <;> rfl

omit [Transport σ] in
/-- A call that has come back is the answer to its line. -/
theorem answer?_of_done {line : List Char} {reply : Reply} (hasked : (order? line).isSome)
    (hdone : n.calls[i]? = some (.done reply)) :
    n.answer? i line = some (reply.response (requestId line)) := by
  obtain ⟨hnone, -⟩ | ⟨-, hanswer⟩ := n.answer?_cases i line
  · rw [hnone] at hasked
    cases hasked
  · rw [hanswer, hdone]
    rfl

omit [Transport σ] in
/-- An answer with an error comes from a call that was refused, unless it was known at once. -/
theorem refused_of_answer? {line : List Char} {answer : Response} {e : Control.ErrorBody}
    (hasked : (order? line).isSome) (h : n.answer? i line = some answer) (he : answer.error = some e) :
    ∃ refusal : ServiceError, n.calls[i]? = some (.done (.refused refusal)) ∧ refusal.code = e.code := by
  obtain ⟨hnone, -⟩ | ⟨-, hanswer⟩ := n.answer?_cases i line
  · rw [hnone] at hasked
    cases hasked
  rw [hanswer] at h
  obtain ⟨reply, hreply, rfl⟩ := Option.map_eq_some_iff.mp h
  obtain ⟨c, hc, hdone⟩ := Option.bind_eq_some_iff.mp hreply
  have hc' : c = .done reply := by
    cases c <;> cases hdone
    rfl
  cases reply <;> cases he
  exact ⟨_, hc.trans (congrArg some hc'), rfl⟩

section Runs

variable {r : Run (Happens allowed) first} {line : List Char}

/-- A line that comes moves nothing; the call that it asks for begins. -/
theorem unmoved_takeLine (n : Node σ) (line : List Char) :
    n.Unmoved n.calls.length (n.takeLine line) := by
  unfold takeLine
  split
  · exact unmoved_append n _
  · exact ⟨⟨rfl, rfl, rfl, rfl⟩, rfl, rfl, rfl, rfl, fun _ _ => rfl⟩

/-- A record that is no record is refused in the first step of its call. -/
theorem callStep?_of_malformed {o : Order} {enode : String} {e : PeerRef.Error}
    (hread : PeerRef.parse enode = .error (.refused e))
    (ho : o = .removePeer enode ∨ ∃ timeout, o = .addPeer enode timeout) (n : Node σ) (i : Nat) :
    n.callStep? i o.call = some (n.setCall i (.done (.refused (.malformedPeerRef e)))) := by
  obtain rfl | ⟨timeout, rfl⟩ := ho
  · simp [Order.call, callStep?, removePeerStep, hread]
  · simp [Order.call, callStep?, addPeerStep, hread]

/-- With its first look at a node that does not run, the call is refused. -/
theorem eq_of_foundIdle (h : FoundIdle r i k) :
    r.state (k + 1) = (r.state k).setCall i (.done (.refused .notRunning)) := by
  obtain ⟨⟨peer, timeout, hlook⟩, hidle, hstep⟩ := h
  simp only [step?, hlook, Option.bind_some, callStep?, addCheckedStep, if_neg hidle] at hstep
  exact (Option.some.inj hstep).symm

/-- The call of a record that is no record is refused with its first step, if it was not yet. -/
theorem call_of_malformed {o : Order} {enode : String} {e : PeerRef.Error}
    (htaken : r.state (time + 1) = (r.state time).takeLine line) (ho : order? line = some o)
    (hread : PeerRef.parse enode = .error (.refused e))
    (hkind : o = .removePeer enode ∨ ∃ timeout, o = .addPeer enode timeout) (hm : time < m) :
    ∃ c, (r.state m).calls[(r.state time).calls.length]? = some c ∧
      (c = o.call ∨ c = .done (.refused (.malformedPeerRef e))) := by
  refine call_onwards (k := time + 1) (fun n n' c hc hown => ?_) hm ⟨o.call, ?_, .inl rfl⟩
  · obtain rfl | rfl := hc
    · rw [callStep?_of_malformed hread hkind] at hown
      obtain rfl := Option.some.inj hown
      exact ⟨_, rfl, .inr rfl⟩
    · cases hown
  · rw [htaken, takeLine, ho]
    exact List.getElem?_concat_length

/-- In every run and for every line: answers have the number of the request, what is refused at the door
has moved nothing, and a record that is no record is refused as such. -/
theorem refusals (r : Run (Happens allowed) first) (line : List Char) (time : Nat)
    (htaken : r.state (time + 1) = (r.state time).takeLine line) : Refusals r line time where
  handed _ _ hdecode _ := handle_eq_call_iff hdecode
  numbered m answer h := numbered_of_answer? h
  unmoved m answer e hm hanswer he hcode k hacts := by
    cases hacts with
    | arrives => exact htaken ▸ unmoved_takeLine _ _
    | steps hasked hlater hstep =>
      obtain ⟨refusal, hdone, hrefusal⟩ := refused_of_answer? hasked hanswer he
      obtain hdoor | ⟨-, idle, ⟨peer, timeout, hlook⟩, hidle, hlookStep⟩ := hcode
      · have hstage := stage_of_code (hrefusal ▸ hdoor)
        obtain hkm | hmk := Nat.lt_or_ge k m
        · exact unmoved_of_later hkm hstep hdone (by rw [hstage]; decide)
        · exact absurd ((step?_of_done hmk hdone).symm.trans hstep) nofun
      · have hnext := eq_of_foundIdle ⟨⟨peer, timeout, hlook⟩, hidle, hlookStep⟩
        obtain hki | rfl | hik := Nat.lt_trichotomy k idle
        · exact unmoved_of_later hki hstep hlook nofun
        · rw [hnext]
          exact unmoved_setCall _ _ _
        · have hdone' : (r.state (idle + 1)).calls[(r.state time).calls.length]? =
              some (.done (.refused .notRunning)) := by
            rw [hnext, getElem?_setCall hlook]
          exact absurd ((step?_of_done hik hdone').symm.trans hstep) nofun
  malformed enode e hread ho m hm := by
    obtain ⟨o, ho, hkind⟩ : ∃ o, order? line = some o ∧
        (o = .removePeer enode ∨ ∃ timeout, o = .addPeer enode timeout) := by
      obtain ho | ⟨timeout, ho⟩ := ho
      · exact ⟨_, ho, .inl rfl⟩
      · exact ⟨_, ho, .inr ⟨timeout, rfl⟩⟩
    have hasked : (order? line).isSome := Option.isSome_of_eq_some ho
    obtain ⟨c, hc, rfl | rfl⟩ := call_of_malformed htaken ho hread hkind hm
    · have hdone := getElem?_setCall hc (.done (.refused (.malformedPeerRef e)))
      refine ⟨_, answer?_of_done hasked hdone, .inr ?_⟩
      simp only [step?, hc, Option.bind_some, callStep?_of_malformed hread hkind]
    · exact ⟨r.state m, answer?_of_done hasked hc, .inl rfl⟩

end Runs

/-- A line may come at any time. -/
theorem happens_takeLine (n : Node σ) (line : List Char) :
    Happens (fun _ => True) n (n.takeLine line) ∨ n.takeLine line = n := by
  unfold takeLine
  split
  · exact .inl (.act n _ trivial)
  · exact .inr rfl

/-- A task may take its step at any time, if it has one. -/
theorem happens_getD_step? (n : Node σ) (task : Task) :
    Happens (fun _ => True) n ((n.step? task).getD n) ∨ (n.step? task).getD n = n := by
  cases h : n.step? task with
  | some n' => exact .inl (.step task h)
  | none => exact .inr rfl

/-- The text of a request to add a peer whose record has no scheme. -/
def unschemed : List Char := ((Command.RemoteTask.addPeer "" none).request 7).json.chars

/-- The request comes to a node that was never started, and its call takes its step. -/
def unschemedRun : Run (Happens fun _ => True) plainNode :=
  .perform [fun n => n.takeLine unschemed, fun n => (n.step? (.call 0)).getD n]
    (List.forall_mem_cons.mpr ⟨fun n => happens_takeLine n unschemed,
      List.forall_mem_singleton.mpr fun n => happens_getD_step? n (.call 0)⟩) plainNode

/-- The call is refused for its record, and its step has moved nothing. -/
theorem refusals_unschemed :
    unschemedRun.state 1 = (unschemedRun.state 0).takeLine unschemed ∧
      Refusals unschemedRun unschemed 0 ∧
      (unschemedRun.state 2).answer? 0 unschemed =
        some (.err 7 "malformed_peer_ref" (ServiceError.malformedPeerRef .missingScheme).message) ∧
      Acts unschemedRun unschemed 0 1 ∧
      (unschemedRun.state 1).Unmoved 0 (unschemedRun.state 2) := by
  have htaken : unschemedRun.state 1 = (unschemedRun.state 0).takeLine unschemed := by
    rw [unschemedRun.state_zero]
    exact Run.state_one_perform _ _ _ _
  have hrefusals := refusals unschemedRun unschemed 0 htaken
  have hlength : (unschemedRun.state 0).calls.length = 0 := by
    rw [unschemedRun.state_zero]
    rfl
  have hid : requestId unschemed = 7 := (Control.request_asks 7 (.addPeer "" none)).1
  have horder : order? unschemed = some (.addPeer "" none) :=
    (Control.request_asks 7 (.addPeer "" none)).2
  have hasked : (order? unschemed).isSome := Option.isSome_of_eq_some horder
  have hsecond : unschemedRun.state 2 =
      ((unschemedRun.state 1).step? (.call 0)).getD (unschemedRun.state 1) := by
    simp only [unschemedRun, Run.state_perform, List.take_succ_cons, List.take_zero,
      List.foldl_cons, List.foldl_nil]
  have hcall : (unschemedRun.state 1).calls[0]? = some (.addPeer "" none) := by
    rw [htaken, unschemedRun.state_zero, takeLine, horder]
    rfl
  have hstep : (unschemedRun.state 1).step? (.call 0) = some
      ((unschemedRun.state 1).setCall 0 (.done (.refused (.malformedPeerRef .missingScheme)))) := by
    rw [step?, hcall]
    exact callStep?_of_malformed (o := .addPeer "" none) rfl (.inr ⟨none, rfl⟩) _ 0
  rw [hstep, Option.getD_some] at hsecond
  have hanswer : (unschemedRun.state 2).answer? 0 unschemed =
      some (.err 7 "malformed_peer_ref" (ServiceError.malformedPeerRef .missingScheme).message) := by
    rw [hsecond, answer?_of_done hasked (getElem?_setCall hcall _), hid]
    rfl
  have hacts : Acts unschemedRun unschemed 0 1 :=
    .steps hasked Nat.zero_lt_one (by rw [hlength, hstep, hsecond])
  refine ⟨htaken, hrefusals, hanswer, hacts, ?_⟩
  have hunmoved :=
    hrefusals.unmoved 2 _ _ (by decide) (hlength ▸ hanswer) rfl (.inl (by decide)) 1 hacts
  rwa [hlength] at hunmoved

end Node

end PeerProbe
