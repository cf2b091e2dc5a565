import PeerProbe.Proofs.Attempt.Heard
import PeerProbe.Proofs.Node.Account
import PeerProbe.Proofs.Transport.Supply

/-!
# Messages that a node observes

In a run of a node an attempt may observe the traffic of its peer. The items that it hears are the
results of its own reads, in the order of its steps; whatever else happens, on the connection or off
it, only lies between them. Its reader has dealt with each of them once, and the number that is logged
when observing ends is the number of those that were accepted.
-/

namespace PeerProbe

namespace Node

variable {σ : Type} [Transport σ] {allowed : Act σ → Prop} {first n n' : Node σ} {k began : Nat}
  {cfg : AttemptConfig} {a : Attempt} {items : List (Except TransportError Frame)}

/-- What an attempt has heard in a run since it began to observe, and when that was. -/
inductive Listened (allowed : Act σ → Prop) (first : Node σ) (k : Nat) (cfg : AttemptConfig) :
    Node σ → Nat → List (Except TransportError Frame) → Prop where
  | begun {n n' : Node σ} {a a' : Attempt} {conn : Option ConnId} (hreach : Reachable allowed first n)
      (h : n.step? (.attempt k) = some n') (ha : n.attempts[k]? = some a)
      (hcfg : n.config? a.slot = some cfg) (hphase : a.phase = .resuming conn)
      (ha' : n'.attempts[k]? = some a') (hobserves : a'.phase.IsObserving) :
      Listened allowed first k cfg n' n.now []
  | own {n n' : Node σ} {a : Attempt} {began : Nat} {items : List (Except TransportError Frame)}
      (hl : Listened allowed first k cfg n began items) (h : n.step? (.attempt k) = some n')
      (ha : n.attempts[k]? = some a) (hcfg : n.config? a.slot = some cfg) :
      Listened allowed first k cfg n' began (items ++ a.heard n.now n.transport)
  | other {n n' : Node σ} {a a' : Attempt} {began : Nat}
      {items : List (Except TransportError Frame)} (hl : Listened allowed first k cfg n began items)
      (h : Happens allowed n n') (ha : n.attempts[k]? = some a) (ha' : n'.attempts[k]? = some a')
      (hsame : a.SameCourse a') : Listened allowed first k cfg n' began items

/-- The log entries of a step of an attempt. -/
theorem log_of_step?_attempt {s : Attempt.Stepped σ} (hcfg : n.config? a.slot = some cfg)
    (ha : n.attempts[k]? = some a) (h : n.step? (.attempt k) = some n')
    (hs : a.step? cfg n.now n.transport = some s) : n'.log = n.log ++ s.2.2.1 := by
  obtain ⟨s', hs', rfl⟩ := attempted_of_step?_attempt hcfg ha h
  obtain rfl := Option.some.inj (hs.symm.trans hs')
  split <;> rfl

/-- An attempt that makes a step has a configuration. -/
theorem exists_config?_of_step? (ha : n.attempts[k]? = some a)
    (h : n.step? (.attempt k) = some n') : ∃ cfg, n.config? a.slot = some cfg := by
  cases stepped_of_step? h with
  | attempt hb hcfg =>
    obtain rfl := Option.some.inj (ha.symm.trans hb)
    exact ⟨_, hcfg⟩

/-- An attempt has dealt with what it has heard. -/
theorem tallies_of_listened (h : Listened allowed first k cfg n began items)
    (ha : n.attempts[k]? = some a) : a.Tallies cfg began items := by
  induction h generalizing a with
  | begun _ h hb hcfg hphase hb' hobserves =>
    obtain ⟨s, hs, hnext, -⟩ := exists_of_step?_attempt hcfg hb h
    obtain rfl := Option.some.inj (hnext.symm.trans ha)
    obtain rfl := Option.some.inj (hnext.symm.trans hb')
    exact Attempt.tallies_resume hphase hs hobserves
  | own _ h hb hcfg ih =>
    obtain ⟨s, hs, hnext, -⟩ := exists_of_step?_attempt hcfg hb h
    obtain rfl := Option.some.inj (hnext.symm.trans ha)
    exact (ih hb).step? hs
  | other _ _ hb hb' hsame ih =>
    obtain rfl := Option.some.inj (hb'.symm.trans ha)
    cases ih hb with
    | observing conn taken hphase hframes =>
      exact .observing conn taken (hsame.phase.trans hphase) hframes
    | behind hbehind => exact .behind (hsame.phase ▸ hbehind)

/-- Observing begins in a step of its own. -/
theorem exists_resuming {s : Attempt.Stepped σ} (hs : a.step? cfg n.now n.transport = some s)
    (hobserves : s.1.phase.IsObserving) (hnew : ¬a.phase.IsObserving) :
    ∃ conn, a.phase = .resuming conn := by
  have hgoes := Attempt.goes_of_step? hs
  generalize a.phase = p at hnew hgoes
  generalize s.1.phase = p' at hobserves hgoes
  cases hgoes with
  | resumed => exact ⟨_, rfl⟩
  | look => exact absurd trivial hnew
  | _ => exact hobserves.elim

/-- An attempt that observes after a step of its own began with it or goes on. -/
theorem listened_of_own {b : Attempt} (hreach : Reachable allowed first n)
    (h : n.step? (.attempt k) = some n') (hb : n.attempts[k]? = some b)
    (hcfg : n.config? b.slot = some cfg) (ha : n'.attempts[k]? = some a)
    (hobserves : a.phase.IsObserving)
    (hbefore : b.phase.IsObserving → ∃ began items, Listened allowed first k cfg n began items) :
    ∃ began items, Listened allowed first k cfg n' began items := by
  by_cases hgoing : b.phase.IsObserving
  · obtain ⟨began, items, hl⟩ := hbefore hgoing
    exact ⟨began, _, hl.own h hb hcfg⟩
  · obtain ⟨s, hs, hnext, -⟩ := exists_of_step?_attempt hcfg hb h
    obtain rfl := Option.some.inj (hnext.symm.trans ha)
    obtain ⟨conn, hphase⟩ := exists_resuming hs hobserves hgoing
    exact ⟨n.now, [], .begun hreach h hb hcfg hphase ha hobserves⟩

/-- Every attempt that observes in a run has heard something there, if only nothing yet. -/
theorem exists_listened (hnew : first.attempts[k]? = none) (h : Reachable allowed first n)
    (ha : n.attempts[k]? = some a) (hcfg : ∀ c, n.config? a.slot = some c → c = cfg)
    (hobserves : a.phase.IsObserving) : ∃ began items, Listened allowed first k cfg n began items := by
  induction h generalizing a with
  | first => exact absurd (hnew.symm.trans ha) nofun
  | @next n n' hreach hstep ih =>
    cases hold : n.attempts[k]? with
    | none =>
      obtain ⟨-, -, timeout, hcreated⟩ := begins_of_happens hstep hold ha
      rw [hcreated] at hobserves
      exact hobserves.elim
    | some b =>
      obtain ⟨b', hb', hfollows⟩ := (attemptsChange_of_happens hstep).exists_follows hold
      obtain rfl := Option.some.inj (ha.symm.trans hb')
      have hconfig : ∀ c, n.config? b.slot = some c → c = cfg := fun c hc =>
        hcfg c (hfollows.slot ▸ config?_of_happens hstep hc)
      rcases step?_or_sameCourse hstep hold with hown | ⟨b', hb', hsame⟩
      · obtain ⟨c, hc⟩ := exists_config?_of_step? hold hown
        obtain rfl := hconfig c hc
        exact listened_of_own hreach hown hold hc ha hobserves (ih hold hconfig)
      · obtain rfl := Option.some.inj (ha.symm.trans hb')
        obtain ⟨began, items, hl⟩ := ih hold hconfig (hsame.phase ▸ hobserves)
        exact ⟨began, items, hl.other hstep hold ha hsame⟩

/-- What an observing attempt knows and logs, from what it has heard. -/
structure Counts (n : Node σ) (k : Nat) (cfg : AttemptConfig) (began : Nat)
    (items : List (Except TransportError Frame)) : Prop where
  /-- While it observes, it has heard frames, its reader has dealt with each of them, and it has
  counted those that were accepted. -/
  during : ∀ a conn reading deadline seen taken, n.attempts[k]? = some a →
    a.phase = .observing conn reading deadline seen taken →
      reading = cfg.reading.after items ∧ seen = cfg.reading.accepted items ∧
        deadline = began + cfg.observe ∧ ∀ e, .error e ∉ items
  /-- It ends when it is cancelled, at its deadline or with the first failure of the connection, and
  then it logs the number of accepted frames. -/
  ending : ∀ a n' a', n.attempts[k]? = some a → a.phase.IsObserving →
    n.config? a.slot = some cfg → n.step? (.attempt k) = some n' → n'.attempts[k]? = some a' →
      ¬a'.phase.IsObserving →
        ∃ before, a.Ends n.now (began + cfg.observe) (a.heard n.now n.transport) before ∧
          n'.log = n.log ++ before ++ [a.entry "observe_done"
            (some ("messages=" ++ toString (cfg.reading.accepted items)))]

theorem counts_of_listened (h : Listened allowed first k cfg n began items) :
    n.Counts k cfg began items where
  during a conn reading deadline seen taken ha hphase := by
    cases tallies_of_listened h ha with
    | behind hbehind =>
      rw [hphase] at hbehind
      exact hbehind.elim
    | observing conn' taken' hphase' hframes =>
      obtain ⟨-, rfl, rfl, rfl, -⟩ := AttemptPhase.observing.inj (hphase.symm.trans hphase')
      exact ⟨rfl, rfl, rfl, hframes⟩
  ending a n' a' ha hobserves hcfg hstep ha' hleft := by
    obtain ⟨s, hs, hnext, -⟩ := exists_of_step?_attempt hcfg ha hstep
    obtain rfl := Option.some.inj (hnext.symm.trans ha')
    have hlog := log_of_step?_attempt hcfg ha hstep hs
    obtain ⟨before, hends, hentries⟩ := (tallies_of_listened h ha).ends hobserves hs hleft
    exact ⟨before, hends, by rw [hlog, hentries, List.append_assoc]⟩

/-! ## One by one -/

/-- Things on a connection are read one by one, each is answered for what it is, and the answers are
counted. -/
structure OneByOne : Prop where
  /-- What any reader answers to any items. -/
  traced : ∀ (r : Eth.Reading) (items : List (Except TransportError Frame)), r.Traced items
  /-- Each call of a reader takes one item off its connection and answers it. -/
  called : ∀ (σ : Type) [Transport σ] c taken r r' (t t' : σ) answers,
    Eth.Reading.Calls c taken r t answers r' t' ↔
      ∃ items, Transport.Delivers c taken t items t' ∧ answers = r.run items ∧ r' = r.after items
  /-- Calls of a reader use up what a connection has, one thing each. -/
  consumed : ∀ c taken r r' (t t' : InProcess) answers,
    Eth.Reading.Calls c taken r t answers r' t' → ∃ items, InProcess.UsesUp c t t' items ∧
      answers.length = items.length ∧ answers = r.run items ∧ r' = r.after items
  /-- No answer gets a reader stuck: there is one to each thing that a connection has. -/
  answered : ∀ c (t : InProcess) r n, (∀ m < n, (InProcess.item? c t m).isSome) →
    ∃ answers r' t', Eth.Reading.Calls c [] r t answers r' t' ∧ answers.length = n
  /-- An attempt that observes in a run counts what it has heard. -/
  counted : ∀ (σ : Type) [Transport σ] (allowed : Act σ → Prop) (first n : Node σ) k cfg began items,
    Listened allowed first k cfg n began items → n.Counts k cfg began items
  /-- Every attempt that observes in a run has heard something there. -/
  listened : ∀ (σ : Type) [Transport σ] (allowed : Act σ → Prop) (first n : Node σ) k cfg a,
    first.attempts[k]? = none → Reachable allowed first n → n.attempts[k]? = some a →
      n.config? a.slot = some cfg → a.phase.IsObserving →
        ∃ began items, Listened allowed first k cfg n began items

/-- Readers and the attempts that observe with them go through their items one by one. -/
theorem oneByOne : OneByOne where
  traced := Eth.Reading.traced
  called _ _ _ _ _ _ _ _ _ := Eth.Reading.calls_iff
  consumed _ _ r _ _ _ _ h := by
    obtain ⟨items, hdelivers, rfl, rfl⟩ := Eth.Reading.calls_iff.mp h
    exact ⟨items, InProcess.usesUp_of_delivers hdelivers, r.length_run items, rfl, rfl⟩
  answered c t r n h := by
    obtain ⟨items, t', hdelivers, hlength⟩ := InProcess.exists_delivers n h
    have hcalls : Eth.Reading.Calls c [] r t (r.run items) (r.after items) t' :=
      Eth.Reading.calls_iff.mpr ⟨items, hdelivers, rfl, rfl⟩
    exact ⟨r.run items, r.after items, t', hcalls, by rw [r.length_run, hlength]⟩
  counted _ _ _ _ _ _ _ _ _ h := counts_of_listened h
  listened _ _ _ _ _ _ _ _ hnew h ha hcfg hobserves :=
    exists_listened hnew h ha (fun _ hc => Option.some.inj (hc.symm.trans hcfg)) hobserves

/-- A node that observes a peer without an exchange of statuses. -/
def observedNode : Node InProcess :=
  (create (.create (some ownRef) [⟨none, none, .event .added none⟩])
      { plainConfig with observe := 1000 } 1000).perform [.call 0, .attempt 0, .watcher 0] 40
    [.move (InProcess.Move.attach (.pipe ⟨guestRef, [.ofPayload Eth.Code.transactions [0xc0],
        .ofPayload Eth.Code.status [], .ofPayload Eth.Code.status (Eth.rlpBytes Eth.Status.mainnet),
        .ofPayload Eth.Code.transactions [0xc0], .ofPayload Eth.Code.transactions [0xc1]], [], true,
          false⟩)),
      .order (.attempt false 1 guestRef 1000)]

/-- Of five frames, one comes too early, one is empty and one is malformed. -/
example : (observedNode.log.filter fun e => e == .network "orchestrator" .info "observe_done"
    (some guestRef.shortId) (some "messages=2")).length = 1 := by
  decide +kernel

end Node

end PeerProbe
