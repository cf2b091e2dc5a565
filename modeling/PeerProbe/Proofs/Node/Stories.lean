import PeerProbe.Proofs.Attempt.Story
import PeerProbe.Proofs.Node.Account
import PeerProbe.Proofs.Node.Listeners
import PeerProbe.Proofs.Transport.InProcess

/-!
# What the reports of a node mean

In a run of a node every attempt has a story: what was done to the feed since the attempt subscribed,
by the transport and by everybody else, and what the transport replied to the attempt. The run may
interleave in any way, and the network may do anything, as long as other users of the transport leave
the subscription of the attempt alone. The story justifies the report of the attempt.
-/

namespace PeerProbe

namespace Node

variable {σ : Type} [Transport σ] {takes : Transport.Move σ → Nat → Prop}
  {allowed : Act σ → Prop} {first n n' : Node σ} {cfg : AttemptConfig} {i k : Nat} {a : Attempt}
  {s : Story}

/-- The story of an attempt in a run. It begins when the attempt subscribes, and goes on with what
each step does to the feed. Its own steps get the replies, its watcher takes from its subscription,
and nobody else does. -/
inductive Told (allowed : Act σ → Prop) (first : Node σ) (cfg : AttemptConfig) (k : Nat) :
    Node σ → Story → Prop where
  | begun {x y : Node σ} {a : Attempt} (hx : Reachable allowed first x) (h : Happens allowed x y)
      (hnew : x.attempts[k]? = none) (ha : y.attempts[k]? = some a) :
      Told allowed first cfg k y (.begun (Transport.feed x.transport))
  | own {n n' : Node σ} {s : Story} {a : Attempt} {us : List Feed.Use}
      (ht : Told allowed first cfg k n s) (h : n.step? (.attempt k) = some n')
      (ha : n.attempts[k]? = some a) (hcfg : n.config? a.slot = some cfg)
      (hfeed : Transport.feed n'.transport = (Transport.feed n.transport).used us)
      (hus : ∀ u ∈ us, u.owner? ≠ some s.subscription) :
      Told allowed first cfg k n'
        { s.goOn us with replies := s.replies.after cfg a n.now n.transport }
  | watch {n n' : Node σ} {s : Story} {a : Attempt}
      (ht : Told allowed first cfg k n s) (h : n.step? (.watcher k) = some n')
      (ha : n.attempts[k]? = some a) :
      Told allowed first cfg k n'
        (s.goOn (a.watcher.uses a.cancelled (Transport.feed n.transport)))
  | other {n n' : Node σ} {s : Story} {a a' : Attempt} {us : List Feed.Use}
      (ht : Told allowed first cfg k n s) (h : Happens allowed n n')
      (ha : n.attempts[k]? = some a) (ha' : n'.attempts[k]? = some a')
      (hsame : a' = a ∨ a' = a.cancel)
      (hfeed : Transport.feed n'.transport = (Transport.feed n.transport).used us)
      (hus : ∀ u ∈ us, u.owner? ≠ some s.subscription) :
      Told allowed first cfg k n' (s.goOn us)

/-- What is told is true of the attempt. -/
theorem Told.tells (hσ : Transport.Publishes σ takes) (h : Told allowed first cfg k n s)
    (ha : n.attempts[k]? = some a) : s.Tells cfg a (Transport.feed n.transport) := by
  induction h generalizing a with
  | begun hx h hnew =>
    obtain ⟨-, htransport, timeout, hcreated⟩ := begins_of_happens h hnew ha
    rw [htransport, hσ.feed_subscribe, hcreated]
    exact Story.tells_create ..
  | own _ h hb hcfg hfeed hus ih =>
    obtain ⟨r, hr, hnext, htransport⟩ := exists_of_step?_attempt hcfg hb h
    obtain rfl := Option.some.inj (ha.symm.trans hnext)
    rw [htransport] at hfeed ⊢
    exact (ih hb).step? hr hfeed hus
  | watch _ h hb ih =>
    obtain ⟨r, hr, hnext, htransport⟩ := exists_of_step?_watcher hb h
    obtain rfl := Option.some.inj (ha.symm.trans hnext)
    rw [htransport]
    exact (ih hb).watcherStep? hσ.feed_withFeed hr
  | other _ h hb hnext hsame hfeed hus ih =>
    obtain rfl := Option.some.inj (ha.symm.trans hnext)
    rw [hfeed]
    exact (ih hb).others hus hsame

/-- The subscription of an attempt stays what it is. -/
theorem Follows.subscription {a' : Attempt} (h : n.Follows a a') :
    a'.watcher.subscription = a.watcher.subscription := by
  cases h with
  | advance _ hs h => rw [h, (Attempt.advance_of_step? hs).watcher]
  | aside h =>
    rcases h.watcher with hw | ⟨now, f, r, hr, hw⟩
    · rw [hw]
    · rw [hw, (Watcher.step?_target hr).2]

/-- What happens to an attempt goes on with its story. -/
theorem Told.next (hσ : Transport.Publishes σ takes)
    (ht : Told (Act.Spares takes i) first cfg k n s) (hi : s.subscription = i)
    (halone : n.Alone k i) (h : Happens (Act.Spares takes i) n n')
    (ha : n.attempts[k]? = some a) (hcfg : ∀ c, n.config? a.slot = some c → c = cfg) :
    ∃ s', Told (Act.Spares takes i) first cfg k n' s' ∧ s'.subscription = i := by
  subst hi
  cases h with
  | act act hspares =>
    obtain ⟨us, hfeed, howners⟩ := usedBy_of_act (n := n) hσ hspares
    obtain ⟨a', ha', hsame⟩ := kept_or_cancelled_of_act act ha
    exact ⟨_, ht.other (.act n act hspares) ha ha' hsame hfeed fun u hu hi => howners u hu _ hi rfl,
      rfl⟩
  | step task h =>
    by_cases hwatcher : task = .watcher k
    · exact ⟨_, ht.watch (hwatcher ▸ h) ha, rfl⟩
    obtain ⟨us, hfeed, howners⟩ := usedBy_of_step? hσ h
    have hus : ∀ u ∈ us, u.owner? ≠ some s.subscription := fun u hu hi =>
      halone.others task hwatcher (howners u hu _ hi)
    by_cases hattempt : task = .attempt k
    · subst hattempt
      cases stepped_of_step? h with
      | @attempt _ b c r hb hc hr =>
        obtain rfl := Option.some.inj (ha.symm.trans hb)
        exact ⟨_, ht.own h ha (hcfg c hc ▸ hc) hfeed hus, rfl⟩
    · obtain ⟨a', ha', hsame⟩ := kept_or_cancelled_of_step? hattempt hwatcher h ha
      exact ⟨_, ht.other (.step task h) ha ha' hsame hfeed hus, rfl⟩

/-- Every attempt that begins in a run has a story. -/
theorem exists_told (hσ : Transport.Publishes σ takes) (hfirst : first.Subscribed i)
    (hnew : first.attempts[k]? = none) (h : Reachable (Act.Spares takes i) first n)
    (ha : n.attempts[k]? = some a) (hi : a.watcher.subscription = i)
    (hcfg : ∀ c, n.config? a.slot = some c → c = cfg) :
    ∃ s, Told (Act.Spares takes i) first cfg k n s ∧ s.subscription = i ∧ n.Alone k i := by
  induction h generalizing a with
  | first => exact absurd (hnew.symm.trans ha) nofun
  | @next n n' hreach hstep ih =>
    cases hold : n.attempts[k]? with
    | none =>
      obtain ⟨-, -, timeout, hcreated⟩ := begins_of_happens hstep hold ha
      have hnext : i = (Transport.feed n.transport).next := by
        rw [← hi, hcreated]
        rfl
      have hlistens : n'.subscription? (.watcher k) = some i := by
        simp [subscription?, ha, hi]
      exact ⟨_, .begun hreach hstep hold ha, hnext.symm,
        (hfirst.reachable hσ hreach).alone hσ hstep hnext hlistens⟩
    | some b =>
      obtain ⟨b', hb', hfollows⟩ := (attemptsChange_of_happens hstep).exists_follows hold
      obtain rfl := Option.some.inj (ha.symm.trans hb')
      have hconfig : ∀ c, n.config? b.slot = some c → c = cfg := fun c hc =>
        hcfg c (hfollows.slot ▸ config?_of_happens hstep hc)
      obtain ⟨s, ht, hs, halone⟩ := ih hold (hfollows.subscription.symm.trans hi) hconfig
      obtain ⟨s', ht', hs'⟩ := ht.next hσ hs halone hstep hold hconfig
      exact ⟨s', ht', hs', halone.happens hσ hstep⟩

/-- Whatever the network does, and in whatever order things happen, an attempt that begins in a run
has a story there, and every story of the run justifies its report. -/
theorem justifies_of_told (hσ : Transport.Publishes σ takes) {report : AttemptReport}
    (hfirst : first.Subscribed a.watcher.subscription) (hnew : first.attempts[k]? = none)
    (h : Reachable (Act.Spares takes a.watcher.subscription) first n)
    (ha : n.attempts[k]? = some a) (hcfg : n.config? a.slot = some cfg)
    (hreport : a.report = some report) :
    (∃ s, Told (Act.Spares takes a.watcher.subscription) first cfg k n s) ∧
      ∀ s, Told (Act.Spares takes a.watcher.subscription) first cfg k n s →
        s.Justifies cfg a.peer report := by
  refine ⟨?_, fun s hs => (hs.tells hσ ha).justifies hreport⟩
  obtain ⟨s, hs, -⟩ := exists_told hσ hfirst hnew h ha rfl fun c hc =>
    Option.some.inj (hc.symm.trans hcfg)
  exact ⟨s, hs⟩

/-- The status of a node on another network. -/
def foreignStatus : Eth.Status := { Eth.Status.mainnet with networkId := 5 }

/-- Settings with a status exchange that notes mismatches. -/
def annotating : AttemptConfig := { plainConfig with exchange := some {} }

/-- A node whose peers answer dials, with a connection on which a peer has sent its status: an
attempt on the peer has ended. -/
def exchangedNode : Node InProcess :=
  (create (.create (some ownRef) [⟨none, none, .event .added none⟩]) annotating 1000).perform
    [.call 0, .attempt 0, .watcher 0] 30
    [.move (InProcess.Move.attach (.pipe ⟨guestRef,
        [.ofPayload Eth.Code.status (Eth.rlpBytes foreignStatus)], [], true, true⟩)),
      .order (.attempt false 1 guestRef 1000)]

/-- The attempt reports a connection, the status of the peer and the mismatch; a story of the run
justifies that. -/
theorem justifies_of_told_exchangedNode :
    ∃ first a report, Reachable (Act.Spares InProcess.Move.takes 0) first exchangedNode ∧
      exchangedNode.attempts[0]? = some a ∧ a.report = some report ∧
      report = ⟨guestRef, .connected guestRef, some foreignStatus, [.networkMismatch 1 5]⟩ ∧
      (∃ s, Told (Act.Spares InProcess.Move.takes 0) first annotating 0 exchangedNode s) ∧
        ∀ s, Told (Act.Spares InProcess.Move.takes 0) first annotating 0 exchangedNode s →
          s.Justifies annotating a.peer report := by
  have hreachable : Reachable (Act.Spares InProcess.Move.takes 0) _ exchangedNode :=
    reachable_perform _ _ _ (by simp [Act.Spares, InProcess.Move.takes])
  obtain ⟨a, ha⟩ : ∃ a, exchangedNode.attempts[0]? = some a :=
    Option.isSome_iff_exists.mp (by decide +kernel)
  have hfacts : (exchangedNode.attempts[0]?.map fun a =>
      (exchangedNode.config? a.slot, a.watcher.subscription, a.report)) =
        some (some annotating, 0, some
          ⟨guestRef, .connected guestRef, some foreignStatus, [.networkMismatch 1 5]⟩) := by
    decide +kernel
  rw [ha, Option.map_some, Option.some.injEq, Prod.mk.injEq, Prod.mk.injEq] at hfacts
  obtain ⟨hcfg, hsubscription, hreport⟩ := hfacts
  refine ⟨_, a, _, hreachable, ha, hreport, rfl, ?_⟩
  have htold := justifies_of_told (k := 0) InProcess.publishes
    (subscribed_create _ _ _ _) rfl (hsubscription ▸ hreachable) ha hcfg hreport
  rwa [hsubscription] at htold

end Node

end PeerProbe
