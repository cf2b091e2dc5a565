import PeerProbe.Node.Schedule
import PeerProbe.Proofs.Attempt.Heeding
import PeerProbe.Proofs.Node.Ownership
import PeerProbe.Proofs.Run
import PeerProbe.Proofs.Transport.Handout

/-!
# Whether a held connection outlives a removal

A connection is taken from the transport by an attempt, which may exchange statuses over it and
then hands it over to a task that holds the peer. That task subscribes when it is made, so from
then on it is warned of whatever disconnects its peer, and lets go.

Nobody listens for the attempt between the two moments. What disconnects the peer meanwhile, a
removal during the exchange or a stop with a start behind it, is never seen by the task, and nothing
later makes up for it: the transport has forgotten the connection, so another removal is silent too.
-/

namespace PeerProbe

namespace Node

open InProcess (Disconnects Remembers Numbered Watched Addressed HandedOut)

variable {i j m : Nat} {c : ConnId} {id : NodeId} {n n' first : Node InProcess}

/-- A run of a node in which other users of the transport leave a subscription to its owner. -/
abbrev SparingRun (i : Nat) (first : Node InProcess) : Type :=
  Run (Happens (Act.Spares InProcess.Move.takes i)) first

/-! ## One step -/

/-- What has become of a held peer in one step, or in none. -/
structure Continues (i j : Nat) (n : Node InProcess) (h : HeldPeer) (n' : Node InProcess)
    (h' : HeldPeer) : Prop where
  conn : h'.conn = h.conn
  peer : h'.peer = h.peer
  subscription : h'.subscription = h.subscription
  sole : n'.Sole (.held j) i
  numbered : n.transport.Numbered n'.transport
  watched : h'.phase = .holding → h'.watching = true →
    h.phase = .holding ∧ h.watching = true ∧ Watched i h.peer.id n.transport n'.transport
  deaf : h'.watching = false → h.watching = false ∨ HeldPeer.Deafens n.transport i

/-- Nothing may have become of it. -/
theorem Continues.refl (hsole : n.Sole (.held j) i) (h : HeldPeer) : Continues i j n h n h :=
  ⟨rfl, rfl, rfl, hsole, (InProcess.Quiet.refl _).numbered,
    fun hholding hwatching => ⟨hholding, hwatching, .refl _ _ _⟩, .inl⟩

/-- A step of its own task, which looks at what it is warned of. -/
theorem continues_of_own {h h' : HeldPeer} (hsole : n'.Sole (.held j) i)
    (hown : n.step? (.held j) = some n') (hj : n.held[j]? = some h) (hj' : n'.held[j]? = some h')
    (hi : h.subscription = i) : Continues i j n h n' h' := by
  obtain ⟨r, hr, hheld, htransport⟩ := exists_step?_of_held hown hj
  obtain rfl := Option.some.inj (hj'.symm.trans hheld)
  subst hi
  obtain ⟨hconn, hpeer⟩ := HeldPeer.same_of_step? hr
  refine ⟨hconn, hpeer, HeldPeer.subscription_of_step? hr, hsole,
    bridged_of_step? InProcess.bridges_numbered hown fun _ _ => trivial, ?_,
    HeldPeer.deafens_of_step? hr⟩
  rw [htransport]
  exact HeldPeer.watched_of_step? hr

/-- Whatever happens, a held peer's task listens to one subscription. -/
theorem subscription_of_happens {allowed : Act InProcess → Prop} {h h' : HeldPeer}
    (hstep : Happens allowed n n') (hj : n.held[j]? = some h) (hj' : n'.held[j]? = some h') :
    h'.subscription = h.subscription := by
  obtain hsame | ⟨-, r, hr, hheld⟩ := held_of_happens hstep hj
  · rw [Option.some.inj (hj'.symm.trans hsame)]
  · rw [Option.some.inj (hj'.symm.trans hheld)]
    exact HeldPeer.subscription_of_step? hr

/-- Whatever happens, a held peer continues. -/
theorem continues_of_happens {h h' : HeldPeer} (hsole : n.Sole (.held j) i)
    (hstep : Happens (Act.Spares InProcess.Move.takes i) n n') (hj : n.held[j]? = some h)
    (hj' : n'.held[j]? = some h') (hi : h.subscription = i) : Continues i j n h n' h' := by
  have hsole' := hsole.happens InProcess.publishes hstep
  by_cases hown : n.step? (.held j) = some n'
  · exact continues_of_own hsole' hown hj hj' hi
  · obtain hsame | ⟨hown', -⟩ := held_of_happens hstep hj
    · obtain rfl := Option.some.inj (hj'.symm.trans hsame)
      have hwatched (id : NodeId) : Watched i id n.transport n'.transport := by
        cases hstep with
        | act act hspares =>
          exact bridged_of_act (InProcess.bridges_watched i id) hspares.ne_of_takes
        | step task hstep =>
          refine bridged_of_step? (InProcess.bridges_watched i id) hstep fun k hk => ?_
          rintro rfl
          exact hsole.others task (fun htask => hown (htask ▸ hstep)) hk
      exact ⟨rfl, rfl, rfl, hsole', bridged_of_happens InProcess.bridges_numbered hstep,
        fun hholding hwatching => ⟨hholding, hwatching, hwatched _⟩, .inl⟩
    · exact absurd hown' hown

/-! ## Times of a run -/

variable {r : SparingRun i first}

/-- An identity is disconnected after one time of a run and before another one. -/
def Disconnected (r : SparingRun i first) (id : NodeId) (a b : Nat) : Prop :=
  ∃ k, a < k ∧ k < b ∧ Disconnects id (r.state k).transport (r.state (k + 1)).transport

theorem disconnected_succ_iff {a : Nat} (ham : a < m) :
    Disconnected r id a (m + 1) ↔
      Disconnected r id a m ∨ Disconnects id (r.state m).transport (r.state (m + 1)).transport := by
  constructor
  · rintro ⟨k, hak, hkm, hk⟩
    obtain hlt | rfl := Nat.lt_or_eq_of_le (Nat.le_of_lt_succ hkm)
    · exact .inl ⟨k, hak, hlt, hk⟩
    · exact .inr hk
  · rintro (⟨k, hak, hkm, hk⟩ | hm)
    · exact ⟨k, hak, Nat.lt_succ_of_lt hkm, hk⟩
    · exact ⟨m, ham, Nat.lt_succ_self m, hm⟩

theorem remembers_of_run (r : SparingRun i first) (id : NodeId) (k : Nat) :
    Remembers id (r.state k).transport (r.state (k + 1)).transport := by
  obtain hstep | hstay := r.next k
  · exact bridged_of_happens (InProcess.bridges_remembers id) hstep
  · rw [hstay]
    exact (InProcess.bridges_remembers id).refl _

/-- Connections are numbered from any time of a run to any later one. -/
theorem numbered_of_run (r : SparingRun i first) {k : Nat} (hkm : k ≤ m) :
    (r.state k).transport.Numbered (r.state m).transport :=
  r.onwards (p := fun n => (r.state k).transport.Numbered n.transport)
    (fun _ _ hstep hn => hn.trans (bridged_of_happens InProcess.bridges_numbered hstep)) hkm
    (InProcess.Quiet.refl _).numbered

/-- An identity is remembered until it is disconnected. -/
theorem remembered_or_disconnected {a : Nat} (ham : a < m)
    (hid : id ∈ (r.state (a + 1)).transport.taken) :
    id ∈ (r.state m).transport.taken ∨ Disconnected r id a m := by
  induction ham with
  | refl => exact .inl hid
  | step ham ih =>
    rename_i m
    rw [disconnected_succ_iff ham]
    obtain hid' | hbefore := ih
    · exact ((remembers_of_run r id m).taken hid').imp_right .inr
    · exact .inr (.inl hbefore)

/-! ## From the take to the hand-over -/

/-- A node whose transport has no connections yet, and of whose tasks none has begun. -/
structure Untouched (n : Node InProcess) : Prop where
  addressed : n.transport.Addressed
  attempts : n.attempts = []
  held : n.held = []
  subscribed : ∀ i, n.Subscribed i

/-- A new node on a new transport is untouched. -/
theorem untouched_create (self : Option PeerRef) (rules : List DialRule)
    (startError : Option String) (startDelay stopDelay : Nat) (cfg : AttemptConfig) (timeout : Nat) :
    (create { InProcess.create self rules with startError, startDelay, stopDelay } cfg
      timeout).Untouched :=
  ⟨nofun, rfl, rfl, subscribed_create _ cfg timeout⟩

theorem Untouched.addressed_of_run (hfirst : first.Untouched) (r : SparingRun i first) (m : Nat) :
    (r.state m).transport.Addressed :=
  r.always (p := fun n => n.transport.Addressed) hfirst.addressed
    (fun _ _ hstep hn => hn.numbered (bridged_of_happens InProcess.bridges_numbered hstep)) m

theorem Untouched.subscribed_of_run (hfirst : first.Untouched) (r : SparingRun i first) (m : Nat) :
    (r.state m).Subscribed i :=
  r.always (p := fun n => n.Subscribed i) (hfirst.subscribed i)
    (fun _ _ hstep hn => hn.happens InProcess.publishes hstep) m

/-- What an attempt owns at some time was taken before. -/
theorem Untouched.exists_takes (hfirst : first.Untouched) (r : SparingRun i first)
    (hc : some c ∈ (r.state m).owned) : ∃ a < m, Takes c (r.state a) (r.state (a + 1)) := by
  induction m with
  | zero =>
    rw [r.state_zero, owned, hfirst.attempts] at hc
    contradiction
  | succ m ih =>
    have hearlier (hm : some c ∈ (r.state m).owned) :
        ∃ a < m + 1, Takes c (r.state a) (r.state (a + 1)) := by
      obtain ⟨a, ham, htakes⟩ := ih hm
      exact ⟨a, Nat.lt_succ_of_lt ham, htakes⟩
    obtain hstep | hstay := r.next m
    · obtain hm | htakes := owned_origin hstep hc
      · exact hearlier hm
      · exact ⟨m, Nat.lt_succ_self m, htakes⟩
    · exact hearlier (hstay ▸ hc)

/-- A connection is taken once at most. -/
theorem Untouched.takes_unique (hfirst : first.Untouched) (r : SparingRun i first) {a b : Nat}
    (ha : Takes c (r.state a) (r.state (a + 1))) (hb : Takes c (r.state b) (r.state (b + 1))) :
    a = b := by
  have hnot {a b : Nat} (hab : a < b) (ha : Takes c (r.state a) (r.state (a + 1))) :
      ¬ Takes c (r.state b) (r.state (b + 1)) := by
    obtain ⟨p, htake⟩ := ha
    obtain ⟨q, -, -, hout⟩ := (hfirst.addressed_of_run r a).take htake
    rintro ⟨p', htake'⟩
    exact (hout.numbered (numbered_of_run r hab)).take_ne htake'
  obtain hlt | heq | hgt := Nat.lt_trichotomy a b
  · exact absurd hb (hnot hlt ha)
  · exact heq
  · exact absurd ha (hnot hgt hb)

/-- To hand a connection over disconnects nobody and forgets nobody. -/
theorem HandsOver.calm {h : HeldPeer} (hands : HandsOver j h n n') :
    n.transport.Calm n'.transport := by
  rw [hands.transport]
  exact ⟨rfl, fun hrunning => hrunning, fun _ hid => hid⟩

/-- What is known about a held peer at some time, whose connection was taken at one time and handed
over at another: who is at its other end, that its task alone listens to its subscription, and what
that task knows. -/
structure Tracked (r : SparingRun i first) (j a b m : Nat) (h : HeldPeer) : Prop where
  lt : b < m
  peer : (r.state m).transport.peers[h.conn]? = some h.peer
  sole : (r.state m).Sole (.held j) i
  heeds : h.phase = .holding → h.watching = true → ¬ Disconnected r h.peer.id a b →
    ((r.state m).transport.feed.get i).Warns h.peer.id ∨
      h.peer.id ∈ (r.state m).transport.taken ∧ ¬ Disconnected r h.peer.id a m
  deaf : h.watching = false → ∃ k, b < k ∧ k < m ∧ HeldPeer.Deafens (r.state k).transport i

/-- What is known goes on being known. -/
theorem Tracked.next {a b : Nat} {h h' : HeldPeer} (ht : Tracked r j a b m h) (hab : a < b)
    (hnext : Continues i j (r.state m) h (r.state (m + 1)) h') : Tracked r j a b (m + 1) h' where
  lt := Nat.lt_succ_of_lt ht.lt
  peer := by
    rw [hnext.conn, hnext.peer]
    exact hnext.numbered.peer ht.peer
  sole := hnext.sole
  heeds hholding hwatching hbefore := by
    obtain ⟨hholding, hwatching, hwatched⟩ := hnext.watched hholding hwatching
    rw [hnext.peer] at hbefore ⊢
    have hi := ht.sole.lt_next
    obtain hwarns | ⟨hid, hnot⟩ := ht.heeds hholding hwatching hbefore
    · exact .inl (hwatched.warned hi hwarns)
    · refine (hwatched.taken hi hid).imp_right fun ⟨hid', hnow⟩ => ⟨hid', ?_⟩
      rw [disconnected_succ_iff (Nat.lt_trans hab ht.lt)]
      exact not_or_intro hnot hnow
  deaf hdeaf := by
    obtain hbefore | hdeafens := hnext.deaf hdeaf
    · obtain ⟨k, hbk, hkm, hk⟩ := ht.deaf hbefore
      exact ⟨k, hbk, Nat.lt_succ_of_lt hkm, hk⟩
    · exact ⟨m, ht.lt, Nat.lt_succ_self m, hdeafens⟩

/-- A peer that is handed over is tracked from then on. -/
theorem Untouched.tracked_of_handsOver (hfirst : first.Untouched) {h : HeldPeer} {a b : Nat}
    (htakes : Takes h.conn (r.state a) (r.state (a + 1))) (hab : a < b)
    (hands : HandsOver j h (r.state b) (r.state (b + 1))) (hi : h.subscription = i) :
    Tracked r j a b (b + 1) h := by
  obtain ⟨p, htake⟩ := htakes
  obtain ⟨q, hq, hid, -⟩ := (hfirst.addressed_of_run r a).take htake
  have hq' := (numbered_of_run r (Nat.le_succ_of_le hab)).peer hq
  obtain ⟨reading, hcreated⟩ := hands.created
  have hpeer : h.peer = q := by
    rw [hcreated]
    exact InProcess.remote_eq hq'
  have hnext : h.subscription = (Transport.feed (r.state b).transport).next := by
    rw [hcreated]
    rfl
  obtain hstep | hstay := r.next b
  · refine ⟨Nat.lt_succ_self b, by rw [hpeer, hq'], ?_, fun _ _ hbefore => .inr ⟨?_, ?_⟩, ?_⟩
    · refine (hfirst.subscribed_of_run r b).sole InProcess.publishes hstep (hi.symm.trans hnext) ?_
      simp [subscription?, hands.present, hi]
    · rw [hpeer] at hbefore ⊢
      exact hands.calm.taken _ ((remembered_or_disconnected hab hid).resolve_right hbefore)
    · rw [disconnected_succ_iff hab]
      exact not_or_intro hbefore hands.calm.not_disconnects
    · rw [hcreated]
      intro hdeaf
      cases hdeaf
  · have habsent := hands.absent
    rw [← hstay, hands.present] at habsent
    contradiction

/-- Every held peer that listens to the subscription is tracked since its connection was taken and
handed over. -/
theorem Untouched.exists_tracked (hfirst : first.Untouched) (r : SparingRun i first) {h : HeldPeer}
    (hj : (r.state m).held[j]? = some h) (hi : h.subscription = i) :
    ∃ a b, a < b ∧ Takes h.conn (r.state a) (r.state (a + 1)) ∧
      (∃ h₀, h₀.conn = h.conn ∧ HandsOver j h₀ (r.state b) (r.state (b + 1))) ∧
        Tracked r j a b m h := by
  induction m generalizing h with
  | zero =>
    rw [r.state_zero, hfirst.held] at hj
    contradiction
  | succ m ih =>
    have hgoesOn {h₀ : HeldPeer} (hj₀ : (r.state m).held[j]? = some h₀) (hi₀ : h₀.subscription = i)
        (hcontinues : (r.state m).Sole (.held j) i →
          Continues i j (r.state m) h₀ (r.state (m + 1)) h) :
        ∃ a b, a < b ∧ Takes h.conn (r.state a) (r.state (a + 1)) ∧
          (∃ h₀, h₀.conn = h.conn ∧ HandsOver j h₀ (r.state b) (r.state (b + 1))) ∧
            Tracked r j a b (m + 1) h := by
      obtain ⟨a, b, hab, htakes, hands, htracked⟩ := ih hj₀ hi₀
      have hnext := hcontinues htracked.sole
      rw [← hnext.conn] at htakes hands
      exact ⟨a, b, hab, htakes, hands, htracked.next hab hnext⟩
    obtain hstep | hstay := r.next m
    · obtain ⟨h₀, hj₀⟩ | hands := held_origin hstep hj
      · have hi₀ := (subscription_of_happens hstep hj₀ hj).symm.trans hi
        exact hgoesOn hj₀ hi₀ fun hsole => continues_of_happens hsole hstep hj₀ hj hi₀
      · obtain ⟨a, ham, htakes⟩ := hfirst.exists_takes r hands.owned
        exact ⟨a, m, ham, htakes, ⟨h, rfl, hands⟩,
          hfirst.tracked_of_handsOver htakes ham hands hi⟩
    · rw [hstay] at hj
      exact hgoesOn hj hi fun hsole => hstay ▸ .refl hsole h

/-! ## Runs -/

/-- How a peer is held whose connection was taken at one time of a run and handed over at another.
Its task, once it has nothing to do, has missed what disconnected the peer before the hand-over,
and has heeded the rest, unless it has stopped looking at its events, which it does only when its
subscription overflowed or failed. -/
structure HeldSince (r : SparingRun i first) (j m : Nat) (h : HeldPeer) (a b : Nat) : Prop where
  order : a < b ∧ b < m
  taken : Takes h.conn (r.state a) (r.state (a + 1))
  handed : ∃ h₀, h₀.conn = h.conn ∧ HandsOver j h₀ (r.state b) (r.state (b + 1))
  remote : (r.state m).transport.remote h.conn = h.peer
  disconnected_iff : h.phase = .holding → (r.state m).step? (.held j) = none →
    (Disconnected r h.peer.id a m ↔
      Disconnected r h.peer.id a b ∨ h.watching = false ∧ Disconnected r h.peer.id b m)
  deaf : h.watching = false → ∃ k, b < k ∧ k < m ∧ HeldPeer.Deafens (r.state k).transport i

/-- How a run treats removals and stops: every connection is taken once at most, and every peer that
is held, with the subscription that others leave alone, is held since its connection was taken and
handed over. -/
structure RemovalsHeeded (r : SparingRun i first) : Prop where
  once (c : ConnId) (a b : Nat) : Takes c (r.state a) (r.state (a + 1)) →
    Takes c (r.state b) (r.state (b + 1)) → a = b
  held (m j : Nat) (h : HeldPeer) : (r.state m).held[j]? = some h → h.subscription = i →
    ∃ a b, HeldSince r j m h a b

/-- What disconnects an identity between two times does so before or behind a time in between. -/
theorem disconnected_split {a b : Nat} (hab : a < b) (hbm : b < m)
    (hb : ¬ Disconnects id (r.state b).transport (r.state (b + 1)).transport) :
    Disconnected r id a m ↔ Disconnected r id a b ∨ Disconnected r id b m := by
  constructor
  · rintro ⟨k, hak, hkm, hk⟩
    obtain hlt | rfl | hgt := Nat.lt_trichotomy k b
    · exact .inl ⟨k, hak, hlt, hk⟩
    · exact absurd hk hb
    · exact .inr ⟨k, hgt, hkm, hk⟩
  · rintro (⟨k, hak, hkb, hk⟩ | ⟨k, hbk, hkm, hk⟩)
    · exact ⟨k, hak, Nat.lt_trans hkb hbm, hk⟩
    · exact ⟨k, Nat.lt_trans hab hbk, hkm, hk⟩

/-- A task that has nothing to do has heeded everything since the hand-over, or is deaf. -/
theorem Tracked.disconnected_iff {a b : Nat} {h : HeldPeer} (ht : Tracked r j a b m h) (hab : a < b)
    (hb : ¬ Disconnects h.peer.id (r.state b).transport (r.state (b + 1)).transport)
    (hj : (r.state m).held[j]? = some h) (hi : h.subscription = i) (hholding : h.phase = .holding)
    (hsettled : (r.state m).step? (.held j) = none) :
    Disconnected r h.peer.id a m ↔
      Disconnected r h.peer.id a b ∨ h.watching = false ∧ Disconnected r h.peer.id b m := by
  have hsplit := disconnected_split hab ht.lt hb
  constructor
  · intro hdisconnected
    by_cases hbefore : Disconnected r h.peer.id a b
    · exact .inl hbefore
    · refine .inr ⟨Bool.eq_false_iff.mpr fun hwatching => ?_,
        (hsplit.mp hdisconnected).resolve_left hbefore⟩
      have hnothing : h.step? (r.state m).now (r.state m).transport = none := by
        simpa [step?, hj, heldStep?] using hsettled
      have hquiet := HeldPeer.not_warns_of_step?_eq_none hholding hwatching hnothing h.peer.id
      rw [hi] at hquiet
      obtain hwarns | ⟨-, hnot⟩ := ht.heeds hholding hwatching hbefore
      · exact hquiet hwarns
      · exact hnot hdisconnected
  · exact fun h' => hsplit.mpr (h'.imp_right And.right)

/-- Every run of a new node treats removals and stops so. -/
theorem removalsHeeded_of_run (self : Option PeerRef) (rules : List DialRule)
    (startError : Option String) (startDelay stopDelay : Nat) (cfg : AttemptConfig) (timeout : Nat)
    (r : SparingRun i (create
      { InProcess.create self rules with startError, startDelay, stopDelay } cfg timeout)) :
    RemovalsHeeded r := by
  have hfirst := untouched_create self rules startError startDelay stopDelay cfg timeout
  refine ⟨fun _ _ _ => hfirst.takes_unique r, fun m j h hj hi => ?_⟩
  obtain ⟨a, b, hab, htakes, ⟨h₀, hconn, hands⟩, htracked⟩ := hfirst.exists_tracked r hj hi
  exact ⟨a, b, ⟨hab, htracked.lt⟩, htakes, ⟨h₀, hconn, hands⟩,
    InProcess.remote_eq htracked.peer,
    htracked.disconnected_iff hab hands.calm.not_disconnects hj hi, htracked.deaf⟩

/-! ## A removal during the exchange -/

/-- Only a task that the node has takes a step. -/
theorem mem_allTasks_of_step? {task : Task} (h : n.step? task = some n') :
    task ∈ Schedule.allTasks n := by
  have hlt {α : Type} {l : List α} {k : Nat} {x : α} (hx : l[k]? = some x) : k < l.length :=
    (List.getElem?_eq_some_iff.mp hx).1
  have hbackground {k : Nat} {t : InProcess} (ht : n.transport.background n.now k = some t) :
      k < n.transport.delayed.length := by
    unfold InProcess.background at ht
    split at ht
    · next hk => exact hlt hk
    · next hk => exact hlt hk
    · contradiction
  have hcount : Transport.backgroundCount n.transport = n.transport.delayed.length := rfl
  unfold Schedule.allTasks
  rw [hcount]
  cases stepped_of_step? h with
  | attempt ha => simp [hlt ha]
  | watcher ha => simp [hlt ha]
  | openWatch hw => simp [hlt hw]
  | held hh => simp [hlt hh]
  | call hc => simp [hlt hc]
  | background ht => simp [hbackground ht]

/-- Something is done to a node, and its tasks go on for a while. -/
def doing (a : Act InProcess) : List (Node InProcess → Node InProcess) :=
  (·.act a) :: List.replicate 14 (·.runTasks someTasks 1)

/-- A peer is added; while its attempt waits for the status the peer is removed, and then the status
comes in. -/
def removalMeanwhile : List (Act InProcess) :=
  [.order .start, .move (.attach (.pipe ⟨localPeer 1, [], [], true, true⟩)),
    .order (.addPeer (localPeer 1).text none), .order (.removePeer (localPeer 1).text),
    .move (.remoteSend 0 (.ofPayload Eth.Code.status (Eth.rlpBytes Eth.Status.mainnet)))]

/-- One of some tasks goes on, or none can. -/
theorem happens_runTasks {allowed : Act InProcess → Prop} (tasks : List Task)
    (n : Node InProcess) : Happens allowed n (n.runTasks tasks 1) ∨ n.runTasks tasks 1 = n := by
  simp only [runTasks]
  split
  · next n' hstep =>
    obtain ⟨task, -, htask⟩ := List.exists_of_findSome?_eq_some hstep
    exact .inl (.step task htask)
  · exact .inr rfl

/-- What is done there leaves all subscriptions alone, and so do the tasks behind it. -/
theorem happens_removalMeanwhile (i : Nat) :
    ∀ f ∈ removalMeanwhile.flatMap doing, ∀ n,
      Happens (Act.Spares InProcess.Move.takes i) n (f n) ∨ f n = n := by
  have hspares : ∀ a ∈ removalMeanwhile, a.Spares InProcess.Move.takes i := by
    simp [removalMeanwhile, Act.Spares, InProcess.Move.takes]
  intro f hf n
  obtain ⟨a, ha, hdo⟩ := List.mem_flatMap.mp hf
  obtain rfl | hrun := List.mem_cons.mp hdo
  · exact .inl (.act n a (hspares a ha))
  · obtain rfl := List.eq_of_mem_replicate hrun
    exact happens_runTasks someTasks n

/-- The run in which that happens. -/
def removalRun : SparingRun 1 newNode :=
  .perform (removalMeanwhile.flatMap doing) (happens_removalMeanwhile 1) newNode

set_option maxRecDepth 10000 in
/-- The connection is taken, then the peer is removed, and at the end its task holds it, looks at
its events and has nothing to do, as all tasks have. -/
theorem facts_removalRun :
    some 0 ∉ (removalRun.state 43).owned ∧ some 0 ∈ (removalRun.state 44).owned ∧
      (removalRun.state 46).transport.removalsOf (localPeer 1).id <
        (removalRun.state 47).transport.removalsOf (localPeer 1).id ∧
      ((removalRun.state 75).held[0]?.any fun h =>
        decide (h.conn = 0 ∧ h.peer = localPeer 1 ∧ h.subscription = 1 ∧ h.watching = true ∧
          h.phase = .holding)) = true ∧
      (Schedule.allTasks (removalRun.state 75)).all
        (fun task => ((removalRun.state 75).step? task).isNone) = true := by
  refine ⟨?_, ?_, ?_, ?_, ?_⟩ <;> decide +kernel

/-- A task may hold a connection whose peer was removed since the connection was taken, although it
still looks at its events and no task has anything left to do. -/
theorem not_heeded_of_removalRun :
    ¬ ∀ (self : Option PeerRef) (rules : List DialRule) (startError : Option String)
        (startDelay stopDelay : Nat) (cfg : AttemptConfig) (timeout i : Nat)
        (r : SparingRun i (create
          { InProcess.create self rules with startError, startDelay, stopDelay } cfg timeout))
        (m j a : Nat) (h : HeldPeer),
        (r.state m).held[j]? = some h → h.subscription = i → h.phase = .holding →
          h.watching = true → (∀ task, (r.state m).step? task = none) →
            Takes h.conn (r.state a) (r.state (a + 1)) → a < m →
              ¬ Disconnected r h.peer.id a m := by
  intro hheeded
  obtain ⟨hbefore, htaken, hremoved, hheld, hall⟩ := facts_removalRun
  obtain ⟨h, hj, hfacts⟩ := (Option.any_eq_true _ _).mp hheld
  obtain ⟨hconn, hpeer, hsubscription, hwatching, hholding⟩ := of_decide_eq_true hfacts
  have htakes : Takes 0 (removalRun.state 43) (removalRun.state 44) := by
    obtain hstep | hstay := removalRun.next 43
    · exact (owned_origin hstep htaken).resolve_left hbefore
    · rw [hstay] at htaken
      exact absurd htaken hbefore
  have hsettled (task : Task) : (removalRun.state 75).step? task = none := by
    cases hstep : (removalRun.state 75).step? task with
    | none => rfl
    | some n' =>
      have hnone := List.all_eq_true.mp hall task (mem_allTasks_of_step? hstep)
      rw [hstep, Option.isNone_some] at hnone
      exact absurd hnone Bool.false_ne_true
  refine hheeded _ _ none 0 0 exchanging 1000 1 removalRun 75 0 43 h hj hsubscription hholding
    hwatching hsettled ?_ (by decide) ⟨46, by decide, by decide, .inl ?_⟩
  · rw [hconn]
    exact htakes
  · rw [hpeer]
    exact hremoved

end Node

end PeerProbe
