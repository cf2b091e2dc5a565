import PeerProbe.Proofs.Discovery.Datagrams
import PeerProbe.Proofs.Discovery.Reception

/-!
# What decides a probe

A probe listens to one thing at a time: first to the pong with its nonce, then to a list of nodes, each
from exactly the endpoint it asked. All else that comes in passes it by. So its course is told by the
first pong and the first list behind it, and nobody else can change it: not with a datagram between
two others, and not with one fewer.

The course of a probe (`Probe.follow`) is its result together with when it came and with what was sent
on the way. A wait begins anew where something was sent.
-/

namespace PeerProbe.Discovery.Probe

/-- How a probe ends: the probe, when that was, and what it sent on the way. -/
structure Course where
  probe : Probe
  time : Nat
  sent : List (Nat × Packet)

/-- A probe whose wait that began at `since` is over. -/
def expiry (p : Probe) (since : Nat) : Course := ⟨p.expire.probe, since + p.limit.nanos, []⟩

/-- A course with something sent in front. -/
def Course.after (sent : List (Nat × Packet)) (c : Course) : Course := { c with sent := sent ++ c.sent }

/-- Follow a waiting probe to its end. -/
def follow (p : Probe) (since : Nat) : List Arrival → Option Course
  | [] => some (p.expiry since)
  | a :: rest =>
    if since + p.limit.nanos < a.time then some (p.expiry since)
    else
      match p.receive? ⟨a.time - since⟩ a.source a.datagram with
      | none => none
      | some s =>
        let sent := s.sends.map (a.time, ·)
        match s.probe.phase with
        | .done _ => some ⟨s.probe, a.time, sent⟩
        | _ => (s.probe.follow (if sent.isEmpty then since else a.time) rest).map (Course.after sent)

/-- Datagrams in the order of reception. -/
def InOrder (arrivals : List Arrival) : Prop := arrivals.Pairwise fun a b => a.time ≤ b.time

/-- A probe that is not done. -/
def Waits (p : Probe) : Prop := p.phase = .awaitPong ∨ p.phase = .awaitNeighbors

variable {p : Probe} {a x : Arrival} {since : Nat} {rest front back arrivals : List Arrival}
  {nodes : List PeerRef} {lookup : NodeId}

/-! ## One datagram at a time -/

theorem follow_late (h : since + p.limit.nanos < a.time) :
    p.follow since (a :: rest) = some (p.expiry since) := if_pos h

/-- What is not awaited passes by. -/
theorem follow_skip (hwaits : p.Waits) (hread : Readable a) (h : ¬p.Awaits a)
    (hin : a.time ≤ since + p.limit.nanos) : p.follow since (a :: rest) = p.follow since rest := by
  obtain ⟨s, hs⟩ := exists_receive? p ⟨a.time - since⟩ hread
  obtain ⟨entries, rfl⟩ := eq_ignored_of_receive? h hs
  have hsame : Course.after [] = id := rfl
  rw [follow, if_neg (Nat.not_lt_of_le hin), hs]
  obtain hphase | hphase := hwaits <;> simp [hphase, hsame]

/-- A ping is over with its pong. -/
theorem follow_ping (hphase : p.phase = .awaitPong) (h : p.IsPong a) (hgoal : p.goal = .ping)
    (hin : a.time ≤ since + p.limit.nanos) :
    p.follow since (a :: rest) = some ⟨{ p with phase := .done (.ok []) }, a.time, []⟩ := by
  rw [follow, if_neg (Nat.not_lt_of_le hin), receive?_pong hphase h, onPong, hgoal]
  rfl

/-- Behind the pong the lookup is sent, and another wait begins. -/
theorem follow_findNode (hphase : p.phase = .awaitPong) (h : p.IsPong a)
    (hgoal : p.goal = .findNode lookup) (hin : a.time ≤ since + p.limit.nanos) :
    p.follow since (a :: rest) = (({ p with phase := .awaitNeighbors } : Probe).follow a.time rest).map
      (Course.after [(a.time, .findNode lookup.hex)]) := by
  rw [follow, if_neg (Nat.not_lt_of_le hin), receive?_pong hphase h, onPong, hgoal]
  rfl

/-- A lookup is over with its nodes. -/
theorem follow_answer (hphase : p.phase = .awaitNeighbors) (h : p.IsAnswer nodes a)
    (hin : a.time ≤ since + p.limit.nanos) :
    p.follow since (a :: rest) = some ⟨{ p with phase := .done (.ok nodes) }, a.time, []⟩ := by
  rw [follow, if_neg (Nat.not_lt_of_le hin), receive?_answer hphase h]
  rfl

/-! ## One wait -/

/-- What a wait hears until its deadline: nothing it wants, or the first of it, with what comes behind. -/
inductive Hears (wanted : Arrival → Prop) (deadline : Nat) (arrivals : List Arrival) :
    Option (Arrival × List Arrival) → Prop where
  | nothing (h : ∀ a ∈ arrivals, wanted a → deadline < a.time) : Hears wanted deadline arrivals none
  | first {front back : List Arrival} {a : Arrival} (heq : arrivals = front ++ a :: back)
      (hfront : ∀ b ∈ front, ¬wanted b) (ha : wanted a) (hin : a.time ≤ deadline) :
      Hears wanted deadline arrivals (some (a, back))

/-- What comes behind something late is late. -/
theorem InOrder.late {deadline : Nat} (h : InOrder (a :: rest)) (hlate : deadline < a.time) :
    ∀ b ∈ a :: rest, deadline < b.time :=
  List.forall_mem_cons.mpr ⟨hlate, fun b hb =>
    Nat.lt_of_lt_of_le hlate ((List.pairwise_cons.mp h).1 b hb)⟩

/-- A wait hears the first of what it wants or nothing of it, and goes on from there. -/
theorem exists_hears (hwaits : p.Waits) (horder : InOrder arrivals) (hread : ∀ a ∈ arrivals, Readable a)
    (since : Nat) : ∃ heard, Hears p.Awaits (since + p.limit.nanos) arrivals heard ∧
      p.follow since arrivals = match heard with
        | none => some (p.expiry since)
        | some (a, back) => p.follow since (a :: back) := by
  induction arrivals with
  | nil => exact ⟨none, .nothing (List.forall_mem_nil _), rfl⟩
  | cons a rest ih =>
    by_cases hlate : since + p.limit.nanos < a.time
    · exact ⟨none, .nothing fun b hb _ => horder.late hlate b hb, follow_late hlate⟩
    have hin := Nat.le_of_not_lt hlate
    by_cases ha : p.Awaits a
    · exact ⟨some (a, rest), .first (List.nil_append _).symm (List.forall_mem_nil _) ha hin, rfl⟩
    -- What is not awaited is in front of whatever is heard.
    obtain ⟨hreadable, hrest⟩ := List.forall_mem_cons.mp hread
    obtain ⟨heard, hheard, hfollow⟩ := ih (List.pairwise_cons.mp horder).2 hrest
    refine ⟨heard, ?_, (follow_skip hwaits hreadable ha hin).trans hfollow⟩
    cases hheard with
    | nothing h => exact .nothing (List.forall_mem_cons.mpr ⟨fun h => absurd h ha, h⟩)
    | first heq hfront hwanted hin =>
      exact .first (congrArg (a :: ·) heq) (List.forall_mem_cons.mpr ⟨ha, hfront⟩) hwanted hin

/-! ## The course of a probe -/

/-- How a probe that waits for its pong can end: without it, with it, or behind it without or with the
nodes. The lookup is sent when the pong comes, and its wait begins there. -/
inductive Ends (p : Probe) (since : Nat) (arrivals : List Arrival) : Course → Prop where
  | silent (h : ∀ a ∈ arrivals, p.IsPong a → since + p.limit.nanos < a.time) :
      Ends p since arrivals
        ⟨{ p with phase := .done (.error (p.timeoutError "pong")) }, since + p.limit.nanos, []⟩
  | pinged {front back : List Arrival} {pong : Arrival} (heq : arrivals = front ++ pong :: back)
      (hfront : ∀ a ∈ front, ¬p.IsPong a) (hpong : p.IsPong pong)
      (hin : pong.time ≤ since + p.limit.nanos) (hgoal : p.goal = .ping) :
      Ends p since arrivals ⟨{ p with phase := .done (.ok []) }, pong.time, []⟩
  | unanswered {front back : List Arrival} {pong : Arrival} {lookup : NodeId}
      (heq : arrivals = front ++ pong :: back) (hfront : ∀ a ∈ front, ¬p.IsPong a)
      (hpong : p.IsPong pong) (hin : pong.time ≤ since + p.limit.nanos)
      (hgoal : p.goal = .findNode lookup)
      (h : ∀ a ∈ back, ∀ nodes, p.IsAnswer nodes a → pong.time + p.limit.nanos < a.time) :
      Ends p since arrivals
        ⟨{ p with phase := .done (.error (p.timeoutError "neighbors")) }, pong.time + p.limit.nanos,
          [(pong.time, .findNode lookup.hex)]⟩
  | answered {front middle behind : List Arrival} {pong answer : Arrival} {lookup : NodeId}
      {nodes : List PeerRef} (heq : arrivals = front ++ pong :: (middle ++ answer :: behind))
      (hfront : ∀ a ∈ front, ¬p.IsPong a) (hpong : p.IsPong pong)
      (hin : pong.time ≤ since + p.limit.nanos) (hgoal : p.goal = .findNode lookup)
      (hmiddle : ∀ a ∈ middle, ∀ nodes, ¬p.IsAnswer nodes a) (hanswer : p.IsAnswer nodes answer)
      (hanswerIn : answer.time ≤ pong.time + p.limit.nanos) :
      Ends p since arrivals
        ⟨{ p with phase := .done (.ok nodes) }, answer.time, [(pong.time, .findNode lookup.hex)]⟩

theorem awaits_iff_isPong (hphase : p.phase = .awaitPong) : p.Awaits a ↔ p.IsPong a := by
  simp [Awaits, hphase]

theorem awaits_iff_isAnswer (hphase : p.phase = .awaitNeighbors) :
    p.Awaits a ↔ ∃ nodes, p.IsAnswer nodes a := by
  simp [Awaits, hphase]

/-- Every probe that waits for its pong comes to its end. -/
theorem exists_ends (hphase : p.phase = .awaitPong) (horder : InOrder arrivals)
    (hread : ∀ a ∈ arrivals, Readable a) (since : Nat) :
    ∃ c, p.follow since arrivals = some c ∧ Ends p since arrivals c := by
  obtain ⟨heard, hheard, hfollow⟩ := exists_hears (.inl hphase) horder hread since
  rw [hfollow]
  cases hheard with
  | nothing h =>
    refine ⟨_, rfl, ?_⟩
    rw [expiry, expire, hphase]
    exact .silent fun a ha hpong => h a ha ((awaits_iff_isPong hphase).mpr hpong)
  | @first front back pong heq hfront hwanted hin =>
    have hfront : ∀ a ∈ front, ¬p.IsPong a := fun a ha hpong =>
      hfront a ha ((awaits_iff_isPong hphase).mpr hpong)
    have hpong := (awaits_iff_isPong hphase).mp hwanted
    cases hgoal : p.goal with
    | ping => exact ⟨_, follow_ping hphase hpong hgoal hin, .pinged heq hfront hpong hin hgoal⟩
    | findNode lookup =>
      dsimp only
      rw [follow_findNode hphase hpong hgoal hin]
      have hback : (pong :: back).Sublist arrivals := heq ▸ List.sublist_append_right _ _
      have horder' := (List.pairwise_cons.mp (horder.sublist hback)).2
      have hread' : ∀ a ∈ back, Readable a := fun a ha =>
        hread a (hback.subset (List.mem_cons_of_mem _ ha))
      obtain ⟨heard, hheard, hfollow⟩ :=
        exists_hears (p := { p with phase := .awaitNeighbors }) (.inr rfl) horder' hread' pong.time
      rw [hfollow]
      cases hheard with
      | nothing h =>
        refine ⟨_, rfl, .unanswered heq hfront hpong hin hgoal fun a ha nodes hanswer => ?_⟩
        exact h a ha ((awaits_iff_isAnswer rfl).mpr ⟨nodes, hanswer⟩)
      | @first middle behind answer heq' hmiddle hwanted hanswerIn =>
        obtain ⟨nodes, hanswer⟩ := (awaits_iff_isAnswer rfl).mp hwanted
        dsimp only
        rw [follow_answer rfl hanswer hanswerIn]
        refine ⟨_, rfl, .answered (heq.trans (congrArg (front ++ pong :: ·) heq')) hfront hpong hin hgoal
          (fun a ha nodes h => hmiddle a ha ((awaits_iff_isAnswer rfl).mpr ⟨nodes, h⟩)) hanswer hanswerIn⟩

/-- A ping succeeds exactly if its pong comes in time. -/
theorem Ends.done_ok_iff {c : Course} (h : Ends p since arrivals c) (hgoal : p.goal = .ping) :
    c.probe.phase = .done (.ok []) ↔ ∃ a ∈ arrivals, p.IsPong a ∧ a.time ≤ since + p.limit.nanos := by
  cases h with
  | silent h =>
    refine ⟨fun hdone => ?_, fun ⟨a, ha, hpong, hin⟩ => absurd (h a ha hpong) (Nat.not_lt_of_le hin)⟩
    cases hdone
  | @pinged front back pong heq _ hpong hin =>
    exact ⟨fun _ => ⟨pong, heq ▸ List.mem_append_cons_self, hpong, hin⟩, fun _ => rfl⟩
  | unanswered _ _ _ _ hlookup => cases hgoal.symm.trans hlookup
  | answered _ _ _ _ hlookup => cases hgoal.symm.trans hlookup

/-- A probe that is done stays as it is. -/
theorem play_done {result : Except Error (List PeerRef)} (hdone : p.phase = .done result) :
    p.play since arrivals = some p := by
  cases arrivals <;> simp [play, expire, hdone]

/-- A probe that is played ends as in its course. -/
theorem play_eq_map_follow (hwaits : p.Waits) (hread : ∀ a ∈ arrivals, Readable a) (since : Nat) :
    p.play since arrivals = (p.follow since arrivals).map Course.probe := by
  induction arrivals generalizing p since with
  | nil => rfl
  | cons a rest ih =>
    obtain ⟨hreada, hread⟩ := List.forall_mem_cons.mp hread
    by_cases hlate : since + p.limit.nanos < a.time
    · rw [follow_late hlate, play, if_pos hlate]
      obtain hphase | hphase := hwaits <;> simp [hphase, expiry]
    have hin := Nat.le_of_not_lt hlate
    by_cases ha : p.Awaits a
    · obtain ⟨hphase, hpong⟩ | ⟨hphase, nodes, hanswer⟩ := ha
      · rw [play, if_neg hlate, receive?_pong hphase hpong, hphase]
        cases hgoal : p.goal with
        | ping =>
          rw [follow_ping hphase hpong hgoal hin]
          simp [onPong, hgoal, play_done]
        | findNode lookup =>
          rw [follow_findNode hphase hpong hgoal hin, Option.map_map]
          have hrest := ih (p := { p with phase := .awaitNeighbors }) (.inr rfl) hread a.time
          have hprobe : (p.onPong ⟨a.time - since⟩).probe = { p with phase := .awaitNeighbors } := by
            rw [onPong, hgoal]
          simp only [hprobe]
          exact hrest
      · rw [play, if_neg hlate, receive?_answer hphase hanswer, hphase, follow_answer hphase hanswer hin]
        simp [onNeighbors, play_done]
    · obtain ⟨s, hs⟩ := exists_receive? p ⟨a.time - since⟩ hreada
      obtain ⟨entries, rfl⟩ := eq_ignored_of_receive? ha hs
      rw [follow_skip hwaits hreada ha hin, ← ih hwaits hread, play, if_neg hlate, hs]
      obtain hphase | hphase := hwaits <;> simp [hphase]

/-! ## What comes between -/

/-- The first datagram of a kind, behind others. -/
def IsFirst (wanted : Arrival → Prop) (front : List Arrival) (x : Arrival) : Prop :=
  wanted x ∧ ∀ a ∈ front, ¬wanted a

/-- What can decide a probe that waits for its pong, behind other datagrams: the first pong, and for a
lookup also the first list of nodes behind that. -/
def Decisive (p : Probe) (front : List Arrival) (x : Arrival) : Prop :=
  IsFirst p.IsPong front x ∨
    (∃ lookup, p.goal = .findNode lookup) ∧ ∃ before pong behind, front = before ++ pong :: behind ∧
      IsFirst p.IsPong before pong ∧ IsFirst (fun a => ∃ nodes, p.IsAnswer nodes a) behind x

/-- A datagram in front that is not awaited changes nothing, in time or not. -/
theorem follow_cons (hwaits : p.Waits) (horder : InOrder (x :: back)) (hread : Readable x)
    (h : ¬p.Awaits x) : p.follow since (x :: back) = p.follow since back := by
  by_cases hlate : since + p.limit.nanos < x.time
  · rw [follow_late hlate]
    cases back with
    | nil => rfl
    | cons y back =>
      have hy := horder.late hlate y (List.mem_cons_of_mem _ List.mem_cons_self)
      rw [follow_late hy]
  · exact follow_skip hwaits hread h (Nat.le_of_not_lt hlate)

/-- A datagram changes nothing in a wait for nodes unless it is the first list of them. -/
theorem follow_insert_answer (hphase : p.phase = .awaitNeighbors) (horder : InOrder (front ++ x :: back))
    (hread : ∀ a ∈ front ++ x :: back, Readable a)
    (hx : ¬IsFirst (fun a => ∃ nodes, p.IsAnswer nodes a) front x) :
    p.follow since (front ++ x :: back) = p.follow since (front ++ back) := by
  induction front with
  | nil =>
    refine follow_cons (.inr hphase) horder (hread x List.mem_cons_self) fun hawaits => hx ?_
    exact ⟨(awaits_iff_isAnswer hphase).mp hawaits, List.forall_mem_nil _⟩
  | cons a front ih =>
    obtain ⟨hreada, hread'⟩ := List.forall_mem_cons.mp hread
    rw [List.cons_append, List.cons_append]
    by_cases hlate : since + p.limit.nanos < a.time
    · rw [follow_late hlate, follow_late hlate]
    have hin := Nat.le_of_not_lt hlate
    by_cases ha : ∃ nodes, p.IsAnswer nodes a
    · obtain ⟨nodes, hanswer⟩ := ha
      rw [follow_answer hphase hanswer hin, follow_answer hphase hanswer hin]
    · have hskip := mt (awaits_iff_isAnswer hphase).mp ha
      rw [follow_skip (.inr hphase) hreada hskip hin, follow_skip (.inr hphase) hreada hskip hin]
      refine ih (List.pairwise_cons.mp horder).2 hread' fun hfirst => hx ?_
      exact ⟨hfirst.1, List.forall_mem_cons.mpr ⟨ha, hfirst.2⟩⟩

/-- A datagram changes nothing in the course of a probe unless it is decisive. -/
theorem follow_insert (hphase : p.phase = .awaitPong) (horder : InOrder (front ++ x :: back))
    (hread : ∀ a ∈ front ++ x :: back, Readable a) (hx : ¬p.Decisive front x)
    (since : Nat) :
    p.follow since (front ++ x :: back) = p.follow since (front ++ back) := by
  induction front with
  | nil =>
    refine follow_cons (.inl hphase) horder (hread x List.mem_cons_self) fun hawaits => hx (.inl ?_)
    exact ⟨(awaits_iff_isPong hphase).mp hawaits, List.forall_mem_nil _⟩
  | cons a front ih =>
    obtain ⟨hreada, hread'⟩ := List.forall_mem_cons.mp hread
    have horder' := (List.pairwise_cons.mp horder).2
    rw [List.cons_append, List.cons_append]
    by_cases hlate : since + p.limit.nanos < a.time
    · rw [follow_late hlate, follow_late hlate]
    have hin := Nat.le_of_not_lt hlate
    by_cases hpong : p.IsPong a
    · cases hgoal : p.goal with
      | ping => rw [follow_ping hphase hpong hgoal hin, follow_ping hphase hpong hgoal hin]
      | findNode lookup =>
        rw [follow_findNode hphase hpong hgoal hin, follow_findNode hphase hpong hgoal hin]
        refine congrArg _ (follow_insert_answer rfl horder' hread' fun hfirst => hx (.inr ?_))
        exact ⟨⟨lookup, hgoal⟩, [], a, front, rfl, ⟨hpong, List.forall_mem_nil _⟩, hfirst⟩
    · have hskip := mt (awaits_iff_isPong hphase).mp hpong
      rw [follow_skip (.inl hphase) hreada hskip hin, follow_skip (.inl hphase) hreada hskip hin]
      refine ih horder' hread' fun hdecisive => hx ?_
      obtain ⟨hx, hfront⟩ | ⟨hgoal, before, pong, behind, rfl, ⟨hpong', hbefore⟩, hfirst⟩ := hdecisive
      · exact .inl ⟨hx, List.forall_mem_cons.mpr ⟨hpong, hfront⟩⟩
      · exact .inr ⟨hgoal, a :: before, pong, behind, rfl,
          ⟨hpong', List.forall_mem_cons.mpr ⟨hpong, hbefore⟩⟩, hfirst⟩

/-- What can be relied on when a probe listens to datagrams from anywhere. -/
structure Undisturbed (p : Probe) (since : Nat) (arrivals : List Arrival) : Prop where
  /-- It ends as the first pong and the first list of nodes behind it say. -/
  ends : ∃ c, p.follow since arrivals = some c ∧ p.play since arrivals = some c.probe ∧
    Ends p since arrivals c
  /-- A ping succeeds exactly if its pong comes in time. -/
  ping : p.goal = .ping → ∀ c, p.follow since arrivals = some c →
    (c.probe.phase = .done (.ok []) ↔ ∃ a ∈ arrivals, p.IsPong a ∧ a.time ≤ since + p.limit.nanos)
  /-- No other datagram makes a difference, wherever it comes in. -/
  others : ∀ front x back, arrivals = front ++ x :: back → ¬p.Decisive front x →
    p.follow since arrivals = p.follow since (front ++ back) ∧
      p.play since arrivals = p.play since (front ++ back)

/-- A probe begins with a ping that has its nonce, and is then decided by its target alone. -/
theorem undisturbed (self target : PeerRef) (goal : Goal) (limit : Duration) (nonce : UInt64)
    (since : Nat) (arrivals : List Arrival) (horder : InOrder arrivals) (hread : ∀ a ∈ arrivals, Readable a) :
    (start self target goal limit nonce).sends = [.ping self nonce] ∧
      Undisturbed (start self target goal limit nonce).probe since arrivals := by
  have hphase : (start self target goal limit nonce).probe.phase = .awaitPong := rfl
  obtain ⟨c, hfollow, hends⟩ := exists_ends hphase horder hread since
  refine ⟨rfl, ⟨c, hfollow, ?_, hends⟩, fun hgoal c' hfollow' => ?_, ?_⟩
  · rw [play_eq_map_follow (.inl hphase) hread, hfollow]
    rfl
  · obtain rfl := Option.some.inj (hfollow.symm.trans hfollow')
    exact hends.done_ok_iff hgoal
  · rintro front x back rfl hx
    have hread' : ∀ a ∈ front ++ back, Readable a := fun a ha =>
      hread a (((List.sublist_cons_self x back).append_left front).subset ha)
    have hsame := follow_insert hphase horder hread hx since
    refine ⟨hsame, ?_⟩
    rw [play_eq_map_follow (.inl hphase) hread, play_eq_map_follow (.inl hphase) hread', hsame]

/-- What is sent by a probe or a responder can be read. -/
theorem readable_of_modest {packet : Packet} (h : packet.Modest) (time : Nat) (source : Endpoint) :
    Readable ⟨time, source, packet.datagram⟩ := by
  rw [Readable, packet.packet_datagram h.length_datagram]
  exact nofun

/-- A peer that answers a lookup. -/
def answerer : PeerRef := ⟨.replicate 64 1, .v4 .loopback, 30303, 30304⟩

/-- The two datagrams that count, in the middle of others: such as come from elsewhere, come too early or
too late or have a wrong nonce, and bytes that are no packet. -/
def noise : List Arrival :=
  let target := answerer.udpEndpoint
  let other := answerer.tcpEndpoint
  [⟨1, other, (Packet.pong 7).datagram⟩, ⟨2, target, (Packet.neighbors []).datagram⟩, ⟨3, target, [0xff]⟩,
    ⟨4, target, (Packet.pong 8).datagram⟩, ⟨5, target, (Packet.pong 7).datagram⟩,
    ⟨6, other, (Packet.neighbors []).datagram⟩, ⟨6, target, (Packet.ping answerer 7).datagram⟩,
    ⟨8, target, (Packet.neighbors [answerer]).datagram⟩, ⟨9, target, (Packet.neighbors []).datagram⟩]

theorem undisturbed_noise : InOrder noise ∧ (∀ a ∈ noise, Readable a) ∧
    (start answerer answerer (.findNode answerer.id) ⟨10⟩ 7).sends = [.ping answerer 7] ∧
      Undisturbed (start answerer answerer (.findNode answerer.id) ⟨10⟩ 7).probe 0 noise := by
  have horder : InOrder noise := by simp [InOrder, noise]
  have hfew : (Packet.neighbors []).Modest := .neighbors (by decide)
  have hone : (Packet.neighbors [answerer]).Modest := .neighbors (by decide)
  have hbytes : Readable ⟨3, answerer.udpEndpoint, [0xff]⟩ := nofun
  have hread : ∀ a ∈ noise, Readable a := by
    simp [noise, readable_of_modest, hfew, hone, hbytes, Packet.Modest.ping, Packet.Modest.pong]
  exact ⟨horder, hread,
    undisturbed answerer answerer (.findNode answerer.id) ⟨10⟩ 7 0 noise horder hread⟩

end PeerProbe.Discovery.Probe
