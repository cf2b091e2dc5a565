import PeerProbe.Proofs.Attempt.Ending
import PeerProbe.Proofs.Node.Kept
import PeerProbe.Proofs.Node.Listeners

/-!
# Who owns a connection

A connection is handed over by the transport in one step, and from then on an attempt owns it. The
attempt keeps it to itself until it lets go of it, or leaves it to a task of its own that holds the
peer. So whatever an attempt or such a task has was taken from the transport before.
-/

namespace PeerProbe

/-- The connection that an attempt owns in a phase. -/
def AttemptPhase.conn? : AttemptPhase → Option ConnId
  | .exchanging _ conn _ _ _ | .handingOver conn | .observing conn _ _ _ _ | .hangingUp conn =>
    some conn
  | .reporting _ conn | .keeping conn | .resuming conn | .removing conn | .idling conn
  | .closing conn => conn
  | _ => none

namespace Attempt

variable {σ : Type} [Transport σ] {cfg : AttemptConfig} {a : Attempt} {now : Nat} {t : σ}
  {c : ConnId}

/-- An exchange that begins with a connection has just taken it. -/
theorem take_of_takeForExchange {ex : Eth.ExchangeConfig} {peer : PeerRef}
    (hc : (a.takeForExchange ex peer now t).1.phase.conn? = some c) :
    Transport.take peer t = (some c, (a.takeForExchange ex peer now t).2.1) := by
  unfold takeForExchange at hc ⊢
  dsimp only at hc ⊢
  cases htake : Transport.take peer t with
  | mk taken t' =>
    cases taken with
    | some d =>
      simp only [htake] at hc ⊢
      rw [show d = c from Option.some.inj hc]
    | none =>
      simp only [htake] at hc
      contradiction

/-- A connection that an attempt leaves to be held is its own, or has just been taken. -/
theorem take_of_keep {conn : Option ConnId} (hc : (a.keep cfg conn t).1.phase.conn? = some c) :
    conn = some c ∨ Transport.take a.peer t = (some c, (a.keep cfg conn t).2.1) := by
  cases conn with
  | some d => exact .inl hc
  | none =>
    right
    simp only [keep, ownOrTake, Option.isSome_none, Bool.false_or] at hc ⊢
    cases hobserves : cfg.observes with
    | false =>
      simp only [hobserves] at hc
      contradiction
    | true =>
      simp only [hobserves, ↓reduceIte] at hc ⊢
      cases htaken : (Transport.take a.peer t).1 with
      | some d =>
        simp only [htaken] at hc ⊢
        exact Prod.ext (htaken.trans hc) rfl
      | none =>
        simp only [htaken] at hc
        contradiction

/-- So is one that it observes. -/
theorem take_of_resume {conn : Option ConnId}
    (hc : (a.resume cfg conn now t).1.phase.conn? = some c) :
    conn = some c ∨ Transport.take a.peer t = (some c, (a.resume cfg conn now t).2.1) := by
  cases conn with
  | some d => exact .inl hc
  | none =>
    right
    simp only [resume, ownOrTake] at hc ⊢
    cases htaken : (Transport.take a.peer t).1 with
    | some d =>
      simp only [htaken] at hc ⊢
      exact Prod.ext (htaken.trans hc) rfl
    | none =>
      simp only [htaken] at hc
      contradiction

/-- An attempt that owns a connection behind a step owned it before, or takes it from the transport
in that step. -/
theorem conn?_of_step? {s : Stepped σ} (h : a.step? cfg now t = some s)
    (hc : s.1.phase.conn? = some c) :
    a.phase.conn? = some c ∨ ∃ p, Transport.take p t = (some c, s.2.1) := by
  have hgoes := goes_of_step? h
  unfold step? at h
  cases hphase : a.phase with
  | taking peer =>
    simp only [hphase, Option.map_eq_some_iff] at h
    obtain ⟨ex, -, rfl⟩ := h
    exact .inr ⟨peer, take_of_takeForExchange hc⟩
  | keeping conn =>
    simp only [hphase, Option.some.injEq] at h
    subst h
    exact (take_of_keep hc).imp_right fun htake => ⟨a.peer, htake⟩
  | resuming conn =>
    simp only [hphase, Option.some.injEq] at h
    subst h
    exact (take_of_resume hc).imp_right fun htake => ⟨a.peer, htake⟩
  | _ =>
    rw [hphase] at hgoes
    generalize s.1.phase = next at hgoes hc
    cases hgoes <;> first | exact .inl hc | contradiction

end Attempt

namespace Node

variable {σ : Type} [Transport σ] {allowed : Act σ → Prop} {n n' : Node σ} {c : ConnId} {j : Nat}

/-- A connection is taken from the transport, and nothing else is done to it. -/
def Takes (c : ConnId) (n n' : Node σ) : Prop :=
  ∃ p, Transport.take p n.transport = (some c, n'.transport)

omit [Transport σ] in
/-- What the attempts own. -/
def owned (n : Node σ) : List (Option ConnId) := n.attempts.map (·.phase.conn?)

/-- What an attempt owns was owned before, or is taken from the transport. -/
theorem owned_origin (h : Happens allowed n n') (hc : some c ∈ n'.owned) :
    some c ∈ n.owned ∨ Takes c n n' := by
  have hcancel (k : Nat) : (n.cancelAttempt k).owned = n.owned :=
    map_modify_eq n.attempts k fun _ => rfl
  cases h with
  | act act =>
    cases act with
    | cancelAttempt k => exact .inl (hcancel k ▸ hc)
    | order | watch | cancelWatch | addSlot | move | wait => exact .inl hc
  | step task h =>
    cases stepped_of_step? h with
    | @attempt j a cfg s ha hcfg hs =>
      have hset : some c ∈ n.owned.set j s.1.phase.conn? := by
        rw [owned, ← List.map_set]
        split at hc <;> exact hc
      obtain hold | hnew := List.mem_or_eq_of_mem_set hset
      · exact .inl hold
      · obtain hmine | ⟨p, htake⟩ := Attempt.conn?_of_step? hs hnew.symm
        · exact .inl (List.mem_map.mpr ⟨a, List.mem_of_getElem? ha, hmine⟩)
        · exact .inr ⟨p, by rw [htake]; split <;> rfl⟩
    | @watcher j a r ha hr =>
      have hphase := (Attempt.sameCourse_of_watcherStep? hr).phase
      left
      rwa [owned, show (_ : Node σ).attempts = n.attempts.set j r.1 from rfl,
        map_set_eq ha (by rw [hphase])] at hc
    | openWatch | held | background => exact .inl hc
    | call hcall hstep hreach =>
      left
      cases hreach with
      | apart hsame => rwa [owned, hsame.attempts] at hc
      | claim => exact hc
      | begin purpose slot peer timeout =>
        simp only [owned, subscribeStep, List.map_append, List.mem_append] at hc
        obtain hold | hnew := hc
        · exact hold
        · cases List.mem_singleton.mp hnew
      | cancel k => exact hcancel k ▸ hc

/-- An attempt leaves the connection that it owns to a task that subscribes and holds the peer. -/
structure HandsOver (j : Nat) (h : HeldPeer) (n n' : Node σ) : Prop where
  absent : n.held[j]? = none
  present : n'.held[j]? = some h
  owned : some h.conn ∈ n.owned
  created : ∃ reading, h = .create h.conn (Transport.remote h.conn n'.transport)
    (Transport.feed n.transport).next reading
  transport : n'.transport = (Transport.subscribe n.transport).2

/-- A step of an attempt that leaves a peer to be held hands over the connection that it owns. -/
theorem handsOver_of_attempt {k : Nat} {a : Attempt} {cfg : AttemptConfig} {s : Attempt.Stepped σ}
    (ha : n.attempts[k]? = some a) (hs : a.step? cfg n.now n.transport = some s) {peer : HeldPeer}
    (hleft : s.2.2.2 = some peer) (hj : n'.held = n.held ++ [peer])
    (htransport : n'.transport = s.2.1) : HandsOver n.held.length peer n n' := by
  obtain ⟨conn, hphase, rfl⟩ | hnone := Attempt.handOver_or_held_eq_none hs
  · obtain rfl := Option.some.inj hleft
    refine ⟨List.getElem?_eq_none (Nat.le_refl _), ?_, ?_, ⟨cfg.reading, ?_⟩, htransport⟩
    · rw [hj, List.getElem?_concat_length]
    · exact List.mem_map.mpr ⟨a, List.mem_of_getElem? ha, by rw [hphase]; rfl⟩
    · rw [htransport]
      rfl
  · rw [hnone] at hleft
    contradiction

/-- A step of a held peer's task is what becomes of the peer and of the transport. -/
theorem exists_step?_of_held {peer : HeldPeer} (h : n.step? (.held j) = some n')
    (hj : n.held[j]? = some peer) :
    ∃ r, peer.step? n.now n.transport = some r ∧ n'.held[j]? = some r.1 ∧ n'.transport = r.2.1 := by
  cases stepped_of_step? h with
  | @held _ _ r hi hr =>
    obtain rfl := Option.some.inj (hj.symm.trans hi)
    exact ⟨r, hr, List.getElem?_set_self (List.getElem?_eq_some_iff.mp hj).1, rfl⟩

/-- A held peer was there before, or was left by an attempt. -/
theorem held_origin (h : Happens allowed n n') {peer' : HeldPeer} (hj : n'.held[j]? = some peer') :
    (∃ peer, n.held[j]? = some peer) ∨ HandsOver j peer' n n' := by
  cases hold : n.held[j]? with
  | some peer => exact .inl ⟨peer, rfl⟩
  | none =>
    right
    cases h with
    | act act => cases act <;> exact absurd (hold.symm.trans hj) nofun
    | step task h =>
      cases stepped_of_step? h with
      | @attempt k a cfg s ha hcfg hs =>
        have happended : (n.held ++ s.2.2.2.toList)[j]? = some peer' := by
          rw [← hj]
          split <;> rfl
        cases hleft : s.2.2.2 with
        | none =>
          rw [hleft, Option.toList_none, List.append_nil, hold] at happended
          contradiction
        | some peer =>
          rw [hleft] at happended
          have hle := List.getElem?_eq_none_iff.mp hold
          rw [List.getElem?_append_right hle] at happended
          obtain ⟨hlt, rfl⟩ := List.getElem?_eq_some_iff.mp happended
          have hlast : j = n.held.length := by
            simp only [Option.toList_some, List.length_singleton] at hlt
            omega
          subst hlast
          refine handsOver_of_attempt ha hs (by simpa using hleft) ?_ ?_
          · split <;> simp [attempted, logged, setBusy, hleft]
          · split <;> rfl
      | watcher | openWatch | background => exact absurd (hold.symm.trans hj) nofun
      | @held i _ r =>
        have hnone : (n.held.set i r.1)[j]? = none :=
          List.getElem?_eq_none (by rw [List.length_set]; exact List.getElem?_eq_none_iff.mp hold)
        exact absurd (hnone.symm.trans hj) nofun
      | call hcall hstep hreach =>
        cases hreach with
        | apart hsame =>
          rw [hsame.held, hold] at hj
          contradiction
        | claim | begin | cancel => exact absurd (hold.symm.trans hj) nofun

end Node

end PeerProbe
