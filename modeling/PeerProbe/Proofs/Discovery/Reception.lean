import PeerProbe.Discovery.Probe

/-!
# What a probe makes of a datagram

A probe awaits one kind of packet at a time, from exactly one endpoint. A datagram is what it awaits, or
it is ignored and at most noted in the log; so there are three things that a reception can come to
(`Heeds`), and everything about receptions is read off them.
-/

namespace PeerProbe.Discovery.Probe

/-- A pong with the nonce of a probe, from exactly the endpoint that it pinged. -/
def IsPong (p : Probe) (a : Arrival) : Prop :=
  a.source = p.target.udpEndpoint ∧ Responder.packet a.datagram = .ok (.pong p.nonce)

/-- A list of nodes, from exactly the endpoint that was asked. -/
def IsAnswer (p : Probe) (nodes : List PeerRef) (a : Arrival) : Prop :=
  a.source = p.target.udpEndpoint ∧ Responder.packet a.datagram = .ok (.neighbors nodes)

/-- What a probe is waiting for where it stands. -/
def Awaits (p : Probe) (a : Arrival) : Prop :=
  p.phase = .awaitPong ∧ p.IsPong a ∨ p.phase = .awaitNeighbors ∧ ∃ nodes, p.IsAnswer nodes a

/-- A datagram that can be read or refused. -/
def Readable (a : Arrival) : Prop := Responder.packet a.datagram ≠ .error .crash

variable {p : Probe} {a : Arrival} {elapsed : Duration} {s : ProbeStep} {nodes : List PeerRef}

/-- What a probe does with a datagram. -/
inductive Heeds (p : Probe) (elapsed : Duration) (a : Arrival) : ProbeStep → Prop where
  | ignored (entries : List Log.Entry) (h : ¬p.Awaits a) : Heeds p elapsed a ⟨p, [], entries⟩
  | pong (hphase : p.phase = .awaitPong) (h : p.IsPong a) : Heeds p elapsed a (p.onPong elapsed)
  | answer {nodes : List PeerRef} (hphase : p.phase = .awaitNeighbors) (h : p.IsAnswer nodes a) :
      Heeds p elapsed a (p.onNeighbors nodes)

/-- A packet from the target is what the probe waits for, or it is ignored. -/
theorem heeds_onPacket {packet : Packet} (hsource : a.source = p.target.udpEndpoint)
    (hpacket : Responder.packet a.datagram = .ok packet) :
    Heeds p elapsed a (p.onPacket elapsed packet) := by
  unfold onPacket
  split
  · next nonce hphase =>
    split
    · next hnonce =>
      subst hnonce
      exact .pong hphase ⟨hsource, hpacket⟩
    · next hnonce => exact .ignored _ (by simp [Awaits, IsPong, hphase, hpacket, hnonce])
  · next nodes hphase => exact .answer hphase ⟨hsource, hpacket⟩
  · next hpong hanswer =>
    refine .ignored _ ?_
    rintro (⟨hphase, -, hread⟩ | ⟨hphase, nodes, -, hread⟩) <;>
      cases Except.ok.inj (hpacket.symm.trans hread)
    · exact hpong _ hphase rfl
    · exact hanswer _ hphase rfl

theorem heeds_of_receive? (h : p.receive? elapsed a.source a.datagram = some s) :
    Heeds p elapsed a s := by
  unfold receive? at h
  split at h
  · next hdone =>
    cases h
    exact .ignored _ (by simp [Awaits, hdone])
  · split at h
    · next hsource =>
      cases h
      exact .ignored _ (by simp [Awaits, IsPong, IsAnswer, hsource])
    · next hsource =>
      split at h
      · next packet hpacket =>
        cases h
        exact heeds_onPacket (Decidable.not_not.mp hsource) hpacket
      · next hmalformed =>
        cases h
        exact .ignored _ (by simp [Awaits, IsPong, IsAnswer, hmalformed])
      · cases h

/-- A datagram that can be read or refused does not end the probe's task. -/
theorem exists_receive? (p : Probe) (elapsed : Duration) (hread : Readable a) :
    ∃ s, p.receive? elapsed a.source a.datagram = some s := by
  unfold receive?
  split
  · exact ⟨_, rfl⟩
  · split
    · exact ⟨_, rfl⟩
    · split
      · exact ⟨_, rfl⟩
      · exact ⟨_, rfl⟩
      · next hcrash => exact absurd hcrash hread

/-- What is not awaited is ignored. -/
theorem eq_ignored_of_receive? (h : ¬p.Awaits a)
    (hs : p.receive? elapsed a.source a.datagram = some s) : ∃ entries, s = ⟨p, [], entries⟩ := by
  cases heeds_of_receive? hs with
  | ignored entries => exact ⟨entries, rfl⟩
  | pong hphase hpong => exact absurd (.inl ⟨hphase, hpong⟩) h
  | answer hphase hanswer => exact absurd (.inr ⟨hphase, _, hanswer⟩) h

theorem receive?_of_awaits (h : p.Awaits a) (elapsed : Duration) :
    ∃ s, p.receive? elapsed a.source a.datagram = some s := by
  refine exists_receive? p elapsed fun hcrash => ?_
  obtain ⟨-, -, hread⟩ | ⟨-, nodes, -, hread⟩ := h <;> cases hcrash.symm.trans hread

/-- The pong is taken. -/
theorem receive?_pong (hphase : p.phase = .awaitPong) (h : p.IsPong a) :
    p.receive? elapsed a.source a.datagram = some (p.onPong elapsed) := by
  obtain ⟨s, hs⟩ := receive?_of_awaits (.inl ⟨hphase, h⟩) elapsed
  rw [hs]
  cases heeds_of_receive? hs with
  | ignored entries hnot => exact absurd (.inl ⟨hphase, h⟩) hnot
  | pong => rfl
  | answer hphase' => cases hphase.symm.trans hphase'

/-- The nodes are taken. -/
theorem receive?_answer (hphase : p.phase = .awaitNeighbors) (h : p.IsAnswer nodes a) :
    p.receive? elapsed a.source a.datagram = some (p.onNeighbors nodes) := by
  obtain ⟨s, hs⟩ := receive?_of_awaits (.inr ⟨hphase, nodes, h⟩) elapsed
  rw [hs]
  cases heeds_of_receive? hs with
  | ignored entries hnot => exact absurd (.inr ⟨hphase, nodes, h⟩) hnot
  | pong hphase' => cases hphase'.symm.trans hphase
  | answer hphase' h' => cases h'.2.symm.trans h.2; rfl

end PeerProbe.Discovery.Probe
