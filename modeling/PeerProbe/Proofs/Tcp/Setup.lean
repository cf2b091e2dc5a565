import PeerProbe.Proofs.Tcp.Table

/-!
# The setup of a transport over TCP

Identity, name, listen address, frame limit and dial timeout are given when a transport is created.
Nothing that is done to it changes them, so every connection of every run is read under the frame
limit of the configuration.
-/

namespace PeerProbe

namespace Tcp

open Transport (Change)

variable {t t' : Tcp} {config : TcpConfig} {own : NodeId} {bound : Except String Endpoint}

/-- What a transport is created with. -/
structure Setup where
  id : NodeId
  name : String
  listenAddress : String
  maxFrame : UInt32
  dialTimeout : Nat

/-- The setup of a transport. -/
def setup (t : Tcp) : Setup := ⟨t.id, t.name, t.listenAddress, t.maxFrame, t.dialTimeout⟩

/-! ## Connections -/

theorem setup_releaseSlot (t : Tcp) (id : NodeId) (g : ConnId) :
    (t.releaseSlot id g).setup = t.setup := by
  unfold releaseSlot
  repeat' split
  all_goals rfl

theorem setup_release (g : ConnId) (t : Tcp) : (t.release g).setup = t.setup := by
  unfold release
  split
  · exact setup_releaseSlot _ _ _
  · rfl

theorem setup_remove (p : PeerRef) (t : Tcp) : (t.remove p).setup = t.setup := by
  unfold remove
  split
  · exact setup_releaseSlot _ _ _
  · rfl

theorem setup_take (p : PeerRef) (t : Tcp) : (t.take p).2.setup = t.setup := by
  unfold take
  repeat' split
  all_goals rfl

/-- A read that comes to an item or a step ahead leaves the setup. -/
theorem setup_of_read {now : Nat} {g : ConnId} {taken : List UInt8}
    (h : (∃ item, t.read now g taken = .ready item t') ∨
      ∃ taken', t.read now g taken = .ahead taken' t') : t'.setup = t.setup := by
  unfold read at h
  split at h
  · simp at h
  · split at h
    · simp only [ReadPoll.ready.injEq, reduceCtorEq, exists_false, or_false] at h
      obtain ⟨item, -, rfl⟩ := h
      exact setup_release g t
    · split at h
      all_goals
        simp only [ReadPoll.ready.injEq, ReadPoll.ahead.injEq, reduceCtorEq, exists_false, or_false,
          false_or] at h
      · obtain ⟨item, -, rfl⟩ := h
        rfl
      · obtain ⟨item, -, rfl⟩ := h
        exact setup_release g _
      · obtain ⟨taken', -, rfl⟩ := h
        rfl

theorem setup_of_send {now : Nat} {g : ConnId} {code : UInt64} {payload : List UInt8}
    {r : Except TransportError Unit} (h : t.send now g code payload = some (r, t')) :
    t'.setup = t.setup := by
  obtain ⟨c, -, hc⟩ := Option.map_eq_some_iff.mp h
  split at hc
  · cases hc
    rfl
  · cases hc
    rfl

/-! ## Establishments -/

theorem setup_beginExchange (t : Tcp) (i now : Nat) (e : Establishment) :
    (t.beginExchange i now e).setup = t.setup := by
  unfold beginExchange
  dsimp only
  split
  all_goals rfl

theorem setup_of_identify? {e : Establishment} {deadline now : Nat}
    {r : Except TransportError PeerRef × Tcp} (h : t.identify? e deadline now = some r) :
    r.2.setup = t.setup := by
  unfold identify? at h
  dsimp only at h
  repeat' split at h
  all_goals
    cases h
    try rfl

theorem setup_register (t : Tcp) (peer : PeerRef) (g : ConnId) :
    (t.register peer g).setup = t.setup := by
  unfold register
  dsimp only
  split
  all_goals rfl

theorem setup_failStep (t : Tcp) (i : Nat) (e : Establishment) (err : TransportError) :
    (t.failStep i e err).setup = t.setup := by
  unfold failStep
  dsimp only
  split
  all_goals rfl

theorem setup_of_establishStep? {now i : Nat} {e : Establishment}
    (h : t.establishStep? now i e = some t') : t'.setup = t.setup := by
  unfold establishStep? at h
  cases hphase : e.phase with
  | spawned =>
    simp only [hphase] at h
    split at h
    · cases h
      rfl
    · cases h
      exact setup_beginExchange t i now e
  | connecting deadline =>
    simp only [hphase] at h
    repeat' split at h
    all_goals
      cases h
      try rfl
  | refused | identified | registered =>
    simp only [hphase] at h
    cases h
    rfl
  | connected =>
    simp only [hphase] at h
    cases h
    exact setup_beginExchange t i now e
  | exchanging deadline =>
    simp only [hphase] at h
    obtain ⟨r, hr, rfl⟩ := Option.map_eq_some_iff.mp h
    exact setup_of_identify? hr
  | numbered peer g =>
    simp only [hphase] at h
    cases h
    exact setup_register _ peer g
  | failed err =>
    simp only [hphase] at h
    cases h
    exact setup_failStep t i e err
  | done => simp [hphase] at h

theorem setup_dial (now : Nat) (p : PeerRef) (t : Tcp) :
    (t.dial now p).setup = t.setup := by
  unfold dial
  repeat' split
  all_goals rfl

/-! ## Everything -/

theorem setup_onConnecting (t : Tcp) (i : Nat) (p : EstablishPhase) :
    (t.onConnecting i p).setup = t.setup := by
  unfold onConnecting
  repeat' split
  all_goals rfl

theorem setup_move (now : Nat) (m : Move) (t : Tcp) : (t.move now m).setup = t.setup := by
  cases m with
  | connect i => exact setup_onConnecting t i _
  | refuse i reason => exact setup_onConnecting t i _
  | arrive session remote =>
    simp only [move, arrive]
    split
    all_goals rfl
  | stopAccepting session =>
    simp only [move, stopAccepting]
    split
    all_goals rfl
  | deliver | finish | breakWrites | bind => rfl
  | dial p => exact setup_dial now p t
  | remove p => exact setup_remove p t
  | take p => exact setup_take p t
  | read g =>
    simp only [move]
    split
    · next hread => exact setup_of_read (.inl ⟨_, hread⟩)
    · next hread => exact setup_of_read (.inr ⟨_, hread⟩)
    · rfl
  | send g code payload =>
    simp only [move]
    cases hsend : t.send now g code payload with
    | none => rfl
    | some r => exact setup_of_send hsend
  | release g => exact setup_release g t

theorem setup_start (t : Tcp) : t.start.2.setup = t.setup := by
  unfold start
  repeat' split
  all_goals rfl

theorem setup_stop (t : Tcp) : t.stop.setup = t.setup := by
  unfold stop
  split
  all_goals rfl

/-- Nothing that is done to a transport changes its setup. -/
theorem setup_of_change (h : Change t t') : t'.setup = t.setup := by
  cases h with
  | start => exact setup_start t
  | stop => exact setup_stop t
  | use h =>
    cases h with
    | dial now p => exact setup_dial now p t
    | remove p => exact setup_remove p t
    | take p => exact setup_take p t
    | ready h => exact setup_of_read (.inl ⟨_, h⟩)
    | ahead h => exact setup_of_read (.inr ⟨_, h⟩)
    | send h => exact setup_of_send h
    | release g => exact setup_release g t
    | withFeed f => rfl
    | background h =>
      obtain ⟨e, -, hstep⟩ := Option.bind_eq_some_iff.mp h
      exact setup_of_establishStep? hstep
    | move now m => exact setup_move now m t

/-- A transport keeps the setup that it was created with. -/
theorem setup_of_run (r : Run Change (create config own bound)) (m : Nat) :
    (r.state m).setup = (create config own bound).setup := by
  apply r.always (p := fun t => t.setup = (create config own bound).setup) rfl
  intro t t' hchange hsetup
  rw [setup_of_change hchange, hsetup]

/-- In every run frames are read under the limit of the configuration. -/
theorem maxFrame_of_run (r : Run Change (create config own bound)) (m : Nat) :
    (r.state m).maxFrame = config.maxFrameSize :=
  congrArg Setup.maxFrame (setup_of_run r m)

end Tcp

end PeerProbe
