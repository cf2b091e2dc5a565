import PeerProbe.InProcess
import PeerProbe.Proofs.Attempt.Replies
import PeerProbe.Proofs.Wire.Script

/-!
# The verdict of an exchange over any connection

An attempt runs its exchange in turns, and between two of them anything may happen to the transport.
Unless sending fails or the timer fires, the turns together move each leg once. So they take one item
off the connection, and the report is the verdict on it.
-/

namespace PeerProbe

namespace Attempt

variable {σ : Type} [Transport σ] {cfg : AttemptConfig} {ex : Eth.ExchangeConfig} {a : Attempt}
  {peer : PeerRef} {conn : ConnId} {legs legs' : Eth.Legs} {deadline now : Nat}
  {taken taken' : List UInt8} {t t' : σ} {max : UInt32} {moved : Bool}
  {items : List (Except TransportError Frame)} {outcome : Except Eth.ExchangeError Eth.Status}

/-- A send leg that does not fail is where it was, or has sent our status. -/
theorem legs_of_sendLeg (h : sendLeg cfg conn now legs t = (.ok (legs', moved), t')) :
    legs' = legs ∨ legs.sent = false ∧ legs' = { legs with sent := true } := by
  unfold sendLeg at h
  split at h
  · exact .inl (Prod.mk.inj (Except.ok.inj (Prod.mk.inj h).1)).1.symm
  next hunsent =>
    split at h
    next reply t₁ hsend =>
      cases reply with
      | error e => cases (Prod.mk.inj h).1
      | ok u =>
        refine .inr ⟨by simpa using hunsent, ?_⟩
        exact (Prod.mk.inj (Except.ok.inj (Prod.mk.inj h).1)).1.symm
    next => exact .inl (Prod.mk.inj (Except.ok.inj (Prod.mk.inj h).1)).1.symm

/-- A send leg fails only if sending does. -/
theorem failed_of_sendLeg {e : Eth.ExchangeError} (h : sendLeg cfg conn now legs t = (.error e, t')) :
    legs.sent = false ∧ ∃ fault, Transport.send now conn Eth.Code.status (Eth.rlpBytes cfg.status) t =
      some (.error fault, t') := by
  unfold sendLeg at h
  split at h
  · cases (Prod.mk.inj h).1
  next hunsent =>
    refine ⟨by simpa using hunsent, ?_⟩
    split at h
    next reply t₁ hsend =>
      obtain ⟨hreply, rfl⟩ := Prod.mk.inj h
      cases reply with
      | error fault => exact ⟨fault, hsend⟩
      | ok u => cases hreply
    next => cases (Prod.mk.inj h).1

/-- A receive leg that goes on is where it was, or has taken an item with a status. -/
theorem legs_of_receiveLeg
    (h : receiveLeg max conn now legs taken t = (.ok (legs', taken', moved), t')) :
    Replies.arrival? conn now legs taken t = none ∧ legs' = legs ∨
      ∃ item, Replies.arrival? conn now legs taken t = some item ∧ legs.received = none ∧
        legs.onItem max item = .ok legs' := by
  unfold receiveLeg at h
  unfold Replies.arrival?
  split at h
  next hsome =>
    rw [if_pos hsome]
    exact .inl ⟨rfl, (Prod.mk.inj (Except.ok.inj (Prod.mk.inj h).1)).1.symm⟩
  next hnone =>
    rw [if_neg hnone]
    split at h
    next item t₁ hread =>
      rw [hread]
      refine .inr ⟨item, rfl, by simpa using hnone, ?_⟩
      cases hitem : legs.onItem max item with
      | error e => rw [hitem] at h; cases (Prod.mk.inj h).1
      | ok l =>
        rw [hitem] at h
        exact congrArg _ (Prod.mk.inj (Except.ok.inj (Prod.mk.inj h).1)).1
    next taken₁ t₁ hread =>
      rw [hread]
      exact .inl ⟨rfl, (Prod.mk.inj (Except.ok.inj (Prod.mk.inj h).1)).1.symm⟩
    next hread =>
      rw [hread]
      exact .inl ⟨rfl, (Prod.mk.inj (Except.ok.inj (Prod.mk.inj h).1)).1.symm⟩

/-- A receive leg fails over the item that it takes. -/
theorem failed_of_receiveLeg {e : Eth.ExchangeError}
    (h : receiveLeg max conn now legs taken t = (.error e, t')) :
    ∃ item, Replies.arrival? conn now legs taken t = some item ∧ legs.received = none ∧
      legs.onItem max item = .error e := by
  unfold receiveLeg at h
  unfold Replies.arrival?
  split at h
  · cases (Prod.mk.inj h).1
  next hnone =>
    rw [if_neg hnone]
    split at h
    next item t₁ hread =>
      rw [hread]
      refine ⟨item, rfl, by simpa using hnone, ?_⟩
      cases hitem : legs.onItem max item with
      | error e' =>
        rw [hitem] at h
        exact congrArg _ (Except.error.inj (Prod.mk.inj h).1)
      | ok l => rw [hitem] at h; cases (Prod.mk.inj h).1
    next => cases (Prod.mk.inj h).1
    next => cases (Prod.mk.inj h).1

/-- What a turn of the exchange takes off the connection. -/
def turnItem? (cfg : AttemptConfig) (conn : ConnId) (now : Nat) (legs : Eth.Legs)
    (taken : List UInt8) (t : σ) : Option (Except TransportError Frame) :=
  match sendLeg cfg conn now legs t with
  | (.error _, _) => none
  | (.ok (legs, _), t) => Replies.arrival? conn now legs taken t

/-- The way to send our status does not fail in a turn. -/
def SendsOrWaits (cfg : AttemptConfig) (conn : ConnId) (now : Nat) (legs : Eth.Legs) (t : σ) :
    Prop :=
  legs.sent = false → ∀ fault t', Transport.send now conn Eth.Code.status
    (Eth.rlpBytes cfg.status) t ≠ some (.error fault, t')

/-- Where a turn begins, its send leg may have been first to move. -/
theorem ends_of_sendLeg (h : sendLeg cfg conn now legs t = (.ok (legs', moved), t'))
    (hends : legs'.Ends max items outcome) : legs.Ends max items outcome := by
  obtain rfl | ⟨hunsent, rfl⟩ := legs_of_sendLeg h
  · exact hends
  · exact .sends hunsent hends

/-- A turn leaves the legs so that what they come to, they come to from before it with what the turn
took; or it concludes the exchange with what the legs came to, or for the timer. -/
theorem cases_of_exchangeTurn? {s : Stepped σ} (hsend : SendsOrWaits cfg conn now legs t)
    (h : a.exchangeTurn? cfg ex peer conn legs deadline taken now t = some s) :
    (∃ legs' taken', s.1.phase = .exchanging peer conn legs' deadline taken' ∧
        ∀ items outcome, legs'.Ends ex.maxMessage items outcome →
          legs.Ends ex.maxMessage ((turnItem? cfg conn now legs taken t).toList ++ items) outcome) ∨
      ∃ outcome t', s = a.concluded cfg ex peer conn outcome t' ∧
        (outcome = .error (.timeout ex.timeout) ∨
          legs.Ends ex.maxMessage (turnItem? cfg conn now legs taken t).toList outcome) := by
  unfold exchangeTurn? at h
  split at h
  next e t₁ hleg =>
    obtain ⟨hunsent, fault, hfault⟩ := failed_of_sendLeg hleg
    exact absurd hfault (hsend hunsent fault t₁)
  next legs₁ sent t₁ hleg =>
    have hitem : turnItem? cfg conn now legs taken t =
        Replies.arrival? conn now legs₁ taken t₁ := by rw [turnItem?, hleg]
    rw [hitem]
    split at h
    next e t₂ hreceive =>
      obtain ⟨item, harrived, hwaits, hread⟩ := failed_of_receiveLeg hreceive
      refine .inr ⟨.error e, t₂, (Option.some.inj h).symm, .inr ?_⟩
      rw [harrived]
      exact ends_of_sendLeg hleg (.refuses item hwaits hread)
    next legs₂ taken₂ received t₂ hreceive =>
      have hback : ∀ items outcome, legs₂.Ends ex.maxMessage items outcome →
          legs.Ends ex.maxMessage
            ((Replies.arrival? conn now legs₁ taken t₁).toList ++ items) outcome := by
        intro items outcome hends
        refine ends_of_sendLeg hleg ?_
        obtain ⟨harrived, rfl⟩ | ⟨item, harrived, hwaits, hread⟩ := legs_of_receiveLeg hreceive
        · rw [harrived]
          exact hends
        · rw [harrived]
          exact .takes item hwaits hread hends
      split at h
      next theirs hdone =>
        refine .inr ⟨.ok theirs, t₂, (Option.some.inj h).symm, .inr ?_⟩
        have hends := hback [] _ (.finished hdone)
        rwa [List.append_nil] at hends
      next =>
        split at h
        · exact .inr ⟨_, t₂, (Option.some.inj h).symm, .inl rfl⟩
        · obtain ⟨-, h⟩ := Option.ite_none_right_eq_some.mp h
          obtain rfl := Option.some.inj h
          exact .inl ⟨legs₂, taken₂, rfl, hback⟩

/-- The turns of one exchange, whatever happens to the transport between them: what they take off the
connection, and the report that they lead to. Sending never fails. -/
inductive Exchanges (σ : Type) [Transport σ] (cfg : AttemptConfig) (ex : Eth.ExchangeConfig)
    (peer : PeerRef) (conn : ConnId) (deadline : Nat) :
    Eth.Legs → List UInt8 → List (Except TransportError Frame) → AttemptReport → Prop where
  | goesOn {legs legs' : Eth.Legs} {taken taken' : List UInt8} {report : AttemptReport}
      {items : List (Except TransportError Frame)} (a : Attempt) (now : Nat) (t : σ) (s : Stepped σ)
      (hsend : SendsOrWaits cfg conn now legs t)
      (hturn : a.exchangeTurn? cfg ex peer conn legs deadline taken now t = some s)
      (hphase : s.1.phase = .exchanging peer conn legs' deadline taken')
      (hrest : Exchanges σ cfg ex peer conn deadline legs' taken' items report) :
      Exchanges σ cfg ex peer conn deadline legs taken
        ((turnItem? cfg conn now legs taken t).toList ++ items) report
  | ends {legs : Eth.Legs} {taken : List UInt8} {report : AttemptReport} (a : Attempt) (now : Nat)
      (t : σ) (s : Stepped σ) (hsend : SendsOrWaits cfg conn now legs t)
      (hturn : a.exchangeTurn? cfg ex peer conn legs deadline taken now t = some s)
      (hphase : s.1.phase = .reporting report (some conn)) :
      Exchanges σ cfg ex peer conn deadline legs taken
        (turnItem? cfg conn now legs taken t).toList report

/-- Unless the timer fires, the legs come to an end over what the turns took, and that is concluded
and reported. -/
theorem Exchanges.legs_end {report : AttemptReport}
    (h : Exchanges σ cfg ex peer conn deadline legs taken items report)
    (htimer : report ≠ .ofExchange peer (.error (.timeout ex.timeout))) :
    ∃ outcome, legs.Ends ex.maxMessage items outcome ∧ ∃ name, report =
      .ofExchange peer (Eth.concludeExchange name ex cfg.status outcome).1 := by
  induction h with
  | goesOn a now t s hsend hturn hphase _ ih =>
    obtain ⟨outcome, hends, hreport⟩ := ih htimer
    obtain ⟨legs₁, taken₁, hphase₁, hback⟩ | ⟨outcome₁, t₁, rfl, -⟩ :=
      cases_of_exchangeTurn? hsend hturn
    · obtain ⟨-, -, rfl, -, -⟩ := AttemptPhase.exchanging.inj (hphase₁.symm.trans hphase)
      exact ⟨outcome, hback _ _ hends, hreport⟩
    · cases hphase
  | ends a now t s hsend hturn hphase =>
    obtain ⟨legs₁, taken₁, hphase₁, -⟩ | ⟨outcome, t₁, rfl, hends⟩ :=
      cases_of_exchangeTurn? hsend hturn
    · cases hphase₁.symm.trans hphase
    · obtain ⟨hreport, -⟩ := AttemptPhase.reporting.inj hphase
      obtain rfl | hends := hends
      · exact absurd hreport.symm htimer
      · exact ⟨outcome, hends, _, hreport.symm⟩

/-- An exchange comes to the verdict on the first item, and takes no other, when sending succeeds and
the timer does not fire. Over a scripted connection it does come to it, and a reader then reads all
that comes behind, in order. Over any transport, the turns of an attempt that reports take one item,
and the report is the verdict on it. -/
theorem exchange_verdict_on_first :
    (∀ (script : Script) (cfg : Eth.ExchangeConfig) (mine : Eth.Status) (first : ScriptEntry)
      (rest : List ScriptEntry), script.entries = first :: rest → script.sendError = none →
        script.sendAt ≤ cfg.timeout.millis → first.due ≤ cfg.timeout.millis →
        ∃ result log left now,
          Eth.exchangeOverScript script cfg mine = ((result, log), left, now) ∧
            Eth.Verdict cfg mine first.item result ∧ left.entries = rest ∧
            ∀ (r : Eth.Reading) (times : List Nat),
              List.Forall₂ (fun now (e : ScriptEntry) => script.started + e.due ≤ now) times rest →
                r.overScript left times = r.run (rest.map ScriptEntry.item)) ∧
      ∀ (σ : Type) [Transport σ] (cfg : AttemptConfig) (ex : Eth.ExchangeConfig) (peer : PeerRef)
        (conn : ConnId) (deadline : Nat) (items : List (Except TransportError Frame))
        (report : AttemptReport), Exchanges σ cfg ex peer conn deadline .start [] items report →
          report ≠ .ofExchange peer (.error (.timeout ex.timeout)) →
          ∃ item result, items = [item] ∧ report = .ofExchange peer result ∧
            Eth.Verdict ex cfg.status item result := by
  constructor
  · intro script cfg mine first rest hentries hsends hsendAt hfirst
    obtain ⟨result, log, left, now, hrun, hverdict, hleft, hstarted⟩ :=
      Eth.exchangeOverScript_verdict mine hentries hsends hsendAt hfirst
    refine ⟨result, log, left, now, hrun, hverdict, hleft, fun r times htimes => ?_⟩
    rw [← hleft]
    exact r.overScript_eq left times (by rwa [hstarted, hleft])
  · intro σ _ cfg ex peer conn deadline items report hruns htimer
    obtain ⟨outcome, hends, name, rfl⟩ := hruns.legs_end htimer
    obtain ⟨item, rfl, hverdict⟩ := hends.verdict name cfg.status
    exact ⟨item, _, rfl, rfl, hverdict⟩

/-- The remote end of a scripted connection. -/
def scriptedPeer : PeerRef := ⟨.replicate 64 1, .v4 .loopback, 30304, 30304⟩

/-- It answers with the status of the mainnet, and with a frame of another kind after that. -/
def answeringScript : Script :=
  ⟨scriptedPeer, 0,
    [⟨10, .ok (.ofPayload Eth.Code.status (Eth.rlpBytes Eth.Status.mainnet))⟩,
      ⟨20, .ok ⟨5, 1, [1]⟩⟩], none, 5, []⟩

/-- A transport whose only connection is that one. -/
def scriptedTransport : InProcess :=
  { InProcess.create none [] with links := [.script answeringScript] }

theorem exchange_verdict_on_first_answeringScript :
    let item : Except TransportError Frame :=
      .ok (.ofPayload Eth.Code.status (Eth.rlpBytes Eth.Status.mainnet))
    (∃ result log left now,
      Eth.exchangeOverScript answeringScript {} .mainnet = ((result, log), left, now) ∧
        Eth.Verdict {} .mainnet item result ∧ left.entries = [⟨20, .ok ⟨5, 1, [1]⟩⟩] ∧
          ∀ (r : Eth.Reading) (times : List Nat),
            List.Forall₂ (fun now (e : ScriptEntry) => 0 + e.due ≤ now) times
              [⟨20, .ok ⟨5, 1, [1]⟩⟩] → r.overScript left times = r.run [.ok ⟨5, 1, [1]⟩]) ∧
      Exchanges InProcess ⟨some {}, .mainnet, 0, true⟩ {} scriptedPeer 0 2000 .start [] [item]
        (.ofExchange scriptedPeer (.ok ⟨.mainnet, []⟩)) ∧
      ∃ item' result, [item] = [item'] ∧ AttemptReport.ofExchange scriptedPeer
        (.ok ⟨.mainnet, []⟩) = .ofExchange scriptedPeer result ∧
          Eth.Verdict {} .mainnet item' result :=
  have hturns : Exchanges InProcess ⟨some {}, .mainnet, 0, true⟩ {} scriptedPeer 0 2000 .start []
      [.ok (.ofPayload Eth.Code.status (Eth.rlpBytes Eth.Status.mainnet))]
      (.ofExchange scriptedPeer (.ok ⟨.mainnet, []⟩)) :=
    .ends (.create 0 scriptedPeer 1000 0) 10 scriptedTransport _ nofun rfl rfl
  ⟨exchange_verdict_on_first.1 answeringScript {} .mainnet _ _ rfl rfl (by decide) (by decide),
    hturns, exchange_verdict_on_first.2 InProcess _ {} scriptedPeer 0 2000 _ _ hturns nofun⟩

end Attempt

end PeerProbe
