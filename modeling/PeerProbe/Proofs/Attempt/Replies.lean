import PeerProbe.Proofs.Attempt.Acts
import PeerProbe.Proofs.Attempt.Ending

/-!
# How a report comes about

For its report an attempt relies on the outcome of its watcher and on what the transport replies to
it: whether there is a connection to run the exchange on, what becomes of our status, and what comes
first on the connection. As far as an attempt has come, its phase agrees with these replies, and its
report is the one that they lead to.
-/

namespace PeerProbe

open Transport

/-- What a transport has replied to an attempt so far: the connection it handed over for the
exchange, or that it had none; what became of sending our status; and the first thing that was read
from the connection. -/
structure Replies where
  handed : Option (Option ConnId)
  sent : Option (Except TransportError Unit)
  item : Option (Except TransportError Frame)

namespace Replies

/-- The transport was asked for nothing yet. -/
def empty : Replies := ⟨none, none, none⟩

/-- Nothing was sent or read yet. -/
def Fresh (r : Replies) : Prop := r.sent = none ∧ r.item = none

/-- Whether our status was sent. -/
def isSent (r : Replies) : Bool :=
  match r.sent with
  | some (.ok ()) => true
  | _ => false

/-- How far the two legs of the exchange have come. -/
def legs (r : Replies) (max : UInt32) : Eth.Legs :=
  ⟨r.isSent, r.item.bind fun item => (Eth.readStatus max item).toOption⟩

/-- The report of an exchange in which both legs went well and the policy was content. -/
def exchange? (r : Replies) (ex : Eth.ExchangeConfig) (mine : Eth.Status) :
    Option Eth.ExchangeReport :=
  (r.legs ex.maxMessage).finished?.bind fun theirs => (Eth.judge ex.policy mine theirs).toOption

/-- An exchange succeeded: it ran on a connection that was handed over, our status was sent, the
first thing that came is a status, and the policy is content with it. -/
structure Exchanged (r : Replies) (ex : Eth.ExchangeConfig) (mine : Eth.Status)
    (report : Eth.ExchangeReport) : Prop where
  handed : ∃ conn, r.handed = some (some conn)
  sent : r.sent = some (.ok ())
  received : ∃ item theirs, r.item = some item ∧ Eth.readStatus ex.maxMessage item = .ok theirs ∧
    Eth.judge ex.policy mine theirs = .ok report

variable {r : Replies} {ex : Eth.ExchangeConfig} {mine : Eth.Status}

/-- Our status was sent if the transport has said so. -/
theorem isSent_iff : r.isSent = true ↔ r.sent = some (.ok ()) := by
  unfold isSent
  split <;> simp_all

/-- Neither leg has moved in an exchange that is about to begin. -/
theorem Fresh.legs (h : r.Fresh) (max : UInt32) : r.legs max = .start := by
  rw [Replies.legs, isSent, h.1, h.2]
  rfl

/-- Only a success has a value. -/
theorem toOption_eq_some {ε α : Type} {x : Except ε α} {v : α} :
    x.toOption = some v ↔ x = .ok v := by
  cases x <;> simp [Except.toOption]

/-- An exchange has a report exactly if it succeeded. -/
theorem exchange?_eq_some {report : Eth.ExchangeReport} {conn : ConnId}
    (hhanded : r.handed = some (some conn)) :
    r.exchange? ex mine = some report ↔ r.Exchanged ex mine report := by
  constructor
  · intro h
    obtain ⟨theirs, hlegs, hjudge⟩ := Option.bind_eq_some_iff.mp h
    obtain ⟨hsent, hreceived⟩ := Option.ite_none_right_eq_some.mp hlegs
    obtain ⟨item, hitem, hread⟩ := Option.bind_eq_some_iff.mp hreceived
    exact ⟨⟨conn, hhanded⟩, isSent_iff.mp hsent, item, theirs, hitem,
      toOption_eq_some.mp hread, toOption_eq_some.mp hjudge⟩
  · rintro ⟨-, hsent, item, theirs, hitem, hread, hjudge⟩
    simp [exchange?, Replies.legs, Eth.Legs.finished?, isSent_iff.mpr hsent, hitem, hread, hjudge,
      Except.toOption]

/-! ## A turn of the exchange -/

variable {σ : Type} [Transport σ]

/-- Something has come on the connection, or nothing; what counts is what came first. -/
def arrived (r : Replies) (item : Option (Except TransportError Frame)) : Replies :=
  { r with item := r.item.or item }

/-- As long as there is no status, nothing has come. -/
def Expectant (r : Replies) (max : UInt32) : Prop := (r.legs max).received = none → r.item = none

/-- What comes in a turn, if the receive leg still waits for something. -/
def arrival? (conn : ConnId) (now : Nat) (legs : Eth.Legs) (taken : List UInt8) (t : σ) :
    Option (Except TransportError Frame) :=
  if legs.received.isSome then none
  else match Transport.read now conn taken t with
    | .ready item _ => some item
    | _ => none

/-- The replies after a turn of the exchange. A send that fails ends it before anything is read. -/
def turn (r : Replies) (mine : Eth.Status) (conn : ConnId) (legs : Eth.Legs) (taken : List UInt8)
    (now : Nat) (t : σ) : Replies :=
  if legs.sent then r.arrived (arrival? conn now legs taken t)
  else match Transport.send now conn Eth.Code.status (Eth.rlpBytes mine) t with
    | some (.error e, _) => { r with sent := some (.error e) }
    | some (.ok (), t) => { r with sent := some (.ok ()) }.arrived (arrival? conn now legs taken t)
    | none => r.arrived (arrival? conn now legs taken t)

/-- The replies after a step of an attempt. -/
def after (r : Replies) (cfg : AttemptConfig) (a : Attempt) (now : Nat) (t : σ) : Replies :=
  match a.phase with
  | .taking peer => { r with handed := some (Transport.take peer t).1 }
  | .exchanging _ conn legs _ taken =>
    if a.cancelled then r else r.turn cfg.status conn legs taken now t
  | _ => r

variable {cfg : AttemptConfig} {a : Attempt} {conn : ConnId} {now : Nat} {taken : List UInt8}
  {t : σ} {max : UInt32}

/-- The receive leg comes as far as the replies do, or ends with an error. -/
theorem receiveLeg_spec (hr : r.Expectant max) (conn : ConnId) (now : Nat) (taken : List UInt8)
    (t : σ) :
    let r' := r.arrived (arrival? conn now (r.legs max) taken t)
    (∃ taken' moved, (Attempt.receiveLeg max conn now (r.legs max) taken t).1 =
        .ok (r'.legs max, taken', moved) ∧ r'.Expectant max) ∨
      ∃ e, (Attempt.receiveLeg max conn now (r.legs max) taken t).1 = .error e ∧
        (r'.legs max).finished? = none := by
  unfold Attempt.receiveLeg arrival?
  have hnothing : r.arrived none = r := by rw [arrived, Option.or_none]
  split
  · exact .inl ⟨taken, false, by rw [hnothing], by rwa [hnothing]⟩
  · next hwaiting =>
    have hitem : r.item = none := hr (by simpa using hwaiting)
    cases Transport.read now conn taken t with
    | waiting => exact .inl ⟨taken, false, by rw [hnothing], by rwa [hnothing]⟩
    | ahead taken' t' => exact .inl ⟨taken', true, by rw [hnothing], by rwa [hnothing]⟩
    | ready item t' =>
      have harrived : r.arrived (some item) = { r with item := some item } := by
        rw [arrived, hitem, Option.none_or]
      cases hread : Eth.readStatus max item with
      | ok theirs =>
        refine .inl ⟨[], true, ?_, ?_⟩
        · simp [harrived, Eth.Legs.onItem, hread, Replies.legs, isSent, Except.map,
            Except.toOption]
        · simp [harrived, Expectant, Replies.legs, hread, Except.toOption]
      | error e =>
        refine .inr ⟨e, ?_, ?_⟩
        · simp [Eth.Legs.onItem, hread, Except.map]
        · simp [harrived, Eth.Legs.finished?, Replies.legs, hread, Except.toOption]

/-- The send leg comes as far as the replies do, and the turn goes on with what arrives; or it ends
the turn with an error. -/
theorem sendLeg_spec (hr : r.Expectant max) (cfg : AttemptConfig) (conn : ConnId) (now : Nat)
    (taken : List UInt8) (t : σ) :
    (∃ (r' : Replies) (t' : σ) (moved : Bool),
      Attempt.sendLeg cfg conn now (r.legs max) t = (.ok (r'.legs max, moved), t') ∧
        r'.Expectant max ∧ r.turn cfg.status conn (r.legs max) taken now t =
          r'.arrived (arrival? conn now (r'.legs max) taken t')) ∨
      ∃ e t', Attempt.sendLeg cfg conn now (r.legs max) t = (.error e, t') ∧
        ((r.turn cfg.status conn (r.legs max) taken now t).legs max).finished? = none := by
  unfold Attempt.sendLeg turn
  split
  · exact .inl ⟨r, t, false, rfl, hr, rfl⟩
  · cases Transport.send now conn Eth.Code.status (Eth.rlpBytes cfg.status) t with
    | none => exact .inl ⟨r, t, false, rfl, hr, rfl⟩
    | some reply =>
      obtain ⟨reply, t'⟩ := reply
      cases reply with
      | error e => exact .inr ⟨.transport e, t', rfl, rfl⟩
      | ok u =>
        refine .inl ⟨{ r with sent := some (.ok ()) }, t', true, ?_, hr, rfl⟩
        simp [Eth.Legs.onSent, Except.map, Replies.legs, isSent]

/-- An exchange that is over reports what its legs came to. -/
theorem exists_result (cfg : AttemptConfig) (ex : Eth.ExchangeConfig) (a : Attempt)
    (peer : PeerRef) (conn : ConnId) (outcome : Except Eth.ExchangeError Eth.Status) (t : σ) :
    ∃ result, (a.concluded cfg ex peer conn outcome t).1.phase =
        .reporting (.ofExchange peer result) (some conn) ∧
      result.toOption =
        outcome.toOption.bind fun theirs => (Eth.judge ex.policy cfg.status theirs).toOption := by
  refine ⟨_, rfl, ?_⟩
  cases outcome <;> rfl

/-- A turn of the exchange goes on as far as the replies have come, or reports what they come to. -/
theorem turn_spec {s : Attempt.Stepped σ} {peer : PeerRef} {deadline : Nat}
    (hr : r.Expectant ex.maxMessage)
    (h : a.exchangeTurn? cfg ex peer conn (r.legs ex.maxMessage) deadline taken now t = some s) :
    let r' := r.turn cfg.status conn (r.legs ex.maxMessage) taken now t
    (∃ taken', s.1.phase = .exchanging peer conn (r'.legs ex.maxMessage) deadline taken' ∧
        r'.Expectant ex.maxMessage) ∨
      ∃ result, s.1.phase = .reporting (.ofExchange peer result) (some conn) ∧
        result.toOption = r'.exchange? ex cfg.status := by
  intro r'
  -- an exchange without a status ends with an error
  have hfailed (e : Eth.ExchangeError) (t' : σ) (hnone : (r'.legs ex.maxMessage).finished? = none)
      (hs : s = a.concluded cfg ex peer conn (.error e) t') :
      ∃ result, s.1.phase = .reporting (.ofExchange peer result) (some conn) ∧
        result.toOption = r'.exchange? ex cfg.status := by
    obtain ⟨result, hphase, hresult⟩ := exists_result cfg ex a peer conn (.error e) t'
    exact ⟨result, hs ▸ hphase, by rw [hresult, exchange?, hnone]; rfl⟩
  unfold Attempt.exchangeTurn? at h
  rcases sendLeg_spec hr cfg conn now taken t with
    ⟨r₁, t₁, moved, hsend, hr₁, hturn⟩ | ⟨e, t₁, hsend, hunsent⟩
  · rw [hsend] at h
    dsimp only at h
    rcases receiveLeg_spec hr₁ conn now taken t₁ with
      ⟨taken', moved', hreceive, hr'⟩ | ⟨e, hreceive, hunread⟩
    · rw [← hturn] at hreceive hr'
      split at h
      · next hleg =>
        rw [hleg] at hreceive
        contradiction
      · next hleg =>
        rw [hleg] at hreceive
        cases hreceive
        split at h
        · next theirs hfinished =>
          obtain rfl := Option.some.inj h
          obtain ⟨result, hphase, hresult⟩ := exists_result cfg ex a peer conn (.ok theirs) t
          exact .inr ⟨result, hphase, by rw [hresult, exchange?, hfinished]; rfl⟩
        · next hunfinished =>
          split at h
          · exact .inr (hfailed _ _ hunfinished (Option.some.inj h).symm)
          · obtain ⟨-, h⟩ := Option.ite_none_right_eq_some.mp h
            obtain rfl := Option.some.inj h
            exact .inl ⟨taken', rfl, hr'⟩
    · rw [← hturn] at hunread
      split at h
      · exact .inr (hfailed _ _ hunread (Option.some.inj h).symm)
      · next hleg =>
        rw [hleg] at hreceive
        contradiction
  · rw [hsend] at h
    exact .inr (hfailed e t₁ hunsent (Option.some.inj h).symm)

/-! ## The way to a report -/

/-- How a report comes about from the outcome of the watcher and the replies of the transport. -/
inductive Explains (cfg : AttemptConfig) (r : Replies) (a : Attempt) : AttemptReport → Prop where
  | failed {reason : FailureReason} (h : a.watcher.result? = some (some (.failed reason))) :
      Explains cfg r a (.failed a.peer reason)
  | plain {peer : PeerRef} (h : a.watcher.result? = some (some (.connected peer)))
      (hex : cfg.exchange = none) : Explains cfg r a (.connected peer)
  | unhanded {peer : PeerRef} {ex : Eth.ExchangeConfig} (e : Eth.ExchangeError)
      (h : a.watcher.result? = some (some (.connected peer))) (hex : cfg.exchange = some ex)
      (hhanded : r.handed = some none) : Explains cfg r a (.failed peer (.exchange e))
  | exchanged {peer : PeerRef} {ex : Eth.ExchangeConfig} {conn : ConnId}
      {result : Except Eth.ExchangeError Eth.ExchangeReport}
      (h : a.watcher.result? = some (some (.connected peer))) (hex : cfg.exchange = some ex)
      (hhanded : r.handed = some (some conn))
      (hresult : result.toOption = r.exchange? ex cfg.status) :
      Explains cfg r a (.ofExchange peer result)

/-- An attempt is as far as the replies of the transport have brought it. -/
def Fits (cfg : AttemptConfig) (r : Replies) (a : Attempt) : Prop :=
  match a.phase with
  | .spawned | .dialing | .dialed | .watching => r.Fresh
  | .taking peer =>
    r.Fresh ∧ a.watcher.result? = some (some (.connected peer)) ∧ cfg.exchange.isSome = true
  | .exchanging peer conn legs _ _ =>
    a.watcher.result? = some (some (.connected peer)) ∧ r.handed = some (some conn) ∧
      ∃ ex, cfg.exchange = some ex ∧ legs = r.legs ex.maxMessage ∧ r.Expectant ex.maxMessage
  | .reporting report _ => r.Explains cfg a report
  | _ => ∀ report, a.report = some report → r.Explains cfg a report

/-- What explains a report explains it later on. -/
theorem Explains.later {a' : Attempt} {report : AttemptReport} (h : r.Explains cfg a report)
    (hpeer : a'.peer = a.peer)
    (hresult : ∀ o, a.watcher.result? = some o → a'.watcher.result? = some o) :
    r.Explains cfg a' report := by
  cases h with
  | failed h => exact hpeer ▸ .failed (hresult _ h)
  | plain h hex => exact .plain (hresult _ h) hex
  | unhanded e h hex hhanded => exact .unhanded e (hresult _ h) hex hhanded
  | exchanged h hex hhanded hresult' => exact .exchanged (hresult _ h) hex hhanded hresult'

/-- A new attempt has no replies. -/
theorem fits_create (cfg : AttemptConfig) (slot : Nat) (peer : PeerRef)
    (timeout subscription : Nat) :
    empty.Fits cfg (.create slot peer timeout subscription) := ⟨rfl, rfl⟩

/-- What leaves the course of an attempt alone leaves it as far as it is. -/
theorem Fits.sameCourse {a' : Attempt} (h : r.Fits cfg a) (hsame : a.SameCourse a') :
    r.Fits cfg a' := by
  have hexplains (report : AttemptReport) (hr : r.Explains cfg a report) :
      r.Explains cfg a' report := hr.later hsame.peer fun _ => hsame.result
  rw [Fits, hsame.phase]
  rw [Fits] at h
  cases hphase : a.phase with
  | spawned | dialing | dialed | watching => rwa [hphase] at h
  | taking peer =>
    rw [hphase] at h
    exact ⟨h.1, hsame.result h.2.1, h.2.2⟩
  | exchanging peer conn legs deadline taken =>
    rw [hphase] at h
    exact ⟨hsame.result h.1, h.2⟩
  | reporting report conn =>
    rw [hphase] at h
    exact hexplains _ h
  | _ =>
    rw [hphase] at h
    exact fun report hreport => hexplains _ (h report (hsame.report ▸ hreport))

/-- An attempt that takes the connection goes on with it, or reports that there is none. -/
theorem taking_spec {s : Attempt.Stepped σ} {peer : PeerRef} (hphase : a.phase = .taking peer)
    (h : a.step? cfg now t = some s) :
    (∃ conn deadline, (Transport.take peer t).1 = some conn ∧
        s.1.phase = .exchanging peer conn .start deadline []) ∨
      ((Transport.take peer t).1 = none ∧
        s.1.phase = .reporting (.failed peer (.exchange (.transport .disconnected))) none) := by
  simp only [Attempt.step?, hphase, Option.map_eq_some_iff] at h
  obtain ⟨ex, -, rfl⟩ := h
  unfold Attempt.takeForExchange
  dsimp only
  split
  · next conn t' htake => exact .inl ⟨conn, _, by rw [htake], rfl⟩
  · next htake => exact .inr ⟨by rw [htake], rfl⟩

/-- A step of the attempt does not change what explains a report. -/
theorem Explains.step? {s : Attempt.Stepped σ} {report : AttemptReport}
    (hr : r.Explains cfg a report) (h : a.step? cfg now t = some s) :
    r.Explains cfg s.1 report :=
  have hadvance := Attempt.advance_of_step? h
  hr.later hadvance.peer fun o ho => by rw [hadvance.watcher, ho]

/-- A step that takes the connection brings the attempt as far as the reply. -/
theorem Fits.taking {s : Attempt.Stepped σ} {peer : PeerRef} (hphase : a.phase = .taking peer)
    (hr : r.Fits cfg a) (h : a.step? cfg now t = some s) : (r.after cfg a now t).Fits cfg s.1 := by
  have hafter : r.after cfg a now t = { r with handed := some (Transport.take peer t).1 } := by
    rw [after, hphase]
  rw [Fits, hphase] at hr
  obtain ⟨hfresh, hresult, hex⟩ := hr
  obtain ⟨ex, hex⟩ := Option.isSome_iff_exists.mp hex
  rcases taking_spec hphase h with ⟨conn, deadline, htake, hnext⟩ | ⟨htake, hnext⟩
  · rw [hafter, htake, Fits, hnext, (Attempt.advance_of_step? h).watcher]
    exact ⟨hresult, rfl, ex, hex, (Fresh.legs hfresh _).symm, fun _ => hfresh.2⟩
  · rw [hafter, htake, Fits, hnext]
    exact Explains.step? (.unhanded _ hresult hex rfl) h

/-- A turn of the exchange brings the attempt as far as the replies. -/
theorem Fits.exchanging {s : Attempt.Stepped σ} {peer : PeerRef} {legs : Eth.Legs} {deadline : Nat}
    (hphase : a.phase = .exchanging peer conn legs deadline taken)
    (hcancelled : a.cancelled = false) (hr : r.Fits cfg a) (h : a.step? cfg now t = some s) :
    (r.after cfg a now t).Fits cfg s.1 := by
  have hafter : r.after cfg a now t = r.turn cfg.status conn legs taken now t := by
    rw [after, hphase]
    exact if_neg (by rw [hcancelled]; exact Bool.false_ne_true)
  rw [Fits, hphase] at hr
  obtain ⟨hresult, hhanded, ex, hex, rfl, hexpectant⟩ := hr
  have hhanded' : (r.turn cfg.status conn (r.legs ex.maxMessage) taken now t).handed =
      some (some conn) := by
    rw [← hhanded, turn]
    split
    · rfl
    · split <;> rfl
  have hturn : a.exchangeTurn? cfg ex peer conn (r.legs ex.maxMessage) deadline taken now t =
      some s := by
    simpa [Attempt.step?, hphase, hcancelled, hex] using h
  rcases turn_spec hexpectant hturn with ⟨taken', hnext, hexpectant'⟩ | ⟨result, hnext, hreached⟩
  · rw [hafter, Fits, hnext, (Attempt.advance_of_step? h).watcher]
    exact ⟨hresult, hhanded', ex, hex, rfl, hexpectant'⟩
  · rw [hafter, Fits, hnext]
    exact Explains.step? (.exchanged hresult hex hhanded' hreached) h

/-- Every step of an attempt takes it as far as the replies that it gets. -/
theorem Fits.step? {s : Attempt.Stepped σ} (hr : r.Fits cfg a) (hsound : a.Sound cfg)
    (h : a.step? cfg now t = some s) : (r.after cfg a now t).Fits cfg s.1 := by
  have hgoes := Attempt.goes_of_step? h
  have hreport := (Attempt.does_of_step? h).report
  have hundecided (hstage : a.phase.stage = .undecided) : a.report = none := hsound.undecided hstage
  cases hphase : a.phase with
  | taking peer => exact hr.taking hphase h
  | exchanging peer conn legs deadline taken =>
    cases hcancelled : a.cancelled with
    | false => exact hr.exchanging hphase hcancelled h
    | true =>
      -- a cancelled exchange never reports
      have hnone : s.1.report = none := by
        rw [hreport, hphase]
        exact hundecided (by rw [hphase]; rfl)
      have hnext : s.1.phase = .removing (some conn) := by
        simp only [Attempt.step?, hphase, hcancelled, ↓reduceIte, Option.some.injEq] at h
        rw [← h]
        rfl
      rw [Fits, hnext]
      exact fun report hsome => absurd (hsome.symm.trans hnone) (Option.some_ne_none report)
  | finished => simp [Attempt.step?, hphase] at h
  | watching =>
    have hafter : r.after cfg a now t = r := by rw [after, hphase]
    have hnone : s.1.report = none := by
      rw [hreport, hphase]
      exact hundecided (by rw [hphase]; rfl)
    have hexplains {report : AttemptReport} (he : r.Explains cfg a report) :
        r.Explains cfg s.1 report := he.step? h
    have hwatcher := (Attempt.advance_of_step? h).watcher
    rw [hphase] at hgoes
    rw [Fits, hphase] at hr
    rw [hafter, Fits, hnone, hwatcher]
    generalize s.1.phase = q at hgoes
    cases hgoes with
    | cancelledWatch => exact fun report hsome => absurd hsome.symm (Option.some_ne_none report)
    | failed hresult => exact hexplains (.failed hresult)
    | connected hresult hex => exact hexplains (.plain hresult hex)
    | exchange hresult hex => exact ⟨hr, hresult, hex⟩
  | spawned | dialing | dialed =>
    have hafter : r.after cfg a now t = r := by rw [after, hphase]
    rw [hphase] at hgoes
    rw [Fits, hphase] at hr
    rw [hafter, Fits]
    generalize s.1.phase = q at hgoes
    cases hgoes
    exact hr
  | _ =>
    have hafter : r.after cfg a now t = r := by rw [after, hphase]
    have hsome : ∀ report, s.1.report = some report → r.Explains cfg s.1 report := by
      intro report hsome
      rw [hreport, hphase] at hsome
      rw [Fits, hphase] at hr
      first
      | exact (hr report hsome).step? h
      | exact (Option.some.inj hsome ▸ hr : r.Explains cfg a report).step? h
    rw [hphase] at hgoes
    rw [hafter, Fits]
    generalize s.1.phase = q at hgoes
    cases hgoes <;> exact hsome

/-- The report of an attempt is explained. -/
theorem Fits.explains {report : AttemptReport} (hr : r.Fits cfg a) (hsound : a.Sound cfg)
    (hreport : a.report = some report) : r.Explains cfg a report := by
  have hdecided : a.stage ≠ .undecided := fun h =>
    absurd (hreport.symm.trans (hsound.undecided h)) nofun
  rw [Attempt.stage] at hdecided
  rw [Fits] at hr
  generalize a.phase = p at hr hdecided
  cases p <;> first | exact hr report hreport | exact absurd rfl hdecided

end Replies

end PeerProbe
