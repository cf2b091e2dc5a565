import PeerProbe.Proofs.Attempt.Acts
import PeerProbe.Proofs.Attempt.Ending

/-!
# The ways of an attempt

Whatever happens to it, an attempt takes one of a few ways: with an exchange or without, with a
report or without, with a connection taken for the traffic that follows, with that traffic observed,
and with the removal of its peer or without. The way fixes everything that the attempt does, in
order. The report and the settings fix the rest of the way: the peer is removed unless the report
says that it is connected and the settings say to keep it.

An attempt that is on its way without ever reporting is silent: its watcher had no outcome, or it
was cancelled in its exchange.
-/

namespace PeerProbe

/-- The ways an attempt may take. -/
structure Way where
  exchanges : Bool
  reports : Bool
  takes : Bool
  observes : Bool
  removes : Bool

namespace Way

/-- How every attempt begins. -/
def opening : List AttemptAct := [.subscribe, .publish .dialing, .dial, .publish .watching]

/-- What is done for an exchange. -/
def exchange (w : Way) : List AttemptAct :=
  if w.exchanges then [.publish .handshaking, .take] else []

/-- What is done about the outcome. -/
def verdict (w : Way) : List AttemptAct := if w.reports then [.report] else []

/-- What is done for the traffic that follows. -/
def traffic (w : Way) : List AttemptAct :=
  (if w.takes then [.take] else []) ++ if w.observes then [.publish .observing] else []

/-- What is done about the peer in the end. -/
def removal (w : Way) : List AttemptAct := if w.removes then [.remove] else []

/-- Everything that is done before the peer is let go or kept. -/
def course (w : Way) : List AttemptAct := opening ++ w.exchange ++ w.verdict ++ w.traffic

/-- Everything that is done. -/
def acts (w : Way) : List AttemptAct := w.course ++ w.removal ++ [.publish .idle]

/-- What has been done when a phase begins. -/
def before (w : Way) : AttemptPhase → List AttemptAct
  | .spawned | .dialing => [.subscribe, .publish .dialing]
  | .dialed => [.subscribe, .publish .dialing, .dial]
  | .watching => opening
  | .taking _ => opening ++ [.publish .handshaking]
  | .exchanging .. | .reporting .. => opening ++ w.exchange
  | .keeping _ | .resuming _ => opening ++ w.exchange ++ w.verdict
  | .handingOver _ | .observing .. | .hangingUp _ | .removing _ => w.course
  | .idling _ => w.course ++ w.removal
  | .closing _ | .releasing | .finished => w.acts

/-- The way of an attempt that has no report yet. -/
def undecided (exchanges : Bool) : Way := ⟨exchanges, false, false, false, true⟩

/-! ## What is done on a way -/

/-- How often each thing is done on a way. -/
theorem count_acts (w : Way) :
    w.acts.count .subscribe = 1 ∧ w.acts.count .dial = 1 ∧
      w.acts.count .take = w.exchanges.toNat + w.takes.toNat ∧
      w.acts.count .report = w.reports.toNat ∧ w.acts.count .remove = w.removes.toNat := by
  obtain ⟨e, r, t, o, m⟩ := w
  revert e r t o m
  decide

/-- In which order things are done on a way. -/
theorem idxOf_acts (w : Way) :
    w.acts.idxOf .subscribe < w.acts.idxOf .dial ∧
      (w.reports = true → w.removes = true → w.acts.idxOf .report < w.acts.idxOf .remove) ∧
      (w.reports = true → w.observes = true →
        w.acts.idxOf .report < w.acts.idxOf (.publish .observing)) := by
  obtain ⟨e, r, t, o, m⟩ := w
  revert e r t o m
  decide

/-- What is done last, and when a way observes. -/
theorem suffix_acts (w : Way) :
    (w.removes = true → [.remove, .publish .idle] <:+ w.acts) ∧
      (.publish .observing ∈ w.acts ↔ w.observes = true) := by
  obtain ⟨e, r, t, o, m⟩ := w
  revert e r t o m
  decide

/-- The states that are shown on a way. -/
theorem states_acts (w : Way) :
    w.acts.filterMap AttemptAct.state? =
      [.dialing, .watching] ++ (if w.exchanges then [.handshaking] else []) ++
        (if w.observes then [.observing] else []) ++ [.idle] := by
  obtain ⟨e, r, t, o, m⟩ := w
  revert e r t o m
  decide

/-! ## The way of an attempt -/

/-- A way agrees with the settings and with the report of an attempt. -/
structure Fits (cfg : AttemptConfig) (a : Attempt) (w : Way) : Prop where
  exchanges : w.exchanges = true → cfg.exchange.isSome = true
  reports : w.reports = a.report.isSome
  takes : w.takes = true → w.exchanges = false
  observes : w.observes = true → a.isConnected = true ∧ cfg.disconnect = true ∧ cfg.observes = true
  removes : w.removes = !a.keepsPeer cfg

/-- What a way has to agree with in a phase. An exchange leaves its connection to what follows, so
one that follows without a connection comes from no exchange. -/
def Leads (cfg : AttemptConfig) (a : Attempt) (w : Way) : Prop :=
  match a.phase with
  | .taking _ | .exchanging .. => w.exchanges = true
  | .reporting report conn =>
    report.outcome.isConnected = true → conn = none → w.exchanges = false
  | .keeping conn => a.keepsPeer cfg = true ∧ (conn = none → w.exchanges = false)
  | .resuming conn =>
    (a.isConnected = true ∧ cfg.disconnect = true ∧ cfg.observes = true) ∧
      (conn = none → w.exchanges = false)
  | .handingOver _ => a.keepsPeer cfg = true
  | .observing .. | .hangingUp _ => a.isConnected = true
  | _ => True

variable {cfg : AttemptConfig} {a a' : Attempt} {w : Way}

/-- A way fits an attempt whatever becomes of it, but for its report. -/
theorem Fits.congr (h : w.Fits cfg a) (hreport : a'.report = a.report) : w.Fits cfg a' := by
  exact ⟨h.exchanges, by rw [hreport, h.reports], h.takes,
    by rw [Attempt.isConnected_congr hreport]; exact h.observes,
    by rw [h.removes, Attempt.keepsPeer_congr hreport]⟩

/-- An attempt without a report fits the ways without one. -/
theorem fits_undecided (hreport : a.report = none) {exchanges : Bool}
    (hexchanges : exchanges = true → cfg.exchange.isSome = true) :
    (undecided exchanges).Fits cfg a :=
  ⟨hexchanges, by rw [hreport]; rfl, nofun, nofun,
    by rw [Attempt.keepsPeer_of_report_eq_none hreport]; rfl⟩

/-- A report leaves open what follows, but not what becomes of the peer. -/
theorem Fits.reported (h : w.Fits cfg a) {report : AttemptReport}
    (hreport : a'.report = some report) :
    (Way.mk w.exchanges true false false (!a'.keepsPeer cfg)).Fits cfg a' :=
  ⟨h.exchanges, by rw [hreport]; rfl, nofun, nofun, rfl⟩

/-- What follows a report may be chosen where there was no exchange, and traffic is observed where
the settings say so. -/
theorem Fits.followed (h : w.Fits cfg a) (hreport : a'.report = a.report) {takes observes : Bool}
    (htakes : takes = true → w.exchanges = false)
    (hobserves : observes = true →
      a'.isConnected = true ∧ cfg.disconnect = true ∧ cfg.observes = true) :
    (Way.mk w.exchanges w.reports takes observes w.removes).Fits cfg a' :=
  ⟨h.exchanges, by rw [hreport, h.reports], htakes, hobserves,
    by rw [Attempt.keepsPeer_congr hreport, h.removes]⟩

/-- What has been done on a way is the beginning of what is done. -/
theorem before_prefix (h : w.Leads cfg a) : w.before a.phase <+: w.acts := by
  have hopening : opening <+: w.acts := by simp [acts, course]
  have hexchange : opening ++ w.exchange <+: w.acts := by
    simp only [acts, course, List.append_assoc]
    simp
  unfold Leads at h
  cases hphase : a.phase with
  | spawned | dialing | dialed =>
    refine List.IsPrefix.trans ?_ hopening
    simp [before, opening]
  | watching => exact hopening
  | taking =>
    rw [hphase] at h
    have hshown : opening ++ [.publish .handshaking] <+: opening ++ w.exchange := by
      simp only [exchange, h]
      decide
    exact hshown.trans hexchange
  | exchanging | reporting => exact hexchange
  | keeping | resuming => simp [before, acts, course]
  | handingOver | observing | hangingUp | removing => simp [before, acts]
  | idling => simp [before, acts]
  | closing | releasing | finished => simp [before]

end Way

namespace Attempt

variable {cfg : AttemptConfig} {a a' : Attempt}

/-- An attempt is on one of the ways. -/
def OnWay (cfg : AttemptConfig) (a : Attempt) : Prop :=
  a.Sound cfg ∧ ∃ w : Way, w.Fits cfg a ∧ w.Leads cfg a ∧ a.history = w.before a.phase

/-- Attempts begin on a way. -/
theorem onWay_create (cfg : AttemptConfig) (slot : Nat) (peer : PeerRef)
    (timeout subscription : Nat) : (create slot peer timeout subscription).OnWay cfg :=
  ⟨sound_create cfg slot peer timeout subscription, .undecided false,
    Way.fits_undecided rfl nofun, trivial, rfl⟩

/-- What leaves the course of an attempt alone leaves it on its way. -/
theorem OnWay.sameCourse (ha : a.OnWay cfg) (h : a.SameCourse a') : a'.OnWay cfg := by
  obtain ⟨hs, w, hfits, hleads, hhistory⟩ := ha
  refine ⟨hs.course h.course, w, hfits.congr h.report, ?_, by rw [h.history, hhistory, h.phase]⟩
  rw [Way.Leads, h.phase, isConnected_congr h.report, keepsPeer_congr h.report]
  exact hleads

/-- Going along the graph and doing what belongs to it keeps an attempt on a way. -/
theorem OnWay.goes (ha : a.OnWay cfg) (hgoes : Goes cfg a a.phase a'.phase)
    (hhistory' : a'.history = a.history ++ a.phase.actsTo cfg a'.phase)
    (hreport' : a'.report = a.phase.reported a.report) (hs' : a'.Sound cfg) : a'.OnWay cfg := by
  obtain ⟨hs, w, hfits, hleads, hhistory⟩ := ha
  have hundecided := hs.undecided
  have hkeeping := hs.keeping
  have hleaving := hs.leaving
  rw [hhistory] at hhistory'
  refine ⟨hs', ?_⟩
  unfold Way.Leads at hleads ⊢
  unfold stage at hundecided hkeeping hleaving
  generalize a.phase = p at hgoes hhistory' hreport' hleads hundecided hkeeping hleaving
  generalize a'.phase = q at hgoes hhistory' ⊢
  cases hgoes with
  | spawn => exact ⟨w, hfits.congr hreport', trivial, hhistory'⟩
  | dial => exact ⟨w, hfits.congr hreport', trivial, hhistory'⟩
  | watch => exact ⟨w, hfits.congr hreport', trivial, hhistory'⟩
  | cancelledWatch =>
    exact ⟨.undecided false, Way.fits_undecided (hreport'.trans (hundecided rfl)) nofun, trivial,
      hhistory'⟩
  | failed =>
    exact ⟨.undecided false, Way.fits_undecided (hreport'.trans (hundecided rfl)) nofun, nofun,
      hhistory'⟩
  | connected =>
    exact ⟨.undecided false, Way.fits_undecided (hreport'.trans (hundecided rfl)) nofun,
      fun _ _ => rfl, hhistory'⟩
  | exchange _ hex =>
    exact ⟨.undecided true, Way.fits_undecided (hreport'.trans (hundecided rfl)) fun _ => hex, rfl,
      hhistory'⟩
  | taken =>
    exact ⟨.undecided true, Way.fits_undecided (hreport'.trans (hundecided rfl)) fun _ =>
      hfits.exchanges hleads, rfl, hhistory'⟩
  | untaken =>
    exact ⟨.undecided true, Way.fits_undecided (hreport'.trans (hundecided rfl)) fun _ =>
      hfits.exchanges hleads, nofun, hhistory'⟩
  | cancelledExchange =>
    refine ⟨.undecided true, Way.fits_undecided (hreport'.trans (hundecided rfl)) fun _ =>
      hfits.exchanges hleads, trivial, ?_⟩
    rw [hhistory']
    simp [Way.before, Way.course, Way.exchange, hleads]
    rfl
  | turn => exact ⟨w, hfits.congr hreport', hleads, hhistory'.trans (List.append_nil _)⟩
  | exchanged => exact ⟨w, hfits.congr hreport', nofun, hhistory'.trans (List.append_nil _)⟩
  | @keep report conn hkeep =>
    have hreport : a'.report = some report := hreport'
    have hkeeps : a'.keepsPeer cfg = true := (keepsPeer_of_report_eq_some hreport).trans hkeep
    exact ⟨_, hfits.reported hreport, ⟨hkeeps, hleads (Bool.and_eq_true_iff.mp hkeep).1⟩, hhistory'⟩
  | @observe report conn hobserve =>
    simp only [Bool.and_eq_true] at hobserve
    obtain ⟨⟨hconnected, hdisconnect⟩, hobserves⟩ := hobserve
    have hreport : a'.report = some report := hreport'
    have hconnected' : a'.isConnected = true :=
      (isConnected_of_report_eq_some hreport).trans hconnected
    exact ⟨_, hfits.reported hreport, ⟨⟨hconnected', hdisconnect, hobserves⟩, hleads hconnected⟩,
      hhistory'⟩
  | @leave report conn hleave =>
    have hreport : a'.report = some report := hreport'
    exact ⟨_, hfits.reported hreport, trivial, hhistory'.trans (List.append_nil _).symm⟩
  | @held conn c =>
    obtain ⟨hkeeps, hnone⟩ := hleads
    refine ⟨⟨w.exchanges, w.reports, conn.isNone && cfg.observes, false, w.removes⟩,
      hfits.followed hreport' (fun h => hnone ?_) nofun, (keepsPeer_congr hreport').trans hkeeps, ?_⟩
    · exact Option.isNone_iff_eq_none.mp (Bool.and_eq_true_iff.mp h).1
    · rw [hhistory']
      cases conn <;> simp [Way.before, Way.course, Way.traffic, AttemptPhase.actsTo] <;> rfl
  | @unheld conn =>
    obtain ⟨hkeeps, hnone⟩ := hleads
    have hremoves : w.removes = false := by rw [hfits.removes, hkeeps]; rfl
    refine ⟨⟨w.exchanges, w.reports, conn.isNone && cfg.observes, false, w.removes⟩,
      hfits.followed hreport' (fun h => hnone ?_) nofun, trivial, ?_⟩
    · exact Option.isNone_iff_eq_none.mp (Bool.and_eq_true_iff.mp h).1
    · rw [hhistory']
      cases conn <;>
        simp [Way.before, Way.course, Way.traffic, Way.removal, hremoves, AttemptPhase.actsTo] <;>
        rfl
  | handedOver =>
    have hremoves : w.removes = false := by rw [hfits.removes, hleads]; rfl
    refine ⟨w, hfits.congr hreport', trivial, ?_⟩
    rw [hhistory']
    simp [Way.before, Way.removal, hremoves, AttemptPhase.actsTo]
  | @resumed conn c reading deadline =>
    obtain ⟨⟨hconnected, hdecided⟩, hnone⟩ := hleads
    have hconnected' : a'.isConnected = true := (isConnected_congr hreport').trans hconnected
    refine ⟨⟨w.exchanges, w.reports, conn.isNone, true, w.removes⟩,
      hfits.followed hreport' (fun h => hnone (Option.isNone_iff_eq_none.mp h))
        fun _ => ⟨hconnected', hdecided⟩, hconnected', ?_⟩
    rw [hhistory']
    cases conn <;> simp [Way.before, Way.course, Way.traffic, AttemptPhase.actsTo] <;> rfl
  | @unresumed conn =>
    obtain ⟨⟨hconnected, hdecided⟩, hnone⟩ := hleads
    have hconnected' : a'.isConnected = true := (isConnected_congr hreport').trans hconnected
    refine ⟨⟨w.exchanges, w.reports, conn.isNone, conn.isSome, w.removes⟩,
      hfits.followed hreport' (fun h => hnone (Option.isNone_iff_eq_none.mp h))
        fun _ => ⟨hconnected', hdecided⟩, trivial, ?_⟩
    rw [hhistory']
    cases conn <;> simp [Way.before, Way.course, Way.traffic, AttemptPhase.actsTo] <;> rfl
  | look | observed =>
    have hconnected' : a'.isConnected = true := (isConnected_congr hreport').trans hleads
    exact ⟨w, hfits.congr hreport', hconnected', hhistory'.trans (List.append_nil _)⟩
  | hungUp => exact ⟨w, hfits.congr hreport', trivial, hhistory'.trans (List.append_nil _)⟩
  | removed =>
    have hremoves : w.removes = true := by rw [hfits.removes, hleaving rfl]; rfl
    refine ⟨w, hfits.congr hreport', trivial, ?_⟩
    rw [hhistory']
    simp [Way.before, Way.removal, hremoves, AttemptPhase.actsTo]
  | idled => exact ⟨w, hfits.congr hreport', trivial, hhistory'⟩
  | closed | released =>
    exact ⟨w, hfits.congr hreport', trivial, hhistory'.trans (List.append_nil _)⟩

/-! ## Attempts that have ended -/

/-- What an attempt whose task has ended has done, all in all. -/
structure Account (cfg : AttemptConfig) (a : Attempt) : Prop where
  /-- It subscribed, once, before it dialled. -/
  subscribes : a.history.count .subscribe = 1 ∧
    a.history.idxOf .subscribe < a.history.idxOf .dial
  /-- It dialled once. -/
  dials : a.history.count .dial = 1
  /-- It asked for a connection at most once. -/
  takes : a.history.count .take ≤ 1
  /-- It removed its peer once, or not at all if it was to keep it. -/
  removes : a.history.count .remove = if a.keepsPeer cfg then 0 else 1
  /-- The removal came last, but for the end itself. -/
  removesLast : a.keepsPeer cfg = false → [.remove, .publish .idle] <:+ a.history
  /-- It reported once, or not at all if it has no report. -/
  reports : a.history.count .report = if a.report.isSome then 1 else 0
  /-- The report came before the removal. -/
  reportsFirst : a.report.isSome = true → a.keepsPeer cfg = false →
    a.history.idxOf .report < a.history.idxOf .remove
  /-- These are the states it showed, in order. -/
  states : ∃ exchanges observes : Bool, (exchanges = true → cfg.exchange.isSome = true) ∧
    a.history.filterMap AttemptAct.state? =
      [.dialing, .watching] ++ (if exchanges then [.handshaking] else []) ++
        (if observes then [.observing] else []) ++ [.idle]
  /-- It observed only behind the report of a connection, where the settings said so. -/
  observes : .publish .observing ∈ a.history →
    a.isConnected = true ∧ cfg.disconnect = true ∧ cfg.observe ≠ 0 ∧
      a.history.idxOf .report < a.history.idxOf (.publish .observing)

/-- What others see of an attempt is the state that it showed last. -/
def ShowsLast (a : Attempt) : Prop :=
  (a.history.filterMap AttemptAct.state?).getLast? = some a.state

/-- An attempt that has come to the end of its way has done what belongs to it. -/
theorem OnWay.account (ha : a.OnWay cfg) (hfinished : a.isFinished = true) : a.Account cfg := by
  obtain ⟨-, w, hfits, -, hhistory⟩ := ha
  have hphase : a.phase = .finished := by simpa [isFinished] using hfinished
  replace hhistory : a.history = w.acts := by rw [hhistory, hphase]; rfl
  obtain ⟨hsubscribe, hdial, htake, hreport, hremove⟩ := w.count_acts
  obtain ⟨hdialled, hremoved, hobserved⟩ := w.idxOf_acts
  obtain ⟨hlast, hobserves⟩ := w.suffix_acts
  have hremoves : a.keepsPeer cfg = false → w.removes = true := fun h => by
    rw [hfits.removes, h]
    rfl
  have hconnected : a.isConnected = true → w.reports = true := fun h => by
    rw [hfits.reports]
    cases hnone : a.report with
    | none => simp [isConnected, hnone] at h
    | some r => rfl
  refine ⟨by rw [hhistory]; exact ⟨hsubscribe, hdialled⟩, by rw [hhistory, hdial], ?_, ?_,
    fun h => by rw [hhistory]; exact hlast (hremoves h), ?_, fun hr h => ?_,
    ⟨w.exchanges, w.observes, hfits.exchanges, by rw [hhistory, w.states_acts]⟩, fun h => ?_⟩
  · rw [hhistory, htake]
    cases htakes : w.takes with
    | true => simp [hfits.takes htakes]
    | false => exact Bool.toNat_le w.exchanges
  · rw [hhistory, hremove, hfits.removes]
    cases a.keepsPeer cfg <;> rfl
  · rw [hhistory, hreport, hfits.reports]
    cases a.report.isSome <;> rfl
  · rw [hhistory]
    exact hremoved (hfits.reports.trans hr) (hremoves h)
  · rw [hhistory] at h ⊢
    have hw := hobserves.mp h
    obtain ⟨hconn, hdisconnect, hwanted⟩ := hfits.observes hw
    exact ⟨hconn, hdisconnect, by simpa [AttemptConfig.observes] using hwanted,
      hobserved (hconnected hconn) hw⟩

end Attempt

/-! ## Attempts that never report -/

/-- Whether an attempt in a phase still waits for its watcher. -/
def AttemptPhase.isEarly : AttemptPhase → Bool
  | .spawned | .dialing | .dialed | .watching => true
  | _ => false

/-- Whether nothing is left from a phase on but to remove the peer and to end. -/
def AttemptPhase.isLeaving : AttemptPhase → Bool
  | .removing _ | .idling _ | .closing _ | .releasing | .finished => true
  | _ => false

namespace Attempt

variable {cfg : AttemptConfig} {a a' : Attempt}

/-- An attempt that will end without a report: its watcher is done and has no outcome, or the
attempt is about to leave. -/
structure Silent (a : Attempt) : Prop where
  report : a.report = none
  phase : a.phase.isEarly = true ∧ a.watcher.result? = some none ∨ a.phase.isLeaving = true

/-- What leaves the course of a silent attempt alone leaves it silent. -/
theorem Silent.sameCourse (ha : a.Silent) (h : a.SameCourse a') : a'.Silent := by
  refine ⟨h.report.trans ha.report, ?_⟩
  rw [h.phase]
  exact ha.phase.imp (fun hearly => ⟨hearly.1, h.result hearly.2⟩) id

/-- A silent attempt stays silent wherever it goes, and comes closer to its end. -/
theorem Silent.goes (ha : a.Silent) (hgoes : Goes cfg a a.phase a'.phase)
    (hreport : a'.report = a.phase.reported a.report) (hwatcher : a'.watcher = a.watcher) :
    a'.Silent ∧ a'.phase.rank < a.phase.rank := by
  obtain ⟨hnone, hphase⟩ := ha
  suffices hgoal : a'.report = none ∧
      (a'.phase.isEarly = true ∧ a.watcher.result? = some none ∨ a'.phase.isLeaving = true) ∧
        a'.phase.rank < a.phase.rank by
    exact ⟨⟨hgoal.1, by rw [hwatcher]; exact hgoal.2.1⟩, hgoal.2.2⟩
  generalize a.phase = p at hgoes hreport hphase ⊢
  generalize a'.phase = q at hgoes ⊢
  cases hgoes with
  | spawn | dial | watch =>
    obtain ⟨-, hresult⟩ | hleaving := hphase
    · exact ⟨hreport.trans hnone, .inl ⟨rfl, hresult⟩, by simp [AttemptPhase.rank]⟩
    · contradiction
  | failed h | connected h | exchange h =>
    obtain ⟨-, hresult⟩ | hleaving := hphase
    · simp [hresult] at h
    · contradiction
  | cancelledWatch | removed | idled | closed | released =>
    exact ⟨hreport.trans hnone, .inr rfl, by simp [AttemptPhase.rank]⟩
  | _ => simp [AttemptPhase.isEarly, AttemptPhase.isLeaving] at hphase

/-- A watcher is done when its attempt goes on behind it, and one without an outcome leaves it
silent. -/
structure Heeds (a : Attempt) : Prop where
  done : a.phase.isEarly = false → a.watcher.result?.isSome = true
  silent : a.watcher.result? = some none → a.Silent

/-- Attempts begin without an outcome. -/
theorem heeds_create (slot : Nat) (peer : PeerRef) (timeout subscription : Nat) :
    (create slot peer timeout subscription).Heeds :=
  ⟨nofun, nofun⟩

/-- What leaves the course of an attempt alone lets it heed its watcher. -/
theorem Heeds.sameCourse (ha : a.Heeds) (hs : a.Sound cfg) (h : a.SameCourse a') : a'.Heeds := by
  refine ⟨fun hlate => ?_, fun hresult => ?_⟩
  · rw [h.phase] at hlate
    obtain ⟨o, ho⟩ := Option.isSome_iff_exists.mp (ha.done hlate)
    simp [h.result ho]
  · cases hearly : a.phase.isEarly with
    | true =>
      have hundecided : a.stage = .undecided := by
        unfold stage
        generalize a.phase = p at hearly
        cases p <;> first | rfl | contradiction
      exact ⟨h.report.trans (hs.undecided hundecided), .inl ⟨by rw [h.phase, hearly], hresult⟩⟩
    | false =>
      obtain ⟨o, ho⟩ := Option.isSome_iff_exists.mp (ha.done hearly)
      rw [h.result ho] at hresult
      exact (ha.silent (ho.trans hresult)).sameCourse h

/-- Going along the graph, an attempt heeds its watcher. -/
theorem Heeds.goes (ha : a.Heeds) (hgoes : Goes cfg a a.phase a'.phase)
    (hreport : a'.report = a.phase.reported a.report) (hwatcher : a'.watcher = a.watcher) :
    a'.Heeds := by
  refine ⟨fun hlate => ?_, fun hresult => ?_⟩
  · rw [hwatcher]
    have hdone := ha.done
    generalize a.phase = p at hgoes hdone
    generalize a'.phase = q at hgoes hlate
    cases hgoes with
    | spawn | dial | watch => contradiction
    | cancelledWatch h | failed h | connected h | exchange h => simp [h]
    | _ => exact hdone rfl
  · rw [hwatcher] at hresult
    exact ((ha.silent hresult).goes hgoes hreport hwatcher).1

/-- An attempt that turns silent has a watcher without an outcome, or was cancelled in its
exchange. -/
theorem OnWay.silent_goes (ha : a.OnWay cfg) (hgoes : Goes cfg a a.phase a'.phase)
    (hreport : a'.report = a.phase.reported a.report) (hnone : a'.report = none)
    (hleaving : a'.phase.isLeaving = true) :
    a.phase.isLeaving = true ∨ a.watcher.result? = some none ∨
      (∃ peer conn legs deadline taken, a.phase = .exchanging peer conn legs deadline taken) ∧
        a.cancelled = true := by
  obtain ⟨-, w, -, hleads, -⟩ := ha
  -- an attempt that follows up a connection has reported it
  have hconnected : a.isConnected = true → a.report ≠ none := fun h hno => by
    simp [isConnected, hno] at h
  have hkeeps : a.keepsPeer cfg = true → a.report ≠ none := fun h =>
    hconnected (Bool.and_eq_true_iff.mp h).1
  unfold Way.Leads at hleads
  generalize a.phase = p at hgoes hreport hleads ⊢
  generalize a'.phase = q at hgoes hleaving
  cases hgoes with
  | cancelledWatch h => exact .inr (.inl h)
  | cancelledExchange h => exact .inr (.inr ⟨⟨_, _, _, _, _, rfl⟩, h⟩)
  | leave => exact absurd (hreport.symm.trans hnone) (Option.some_ne_none _)
  | unheld => exact absurd (hreport.symm.trans hnone) (hkeeps hleads.1)
  | handedOver => exact absurd (hreport.symm.trans hnone) (hkeeps hleads)
  | unresumed => exact absurd (hreport.symm.trans hnone) (hconnected hleads.1.1)
  | hungUp => exact absurd (hreport.symm.trans hnone) (hconnected hleads)
  | removed | idled | closed | released => exact .inl rfl
  | _ => contradiction

/-- An attempt that is cancelled in its exchange turns silent. -/
theorem Sound.silent_goes (hs : a.Sound cfg) {peer : PeerRef} {conn : ConnId} {legs : Eth.Legs}
    {deadline : Nat} {taken : List UInt8}
    (hphase : a.phase = .exchanging peer conn legs deadline taken) (hcancelled : a.cancelled = true)
    (hgoes : Goes cfg a a.phase a'.phase) (hreport : a'.report = a.phase.reported a.report) :
    a'.Silent := by
  have hnone : a.report = none := hs.undecided (by rw [stage, hphase]; rfl)
  rw [hphase] at hgoes hreport
  refine ⟨hreport.trans hnone, .inr ?_⟩
  generalize a'.phase = q at hgoes
  cases hgoes with
  | cancelledExchange => rfl
  | turn h | exchanged h => simp [hcancelled] at h

section Steps

variable {σ : Type} [Transport σ] {now : Nat} {t : σ} {s : Stepped σ}

/-- The steps of an attempt stay on its way. -/
theorem OnWay.step? (ha : a.OnWay cfg) (h : a.step? cfg now t = some s) : s.1.OnWay cfg :=
  have hdoes := does_of_step? h
  ha.goes (goes_of_step? h) hdoes.history hdoes.report
    (ha.1.course (advance_of_step? h).course)

/-- They show the state that they note last. -/
theorem ShowsLast.step? (ha : a.ShowsLast) (h : a.step? cfg now t = some s) : s.1.ShowsLast := by
  have hdoes := does_of_step? h
  rw [ShowsLast, hdoes.history, List.filterMap_append, List.getLast?_append, ha, hdoes.state]
  cases ((a.phase.actsTo cfg s.1.phase).filterMap AttemptAct.state?).getLast? <;> rfl

/-- Steps of the watcher show nothing. -/
theorem ShowsLast.watcherStep? {r : Attempt × σ × List Log.Entry} (ha : a.ShowsLast)
    (h : a.watcherStep? now t = some r) : r.1.ShowsLast := by
  obtain ⟨w, -, rfl⟩ := exists_of_watcherStep? h
  exact ha

/-- A silent attempt goes on until it has ended. -/
theorem Silent.isSome_step? (ha : a.Silent) (hfinished : a.isFinished = false) (now : Nat) (t : σ) :
    (a.step? cfg now t).isSome = true := by
  have hphase := ha.phase
  refine Attempt.isSome_step? hfinished (fun peer htaking => ?_) (fun hwatching => ?_) fun hturns => ?_
  · rw [htaking] at hphase
    simp [AttemptPhase.isEarly, AttemptPhase.isLeaving] at hphase
  · rw [hwatching] at hphase
    obtain ⟨-, hresult⟩ | hleaving := hphase
    · simp [hresult]
    · contradiction
  · generalize a.phase = p at hphase hturns
    cases p <;> simp [AttemptPhase.isEarly, AttemptPhase.isLeaving, AttemptPhase.takesTurns] at *

end Steps

end Attempt

end PeerProbe
