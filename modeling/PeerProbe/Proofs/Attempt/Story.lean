import PeerProbe.Proofs.Attempt.Replies
import PeerProbe.Proofs.Eth.Exchange
import PeerProbe.Proofs.Transport.Publishing
import PeerProbe.Proofs.Watch.Seen

/-!
# What the report of an attempt means

The story of an attempt is what became of the feed since the attempt subscribed, and what the
transport replied to it. The report follows from the story: a connection is reported exactly if the
first event about the peer was an arrival that the attempt saw, and its exchange, if it was to make
one, succeeded; the remote status is the one that came, and the mismatches are those between the two
statuses.
-/

namespace PeerProbe

open Transport
open PeerEvent (first?)

/-- What happened to an attempt: the feed before it subscribed, the uses of the feed since, in their
order, and the replies of the transport. -/
structure Story where
  feed : Feed
  uses : List Feed.Use
  replies : Replies

namespace Story

/-- An attempt has just subscribed. -/
def begun (f : Feed) : Story := ⟨f, [], .empty⟩

/-- The feed is used some more. -/
def goOn (s : Story) (us : List Feed.Use) : Story := { s with uses := s.uses ++ us }

/-- The subscription of the attempt. -/
def subscription (s : Story) : Nat := s.feed.next

/-- The events that were published since the attempt subscribed. -/
def published (s : Story) : List PeerEvent := Feed.sent s.uses

/-- The events that were taken from its subscription. -/
def seen (s : Story) : List PeerEvent := s.feed.subscribe.received s.subscription s.uses

/-- The feed by now. -/
def feedNow (s : Story) : Feed := s.feed.subscribe.used s.uses

variable {s : Story} {us : List Feed.Use} {f : Feed}

/-- The feed goes on from where it is. -/
theorem feedNow_goOn (s : Story) (us : List Feed.Use) : (s.goOn us).feedNow = s.feedNow.used us :=
  Feed.used_append ..

/-- What is taken from the subscription in more uses is seen behind what was seen. -/
theorem seen_goOn (s : Story) (us : List Feed.Use) :
    (s.goOn us).seen = s.seen ++ s.feedNow.received s.subscription us :=
  Feed.received_append ..

/-- Uses of others show the attempt nothing. -/
theorem seen_goOn_others (h : ∀ u ∈ us, u.owner? ≠ some s.subscription) :
    (s.goOn us).seen = s.seen := by
  rw [seen_goOn, Feed.received_of_others h, List.append_nil]

/-- What an attempt sees are the first events that are published. -/
theorem seen_prefix_published (s : Story) : s.seen <+: s.published :=
  Feed.received_prefix_sent s.feed s.uses

/-- The first event about a peer was seen exactly if it is the first one among those seen. -/
theorem first?_published_seen {peer : PeerRef} {e : PeerEvent} :
    first? peer s.published = some e ∧ e ∈ s.seen ↔ first? peer s.seen = some e := by
  obtain ⟨rest, hrest⟩ := s.seen_prefix_published
  unfold first?
  rw [← hrest, List.find?_append]
  constructor
  · rintro ⟨hfirst, hmem⟩
    cases hseen : s.seen.find? (·.peer.samePeer peer) with
    | some e' => simpa [hseen] using hfirst
    | none =>
      -- an event that was seen would have been found there
      rw [hseen, Option.none_or] at hfirst
      exact absurd (List.find?_some hfirst) (List.find?_eq_none.mp hseen e hmem)
  · intro hseen
    exact ⟨by rw [hseen, Option.some_or], List.mem_of_find?_eq_some hseen⟩

/-! ## Stories of attempts -/

/-- A story tells of an attempt on a feed: the attempt is sound, listens to the subscription that it
made and watches for its peer, and what its watcher has decided and how far it has come agree with
the story. -/
structure Tells (cfg : AttemptConfig) (s : Story) (a : Attempt) (f : Feed) : Prop where
  feed : f = s.feedNow
  subscription : a.watcher.subscription = s.subscription
  target : a.watcher.target = a.peer
  sound : a.Sound cfg
  saw : a.watcher.Saw s.seen
  fits : s.replies.Fits cfg a

variable {cfg : AttemptConfig} {a a' : Attempt}

/-- The story of a new attempt begins. -/
theorem tells_create (cfg : AttemptConfig) (slot : Nat) (peer : PeerRef) (timeout : Nat) (f : Feed) :
    (begun f).Tells cfg (.create slot peer timeout f.next) f.subscribe where
  feed := rfl
  subscription := rfl
  target := rfl
  sound := Attempt.sound_create cfg slot peer timeout f.next
  saw := Watcher.saw_create peer f.next timeout
  fits := Replies.fits_create cfg slot peer timeout f.next

/-- It goes on with whatever others do to the feed. -/
theorem Tells.others (h : s.Tells cfg a f) (hus : ∀ u ∈ us, u.owner? ≠ some s.subscription)
    (ha' : a' = a ∨ a' = a.cancel) : (s.goOn us).Tells cfg a' (f.used us) := by
  have hsame := Attempt.sameCourse_of_kept_or_cancelled ha'
  have hwatcher : a'.watcher = a.watcher := by
    rcases ha' with rfl | rfl <;> rfl
  exact {
    feed := by rw [h.feed, feedNow_goOn]
    subscription := by rw [hwatcher, h.subscription]; rfl
    target := by rw [hwatcher, h.target, hsame.peer]
    sound := h.sound.course hsame.course
    saw := by rw [hwatcher, seen_goOn_others hus]; exact h.saw
    fits := h.fits.sameCourse hsame }

variable {σ : Type} [Transport σ] {now : Nat} {t : σ}

/-- It goes on with the steps of the attempt and the replies to them. -/
theorem Tells.step? {r : Attempt.Stepped σ} (h : s.Tells cfg a (Transport.feed t))
    (hr : a.step? cfg now t = some r) (hfeed : Transport.feed r.2.1 = (Transport.feed t).used us)
    (hus : ∀ u ∈ us, u.owner? ≠ some s.subscription) :
    Tells cfg { s.goOn us with replies := s.replies.after cfg a now t } r.1
      (Transport.feed r.2.1) := by
  have hadvance := Attempt.advance_of_step? hr
  exact {
    feed := by rw [hfeed, h.feed]; exact (feedNow_goOn s us).symm
    subscription := by rw [hadvance.watcher, h.subscription]; rfl
    target := by rw [hadvance.watcher, h.target, hadvance.peer]
    sound := h.sound.course hadvance.course
    saw := by rw [hadvance.watcher]; exact (seen_goOn_others hus).symm ▸ h.saw
    fits := h.fits.step? h.sound hr }

/-- It goes on with the steps of the watcher. -/
theorem Tells.watcherStep? (hwith : ∀ (f : Feed) (t : σ), Transport.feed (withFeed f t) = f)
    {r : Attempt × σ × List Log.Entry} (h : s.Tells cfg a (Transport.feed t))
    (hr : a.watcherStep? now t = some r) :
    (s.goOn (a.watcher.uses a.cancelled (Transport.feed t))).Tells cfg r.1
      (Transport.feed r.2.1) := by
  have hsame := Attempt.sameCourse_of_watcherStep? hr
  obtain ⟨w, hw, rfl⟩ := Attempt.exists_of_watcherStep? hr
  obtain ⟨htarget, hsubscription⟩ := Watcher.step?_target hw
  exact {
    feed := by
      rw [hwith, feedNow_goOn, ← h.feed]
      exact Watcher.feed_of_step? hw
    subscription := hsubscription.trans h.subscription
    target := htarget.trans h.target
    sound := h.sound.course hsame.course
    saw := by
      rw [seen_goOn, ← h.feed, ← h.subscription]
      exact h.saw.step? hw
    fits := h.fits.sameCourse hsame }

/-! ## The report -/

/-- What the report of an attempt on a peer says is borne out by the story. -/
structure Justifies (cfg : AttemptConfig) (s : Story) (peer : PeerRef) (report : AttemptReport) :
    Prop where
  /-- A connection is reported exactly if the first event about the peer since the attempt subscribed
  is an arrival, the attempt saw it, and the exchange, if one is to be made, succeeded. -/
  connected_iff : ∀ p, report.outcome = .connected p ↔
    (first? peer s.published = some ⟨.added, p⟩ ∧ ⟨.added, p⟩ ∈ s.seen) ∧
      ∀ ex, cfg.exchange = some ex → ∃ result, s.replies.Exchanged ex cfg.status result
  /-- There is a remote status exactly if a connection is reported after an exchange. -/
  remoteStatus_isSome_iff : report.remoteStatus.isSome = true ↔
    report.outcome.isConnected = true ∧ cfg.exchange.isSome = true
  /-- The remote status is the one in the first frame that came on the connection. -/
  remoteStatus : ∀ theirs, report.remoteStatus = some theirs →
    ∃ f, s.replies.item = some (.ok f) ∧ f.code = Eth.Code.status ∧
      Eth.decodeExact Rlp.Item.read f.code f.payload = .ok theirs
  /-- The mismatches are those of the two statuses if they are to be noted. -/
  mismatches : report.mismatches =
    match cfg.exchange, report.remoteStatus with
    | some ex, some theirs => if ex.policy = .annotate then Eth.validate cfg.status theirs else []
    | _, _ => []
  /-- Under the strict policy the peer of a reported connection agrees with us. -/
  strict : ∀ ex, cfg.exchange = some ex → ex.policy = .strict → report.outcome.isConnected = true →
    ∃ theirs, report.remoteStatus = some theirs ∧
      theirs.protocolVersion = cfg.status.protocolVersion ∧
      theirs.networkId = cfg.status.networkId ∧ theirs.genesisBlock = cfg.status.genesisBlock

/-- A failure is justified if there was a reason to fail. -/
theorem justifies_failed {peer : PeerRef} (about : PeerRef) (reason : FailureReason)
    (hreason : ∀ p, first? peer s.published = some ⟨.added, p⟩ ∧ ⟨.added, p⟩ ∈ s.seen →
      ∃ ex, cfg.exchange = some ex ∧ ∀ result, ¬ s.replies.Exchanged ex cfg.status result) :
    s.Justifies cfg peer (.failed about reason) where
  connected_iff p := by
    refine iff_of_false nofun fun ⟨hfirst, hexchanged⟩ => ?_
    obtain ⟨ex, hex, hnot⟩ := hreason p hfirst
    obtain ⟨result, hresult⟩ := hexchanged ex hex
    exact hnot result hresult
  remoteStatus_isSome_iff := iff_of_false nofun fun h => Bool.false_ne_true h.1
  remoteStatus := nofun
  mismatches := by
    cases cfg.exchange <;> rfl
  strict := nofun

/-- The story of an attempt justifies its report. -/
theorem Tells.justifies {report : AttemptReport} (h : s.Tells cfg a f)
    (hreport : a.report = some report) : s.Justifies cfg a.peer report := by
  have hfirst {o : Outcome} (ho : a.watcher.result? = some (some o)) (p : PeerRef) :
      o = .connected p ↔ first? a.peer s.published = some ⟨.added, p⟩ ∧ ⟨.added, p⟩ ∈ s.seen := by
    rw [first?_published_seen, ← h.target, ← h.saw.result? ho p, Option.some_inj]
  cases h.fits.explains h.sound hreport with
  | failed ho => exact justifies_failed _ _ fun p hp => absurd ((hfirst ho p).mpr hp) nofun
  | unhanded e ho hex hhanded =>
    refine justifies_failed _ _ fun p hp => ⟨_, hex, fun result hresult => ?_⟩
    obtain ⟨conn, hconn⟩ := hresult.handed
    exact absurd (hhanded.symm.trans hconn) nofun
  | plain ho hex =>
    exact {
      connected_iff := fun p => ⟨fun hp => ⟨(hfirst ho p).mp hp, by simp [hex]⟩,
        fun hp => (hfirst ho p).mpr hp.1⟩
      remoteStatus_isSome_iff := by simp [AttemptReport.connected, hex]
      remoteStatus := nofun
      mismatches := by rw [hex]; rfl
      strict := by simp [hex] }
  | @exchanged p' ex conn result ho hex hhanded hresult =>
    cases result with
    | error e =>
      refine justifies_failed _ _ fun p hp => ⟨ex, hex, fun result hsuccess => ?_⟩
      rw [(Replies.exchange?_eq_some hhanded).mpr hsuccess] at hresult
      contradiction
    | ok result =>
      have hsuccess := (Replies.exchange?_eq_some hhanded).mp hresult.symm
      obtain ⟨item, theirs, hitem, hread, hjudge⟩ := hsuccess.received
      obtain ⟨hremote, hmismatches⟩ := Eth.judge_eq_ok hjudge
      exact {
        connected_iff := fun p => ⟨fun hp => ⟨(hfirst ho p).mp hp, fun ex' hex' => by
            obtain rfl := Option.some.inj (hex.symm.trans hex')
            exact ⟨result, hsuccess⟩⟩,
          fun hp => (hfirst ho p).mpr hp.1⟩
        remoteStatus_isSome_iff := by simp [AttemptReport.ofExchange, Outcome.isConnected, hex]
        remoteStatus := fun theirs' htheirs => by
          obtain rfl : result.remote = theirs' := Option.some.inj htheirs
          obtain ⟨f, rfl, hcode, hdecode⟩ := Eth.readStatus_eq_ok hread
          exact ⟨f, hitem, hcode, by rw [hremote]; exact hdecode⟩
        mismatches := by
          rw [hex]
          change result.mismatches =
            if ex.policy = .annotate then Eth.validate cfg.status result.remote else []
          rw [hremote, hmismatches]
        strict := fun ex' hex' hstrict _ => by
          obtain rfl := Option.some.inj (hex.symm.trans hex')
          rw [hstrict] at hjudge
          exact ⟨result.remote, rfl, hremote ▸ Eth.eq_of_judge_strict hjudge⟩ }

end Story

end PeerProbe
