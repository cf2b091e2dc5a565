import PeerProbe.Eth.Reading
import PeerProbe.Proofs.Eth.Verdict
import PeerProbe.Wire.Script

/-!
# Exchanges over scripted connections

The clock of a scripted connection jumps to the next time at which something is due. If the send and
the first entry of the script are due in time, either a leg can move now or the next jump leads to a
time at which one can. So two turns per leg bring an exchange to its end, and what it has taken off
the script then is the one entry that the verdict is about. A reader finds the others behind it.
-/

namespace PeerProbe

namespace Script

variable {s : Script} {now : Nat} {f : Frame}

theorem send?_of_due (hdue : s.sendDue ≤ now) (hnone : s.sendError = none) :
    s.send? now f = some (.ok (), { s with sent := s.sent ++ [f] }) := by
  rw [send?, hnone]
  exact if_pos hdue

theorem send?_of_not_due (hdue : ¬s.sendDue ≤ now) : s.send? now f = none := if_neg hdue

theorem read?_of_due {e : ScriptEntry} {rest : List ScriptEntry} (hentries : s.entries = e :: rest)
    (hdue : s.started + e.due ≤ now) : s.read? now = some (e.item, { s with entries := rest }) := by
  rw [read?, hentries]
  exact if_pos hdue

end Script

namespace Eth

namespace ScriptedExchange

/-- How many legs have not moved yet. -/
def pending (x : ScriptedExchange) : Nat :=
  (if x.legs.sent then 0 else 1) + (if x.legs.received.isSome then 0 else 1)

/-- Both legs get their turn before the deadline, and sending does not fail. -/
structure InTime (x : ScriptedExchange) (deadline : Nat) : Prop where
  now : x.now ≤ deadline
  sends : x.legs.sent = false → x.script.sendError = none ∧ x.script.sendDue ≤ deadline
  reads : x.legs.received = none → ∃ e rest, x.script.entries = e :: rest ∧
    x.script.started + e.due ≤ deadline

/-- A leg can move. -/
def Movable (x : ScriptedExchange) : Prop :=
  x.legs.sent = false ∧ x.script.sendDue ≤ x.now ∨
    x.legs.received = none ∧ ∃ e rest, x.script.entries = e :: rest ∧
      x.script.started + e.due ≤ x.now

/-- What a leg that can move does: the status is sent, or the next entry of the script is taken. -/
inductive Moves (mine : Status) (max : UInt32) (x : ScriptedExchange) :
    Except ExchangeError Legs × Script → Prop where
  | sends (hunsent : x.legs.sent = false) : Moves mine max x
      (.ok { x.legs with sent := true }, { x.script with
        sent := x.script.sent ++ [Frame.ofPayload Code.status (rlpBytes mine)] })
  | reads {e : ScriptEntry} {rest : List ScriptEntry} (hwaits : x.legs.received = none)
      (hentries : x.script.entries = e :: rest) :
      Moves mine max x (x.legs.onItem max e.item, { x.script with entries := rest })

variable {x : ScriptedExchange} {deadline fuel : Nat} {mine : Status} {cfg : ExchangeConfig}

theorem moves_of_movable (mine : Status) (h : x.InTime deadline) (hmovable : x.Movable) (max : UInt32) :
    ∃ m, x.move? mine max = some m ∧ Moves mine max x m := by
  unfold move?
  by_cases hsend : x.legs.sent = false ∧ x.script.sendDue ≤ x.now
  · obtain ⟨hunsent, hdue⟩ := hsend
    obtain ⟨hnone, -⟩ := h.sends hunsent
    rw [if_neg (by simp [hunsent]), Script.send?_of_due hdue hnone]
    exact ⟨_, rfl, .sends hunsent⟩
  · obtain hsend' | ⟨hwaits, e, rest, hentries, hdue⟩ := hmovable
    · exact absurd hsend' hsend
    have hstays : (if x.legs.sent then none
        else x.script.send? x.now (Frame.ofPayload Code.status (rlpBytes mine))) = none := by
      split
      · rfl
      next hunsent =>
        exact Script.send?_of_not_due fun hdue => hsend ⟨by simpa using hunsent, hdue⟩
    rw [hstays]
    dsimp only
    rw [if_neg (by simp [hwaits]), Script.read?_of_due hentries hdue]
    exact ⟨_, rfl, .reads hwaits hentries⟩

theorem move?_of_not_movable (hstuck : ¬x.Movable) (max : UInt32) : x.move? mine max = none := by
  obtain ⟨hsend, hread⟩ := not_or.mp hstuck
  have hstays : (if x.legs.sent then none
      else x.script.send? x.now (Frame.ofPayload Code.status (rlpBytes mine))) = none := by
    split
    · rfl
    next hunsent =>
      exact Script.send?_of_not_due fun hdue => hsend ⟨by simpa using hunsent, hdue⟩
  unfold move?
  rw [hstays]
  dsimp only
  split
  · rfl
  next hwaits =>
    have hwaits : x.legs.received = none := by simpa using hwaits
    cases hentries : x.script.entries with
    | nil => rw [Script.read?, hentries, Option.map_none]
    | cons e rest =>
      have hdue : ¬x.script.started + e.due ≤ x.now := fun hdue =>
        hread ⟨hwaits, e, rest, hentries, hdue⟩
      rw [Script.read?, hentries]
      dsimp only
      rw [if_neg hdue, Option.map_none]

/-- An exchange that is not over waits for one of its legs. -/
theorem waits_of_pending (hpending : x.pending ≠ 0) :
    x.legs.sent = false ∨ x.legs.received = none := by
  by_contra hnone
  obtain ⟨hsent, hreceived⟩ := not_or.mp hnone
  have hsent : x.legs.sent = true := by simpa using hsent
  have hreceived : x.legs.received.isSome = true := Option.isSome_iff_ne_none.mpr hreceived
  exact hpending (by rw [pending, if_pos hsent, if_pos hreceived])

theorem unfinished_of_pending (hpending : x.pending ≠ 0) : x.legs.finished? = none := by
  obtain hunsent | hwaits := waits_of_pending hpending
  · simp [Legs.finished?, hunsent]
  · simp [Legs.finished?, hwaits]

/-- At a time at which something is due a leg can move. -/
theorem movable_of_mem_dues {t : Nat} (h : x.InTime deadline) (hpending : x.pending ≠ 0)
    (hdue : t ∈ x.dues deadline) : Movable { x with now := t } := by
  obtain rfl | hleg := List.mem_cons.mp hdue
  · obtain hunsent | hwaits := waits_of_pending hpending
    · exact .inl ⟨hunsent, (h.sends hunsent).2⟩
    · exact .inr ⟨hwaits, h.reads hwaits⟩
  · obtain hsend | hread := List.mem_append.mp hleg
    · split at hsend
      · cases hsend
      next hunsent =>
        obtain rfl := List.mem_singleton.mp hsend
        exact .inl ⟨by simpa using hunsent, le_rfl⟩
    · split at hread
      · cases hread
      next hwaits =>
        have hwaits : x.legs.received = none := by simpa using hwaits
        obtain ⟨e, rest, hentries, -⟩ := h.reads hwaits
        rw [Script.readDue, hentries, List.mem_singleton] at hread
        exact .inr ⟨hwaits, e, rest, hentries, le_of_eq hread.symm⟩

/-- When no leg can move, the clock jumps to a time before the deadline at which one can. -/
theorem exists_jump (h : x.InTime deadline) (hpending : x.pending ≠ 0) (hstuck : ¬x.Movable) :
    ∃ t, ((x.dues deadline).filter (x.now < ·)).min? = some t ∧ ¬deadline ≤ x.now ∧
      InTime { x with now := t } deadline ∧ Movable { x with now := t } := by
  have hbefore : ¬deadline ≤ x.now := by
    intro hle
    obtain rfl : deadline = x.now := Nat.le_antisymm hle h.now
    exact hstuck (movable_of_mem_dues h hpending List.mem_cons_self)
  have hmem : deadline ∈ (x.dues deadline).filter (x.now < ·) :=
    List.mem_filter.mpr ⟨List.mem_cons_self, by simpa using hbefore⟩
  obtain ⟨t, ht⟩ := Option.isSome_iff_exists.mp
    (List.isSome_min?_of_mem hmem)
  obtain ⟨hdue, hleast⟩ := List.min?_eq_some_iff.mp ht
  exact ⟨t, ht, hbefore, ⟨hleast deadline hmem, h.sends, h.reads⟩,
    movable_of_mem_dues h hpending (List.mem_filter.mp hdue).1⟩

/-- An exchange and what running it comes to: some entries of the script were taken off it, and the
legs ended on them. -/
def EndsAs (max : UInt32) (x : ScriptedExchange)
    (r : Except ExchangeError Status × ScriptedExchange) : Prop :=
  ∃ taken, x.script.entries = taken ++ r.2.script.entries ∧
    r.2.script.started = x.script.started ∧ x.legs.Ends max (taken.map ScriptEntry.item) r.1

/-- After one more leg has moved, as many turns as the other leg needs are enough. -/
theorem ends_of_movable {n : Nat} (h : x.InTime deadline) (hmovable : x.Movable)
    (hpending : x.pending = n + 1)
    (hrest : ∀ y : ScriptedExchange, y.InTime deadline → y.pending = n →
      y.EndsAs cfg.maxMessage (run mine cfg deadline fuel y)) :
    x.EndsAs cfg.maxMessage (run mine cfg deadline (fuel + 1) x) := by
  obtain ⟨m, hmove, hmoves⟩ := moves_of_movable mine h hmovable cfg.maxMessage
  rw [run, unfinished_of_pending (by omega)]
  dsimp only
  rw [hmove]
  cases hmoves with
  | sends hunsent =>
    obtain ⟨taken, hentries, hstarted, hends⟩ := hrest
      { x with
        legs := { x.legs with sent := true }
        script := { x.script with
          sent := x.script.sent ++ [Frame.ofPayload Code.status (rlpBytes mine)] } }
      ⟨h.now, nofun, h.reads⟩ (by simp [pending, hunsent] at hpending ⊢; omega)
    exact ⟨taken, hentries, hstarted, .sends hunsent hends⟩
  | @reads e rest hwaits hentries =>
    cases hitem : x.legs.onItem cfg.maxMessage e.item with
    | error error => exact ⟨[e], hentries, rfl, .refuses e.item hwaits hitem⟩
    | ok legs =>
      obtain ⟨status, rfl⟩ : ∃ s, legs = { x.legs with received := some s } := by
        unfold Legs.onItem at hitem
        cases hread : readStatus cfg.maxMessage e.item with
        | error error => rw [hread] at hitem; cases hitem
        | ok s => rw [hread] at hitem; exact ⟨s, (Except.ok.inj hitem).symm⟩
      obtain ⟨taken, hrest, hstarted, hends⟩ := hrest
        { x with
          legs := { x.legs with received := some status }
          script := { x.script with entries := rest } }
        ⟨h.now, h.sends, nofun⟩ (by simp [pending, hwaits] at hpending ⊢; omega)
      refine ⟨e :: taken, ?_, hstarted, .takes e.item hwaits hitem hends⟩
      rw [hentries, List.cons_append]
      exact congrArg (e :: ·) hrest

/-- Two turns for each leg are enough. -/
theorem run_ends {n : Nat} (h : x.InTime deadline) (hpending : x.pending = n)
    (hfuel : 2 * n < fuel) : x.EndsAs cfg.maxMessage (run mine cfg deadline fuel x) := by
  induction n generalizing x fuel with
  | zero =>
    obtain ⟨fuel, rfl⟩ := Nat.exists_eq_add_of_lt hfuel
    have hsent : x.legs.sent = true := by
      by_contra hunsent
      simp [pending, hunsent] at hpending
    obtain ⟨s, hs⟩ : ∃ s, x.legs.received = some s := by
      rw [← Option.isSome_iff_exists]
      by_contra hwaits
      simp [pending, hwaits] at hpending
    have hdone : x.legs.finished? = some s := by simp [Legs.finished?, hsent, hs]
    rw [run, hdone]
    exact ⟨[], rfl, rfl, .finished hdone⟩
  | succ n ih =>
    obtain ⟨k, rfl⟩ : ∃ k, fuel = k + 2 := ⟨fuel - 2, by omega⟩
    by_cases hmovable : x.Movable
    · exact ends_of_movable h hmovable hpending fun y hy hn => ih hy hn (by omega)
    · obtain ⟨t, hjump, hbefore, htime, hmoves⟩ :=
        exists_jump h (by omega) hmovable
      have hwait : run mine cfg deadline (k + 2) x =
          run mine cfg deadline (k + 1) { x with now := t } := by
        rw [run, unfinished_of_pending (by omega)]
        dsimp only
        rw [move?_of_not_movable hmovable]
        dsimp only
        rw [if_neg hbefore, hjump]
      rw [hwait]
      exact ends_of_movable htime hmoves hpending fun y hy hn => ih hy hn (by omega)

end ScriptedExchange

/-- The calls of a reader, one at each of some times; each waits for the next entry of the script. -/
def Reading.overScript : Reading → Script → List Nat → List (Except ReadError Payload)
  | _, _, [] => []
  | r, script, now :: times =>
    match script.read? now with
    | none => []
    | some (item, script) => (r.next item).1 :: (r.next item).2.overScript script times

/-- A reader that calls when something has come reads the entries of the script in order. -/
theorem Reading.overScript_eq (r : Reading) (script : Script) (times : List Nat)
    (htimes : List.Forall₂ (fun now (e : ScriptEntry) => script.started + e.due ≤ now) times
      script.entries) :
    r.overScript script times = r.run (script.entries.map ScriptEntry.item) := by
  induction times generalizing r script with
  | nil =>
    rw [List.forall₂_nil_left_iff.mp htimes]
    rfl
  | cons now times ih =>
    obtain ⟨e, rest, hdue, hrest, hentries⟩ := List.forall₂_cons_left_iff.mp htimes
    rw [Reading.overScript, Script.read?_of_due hentries hdue, hentries, List.map_cons, Reading.run]
    exact congrArg _ (ih (r.next e.item).2 { script with entries := rest } hrest)

/-- An exchange over a script whose first entry and whose send are due in time takes this entry and
no other, and comes to the verdict on it. -/
theorem exchangeOverScript_verdict {script : Script} {cfg : ExchangeConfig} (mine : Status)
    {first : ScriptEntry} {rest : List ScriptEntry} (hentries : script.entries = first :: rest)
    (hsends : script.sendError = none) (hsendAt : script.sendAt ≤ cfg.timeout.millis)
    (hfirst : first.due ≤ cfg.timeout.millis) :
    ∃ result log left now, exchangeOverScript script cfg mine = ((result, log), left, now) ∧
      Verdict cfg mine first.item result ∧ left.entries = rest ∧ left.started = script.started := by
  have htime : ScriptedExchange.InTime ⟨script, .start, script.started⟩
      (script.started + cfg.timeout.millis) :=
    ⟨Nat.le_add_right _ _, fun _ => ⟨hsends, Nat.add_le_add_left hsendAt _⟩,
      fun _ => ⟨first, rest, hentries, Nat.add_le_add_left hfirst _⟩⟩
  have hrun : ScriptedExchange.EndsAs cfg.maxMessage ⟨script, .start, script.started⟩
      (ScriptedExchange.run mine cfg (script.started + cfg.timeout.millis) 8
        ⟨script, .start, script.started⟩) :=
    ScriptedExchange.run_ends (n := 2) htime rfl (by decide)
  obtain ⟨taken, htaken, hstarted, hends⟩ := hrun
  obtain ⟨item, hitems, hverdict⟩ := hends.verdict script.peer.shortId mine
  obtain ⟨e, rfl, rfl⟩ := List.map_eq_singleton_iff.mp hitems
  obtain ⟨rfl, hleft⟩ := List.cons.inj (hentries.symm.trans htaken)
  exact ⟨_, _, _, _, rfl, hverdict, hleft.symm, hstarted⟩

end Eth

end PeerProbe
