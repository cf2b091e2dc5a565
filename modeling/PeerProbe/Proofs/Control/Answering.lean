import Mathlib.Data.List.Forall2
import PeerProbe.Proofs.Control.Messages
import PeerProbe.Proofs.Control.Serving

/-!
# One answer for each request

A client may write any bytes, and they may arrive in any pieces. The lines of the stream are then
answered one by one: a blank line with nothing, every other line with one line that holds one JSON
object, with the number of the request and either a result or an error. A line that is not UTF-8 ends
the connection, and the lines in front of it are all that is answered.

Every call is taken to come back. One that never does ends the connection in the same way.
-/

namespace PeerProbe.Control

open Json (Tree Value)

/-! ## The lines of a stream -/

/-- A stream is cut at its line feeds: the lines in front of them, each without one carriage return at
its end, and what stands behind the last one. -/
inductive Cut : List UInt8 → List (List UInt8) → List UInt8 → Prop where
  | tail {tail : List UInt8} : lineFeed ∉ tail → Cut tail [] tail
  | line {line rest tail : List UInt8} {lines : List (List UInt8)} :
      lineFeed ∉ line → Cut rest lines tail →
      Cut (line ++ lineFeed :: rest) (dropReturn line :: lines) tail

/-- What stands behind the last line feed when the stream ends is a line, if there is anything. -/
def lastLine (tail : List UInt8) : List (List UInt8) := if tail.isEmpty then [] else [tail]

/-- The pieces between the line feeds are a cut. -/
theorem cut_pieces (bytes : List UInt8) :
    Cut bytes ((Text.pieces lineFeed bytes).dropLast.map dropReturn)
      ((Text.pieces lineFeed bytes).getLastD []) := by
  induction hlength : bytes.length using Nat.strongRecOn generalizing bytes with
  | ind n ih =>
    by_cases hmem : lineFeed ∈ bytes
    · obtain ⟨line, rest, rfl, hline⟩ := List.eq_append_cons_of_mem hmem
      have hshorter : rest.length < n := by
        rw [← hlength, List.length_append, List.length_cons]
        omega
      have hrest := ih rest.length hshorter rest rfl
      rw [Text.pieces_append_cons hline]
      obtain ⟨p, ps, hpieces⟩ := List.exists_cons_of_ne_nil (Text.pieces_ne_nil lineFeed rest)
      rw [hpieces] at hrest ⊢
      exact .line hline hrest
    · rw [Text.pieces_of_not_mem hmem]
      exact .tail hmem

/-- There is one way to cut a stream, and a reader of lines cuts it that way. -/
theorem cut_iff {bytes tail : List UInt8} {lines : List (List UInt8)} :
    Cut bytes lines tail ↔ LineReader.empty.feed bytes = ⟨lines, tail, false⟩ := by
  have hfeed (bytes : List UInt8) : LineReader.empty.feed bytes =
      ⟨(Text.pieces lineFeed bytes).dropLast.map dropReturn,
        (Text.pieces lineFeed bytes).getLastD [], false⟩ := rfl
  constructor
  · intro hcut
    induction hcut with
    | tail h =>
      rw [hfeed, Text.pieces_of_not_mem h]
      rfl
    | @line line rest tail lines hline _ ih =>
      rw [hfeed, LineReader.mk.injEq] at ih
      obtain ⟨p, ps, hpieces⟩ := List.exists_cons_of_ne_nil (Text.pieces_ne_nil lineFeed rest)
      rw [hfeed, Text.pieces_append_cons hline, ← ih.1, ← ih.2.1, hpieces]
      rfl
  · intro h
    rw [hfeed, LineReader.mk.injEq] at h
    rw [← h.1, ← h.2.1]
    exact cut_pieces bytes

/-! ## What a line asks for -/

/-- The texts of the lines in front of the first one that is not UTF-8. -/
def readable : List (List UInt8) → List (List Char)
  | [] => []
  | line :: lines =>
    match Utf8.decode line with
    | some cs => cs :: readable lines
    | none => []

/-- Whether a text has anything but blanks in it. -/
def isAsking (cs : List Char) : Bool := !(Text.trim cs).isEmpty

/-- The texts that are to be answered. -/
def asked (lines : List (List UInt8)) : List (List Char) := (readable lines).filter isAsking

/-- The number of the request in a text, 0 if there is none. -/
def requestId (cs : List Char) : UInt64 := ((Request.ofChars? cs).map Request.id).getD 0

/-- The call that a text asks for, if it asks for one. -/
def order? (cs : List Char) : Option Order :=
  match dispatch cs with
  | .call _ order => some order
  | .answered _ => none

/-- The text of the request of a call has the number of the request, and asks for the order of the
call. -/
theorem request_asks (id : UInt64) (task : Command.RemoteTask) :
    requestId (task.request id).json.chars = id ∧
      order? (task.request id).json.chars = some task.order := by
  constructor
  · rw [requestId, Request.ofChars?_json (Command.RemoteTask.plain_params task)]
    rfl
  · rw [order?, Command.RemoteTask.dispatch_request]

/-- A line answers a text: it is one JSON object on one line, with the number of the request and one
more member, a result or an error. -/
def Answers (cs : List Char) (line : List UInt8) : Prop :=
  lineFeed ∉ line ∧ carriageReturn ∉ line ∧ ∃ answer id key body, Utf8.decode line = some answer ∧
    Tree.ofChars? answer = some (.object [(some "id", id), (some key, body)]) ∧
    id.word? = some (requestId cs) ∧ (key = "result" ∨ key = "error")

/-- A text is answered at once, as no request or a refused one, or it asks for one call; either way
under its own number. -/
theorem dispatch_cases (cs : List Char) :
    (∃ order, dispatch cs = .call (requestId cs) order) ∨
      ∃ code message, dispatch cs = .answered (.err (requestId cs) code message) := by
  unfold dispatch requestId
  cases Request.ofChars? cs with
  | none => exact .inr ⟨_, _, rfl⟩
  | some r =>
    show (∃ order, dispatchRequest r = .call r.id order) ∨
      ∃ code message, dispatchRequest r = .answered (.err r.id code message)
    unfold dispatchRequest
    split
    · exact .inl ⟨_, rfl⟩
    split
    · exact .inl ⟨_, rfl⟩
    split
    · split
      · exact .inl ⟨_, rfl⟩
      · exact .inr ⟨_, _, rfl⟩
    split
    · split
      · exact .inl ⟨_, rfl⟩
      · exact .inr ⟨_, _, rfl⟩
    · exact .inr ⟨_, _, rfl⟩

/-- A response with either a result or an error answers a text under its number. -/
theorem answers_line {cs : List Char} {r : Response} (hlegible : r.Legible)
    (hid : r.id = requestId cs) (hone : r.error.isSome = !r.result.isSome) :
    Answers cs (Utf8.encode r.json.chars) := by
  have hexact := Response.exact_json hlegible
  have hreturn : carriageReturn ∉ Utf8.encode r.json.chars := fun hmem =>
    hexact.control_not_mem_chars (by decide) (Utf8.mem_of_mem_encode (by decide) hmem)
  have htree : ∃ key body, r.json.tree =
      .object [(some "id", (Value.nat r.id.toNat).tree), (some key, body)] ∧
        (key = "result" ∨ key = "error") := by
    obtain ⟨id, result, error⟩ := r
    cases result with
    | none =>
      obtain ⟨e, rfl⟩ := Option.isSome_iff_exists.mp hone
      exact ⟨_, _, rfl, .inr rfl⟩
    | some v =>
      obtain rfl := Option.not_isSome_iff_eq_none.mp (Bool.not_eq_true _ ▸ hone)
      exact ⟨_, _, rfl, .inl rfl⟩
  obtain ⟨key, body, htree, hkey⟩ := htree
  refine ⟨lineFeed_not_mem_encode hexact, hreturn, r.json.chars, (Value.nat r.id.toNat).tree, key,
    body, Utf8.decode_encode _, ?_, ?_, hkey⟩
  · rw [Json.ofChars?_chars hexact, htree]
  · rw [Json.word?_nat, hid]

/-! ## Lines in a row -/

/-- Lines behind lines that are all UTF-8 are to be answered behind them. -/
theorem asked_append {xs : List (List UInt8)} (h : ∀ line ∈ xs, Utf8.decode line ≠ none)
    (ys : List (List UInt8)) : asked (xs ++ ys) = asked xs ++ asked ys := by
  have hreadable : readable (xs ++ ys) = readable xs ++ readable ys := by
    induction xs with
    | nil => rfl
    | cons line xs ih =>
      rw [List.forall_mem_cons] at h
      obtain ⟨cs, hdecode⟩ := Option.ne_none_iff_exists'.mp h.1
      simp only [List.cons_append, readable, hdecode, ih h.2]
  rw [asked, hreadable, List.filter_append, asked, asked]

/-- Nothing behind a line that is not UTF-8 is to be answered. -/
theorem asked_append_of_broken {xs : List (List UInt8)} (h : ∃ line ∈ xs, Utf8.decode line = none)
    (ys : List (List UInt8)) : asked (xs ++ ys) = asked xs := by
  have hreadable : readable (xs ++ ys) = readable xs := by
    induction xs with
    | nil => simp at h
    | cons line xs ih =>
      cases hdecode : Utf8.decode line with
      | none => simp only [List.cons_append, readable, hdecode]
      | some cs =>
        obtain ⟨broken, hmem, hbroken⟩ := h
        obtain rfl | hmem := List.mem_cons.mp hmem
        · rw [hdecode] at hbroken
          contradiction
        · simp only [List.cons_append, readable, hdecode, ih ⟨broken, hmem, hbroken⟩]
  rw [asked, hreadable, asked]

/-- Between two points of what is written, some lines are answered in order, each by one line. -/
def Answered (lines : List (List UInt8)) (before behind : List UInt8) : Prop :=
  ∃ answers, List.Forall₂ Answers (asked lines) answers ∧
    behind = before ++ answers.flatMap (· ++ [lineFeed])

/-- Where nothing is asked nothing is written. -/
theorem answered_nil {lines : List (List UInt8)} (h : asked lines = []) (written : List UInt8) :
    Answered lines written written := by
  refine ⟨[], ?_, (List.append_nil _).symm⟩
  rw [h]
  exact .nil

/-- Lines may be answered some before and the others behind. -/
theorem Answered.append {xs ys : List (List UInt8)} {before between behind : List UInt8}
    (hreadable : ∀ line ∈ xs, Utf8.decode line ≠ none) (hxs : Answered xs before between)
    (hys : Answered ys between behind) : Answered (xs ++ ys) before behind := by
  obtain ⟨first, hfirst, rfl⟩ := hxs
  obtain ⟨second, hsecond, rfl⟩ := hys
  refine ⟨first ++ second, ?_, ?_⟩
  · rw [asked_append hreadable]
    exact List.rel_append hfirst hsecond
  · rw [List.flatMap_append, List.append_assoc]

variable {σ : Type}

/-- Some operations all come back when they are carried out one after the other. -/
inductive Service.Returns (service : Service σ) : σ → List Order → Prop where
  | nil {s : σ} : Service.Returns service s []
  | cons {s : σ} {order : Order} {orders : List Order} (first : (service s order).1.isSome)
      (rest : Service.Returns service (service s order).2 orders) :
      Service.Returns service s (order :: orders)

/-- The service behind some operations that are carried out one after the other. -/
def Service.after (service : Service σ) (s : σ) (orders : List Order) : σ :=
  orders.foldl (fun s order => (service s order).2) s

/-- If operations in a row all come back, then the first ones do, and so do the others behind them. -/
theorem Service.Returns.append {service : Service σ} {s : σ} {xs ys : List Order}
    (h : service.Returns s (xs ++ ys)) :
    service.Returns s xs ∧ service.Returns (service.after s xs) ys := by
  induction xs generalizing s with
  | nil => exact ⟨.nil, h⟩
  | cons order xs ih =>
    cases h with
    | cons first rest => exact ⟨.cons first (ih rest).1, (ih rest).2⟩

/-- Operations in a row change the service one after the other. -/
theorem Service.after_append (service : Service σ) (s : σ) (xs ys : List Order) :
    service.after s (xs ++ ys) = service.after (service.after s xs) ys :=
  List.foldl_append

/-- The operations that some lines ask for. -/
def orders (lines : List (List UInt8)) : List Order := (asked lines).filterMap order?

/-- Lines behind lines that are all UTF-8 ask for their operations behind them. -/
theorem orders_append {xs : List (List UInt8)} (h : ∀ line ∈ xs, Utf8.decode line ≠ none)
    (ys : List (List UInt8)) : orders (xs ++ ys) = orders xs ++ orders ys := by
  rw [orders, asked_append h, List.filterMap_append, orders, orders]

/-! ## Serving lines -/

namespace Connection

variable {service : Service σ} {s : σ} {c : Connection} {line : List UInt8}

/-- A text that is not blank is answered once, when the call that it may ask for has come back. -/
theorem advance_asking {cs : List Char} (hdecode : Utf8.decode line = some cs)
    (hasking : isAsking cs = true) (hreturns : service.Returns s (order? cs).toList)
    (c : Connection) :
    ∃ r : Response, Answers cs (Utf8.encode r.json.chars) ∧
      advance service s (c.handle line) =
        (service.after s (order? cs).toList, c.respond (methodName cs) r) := by
  have hblank : (Text.trim cs).isEmpty = false := Bool.not_eq_true' _ ▸ hasking
  obtain ⟨order, hdispatch⟩ | ⟨code, message, hdispatch⟩ := dispatch_cases cs
  · have horder : order? cs = some order := by rw [order?, hdispatch]
    rw [horder] at hreturns ⊢
    obtain ⟨reply, hreply⟩ : ∃ reply, (service s order).1 = some reply := by
      cases hreturns with
      | cons first => exact Option.isSome_iff_exists.mp first
    have hid : (reply.response (requestId cs)).id = requestId cs := by cases reply <;> rfl
    have hone : (reply.response (requestId cs)).error.isSome =
        !(reply.response (requestId cs)).result.isSome := by
      cases reply <;> rfl
    refine ⟨_, answers_line (reply.legible_response (requestId cs)) hid hone, ?_⟩
    simp only [handle, hdecode, hblank, Bool.false_eq_true, ↓reduceIte, hdispatch, advance, hreply]
    rfl
  · have horder : order? cs = none := by rw [order?, hdispatch]
    have hlegible : (Response.err (requestId cs) code message).Legible := by
      intro v hv
      cases hv
    refine ⟨_, answers_line hlegible rfl rfl, ?_⟩
    simp only [handle, hdecode, hblank, Bool.false_eq_true, ↓reduceIte, hdispatch, advance, horder]
    rfl

/-- A line that is UTF-8 is answered once, or not at all if it is blank. -/
theorem advance_readable {cs : List Char} (hdecode : Utf8.decode line = some cs)
    (hcalling : c.calling = none) (hreturns : service.Returns s (orders [line])) :
    ∃ written log, Answered [line] c.written written ∧
      advance service s (c.handle line) =
        (service.after s (orders [line]), { c with written, log }) := by
  cases hasking : isAsking cs with
  | false =>
    have hasked : asked [line] = [] := by simp [asked, readable, hdecode, hasking]
    have hblank : (Text.trim cs).isEmpty = true := Bool.not_eq_false' _ ▸ hasking
    refine ⟨c.written, c.log, answered_nil hasked _, ?_⟩
    rw [orders, hasked]
    simp only [handle, hdecode, hblank, ↓reduceIte, advance]
    rfl
  | true =>
    have hasked : asked [line] = [cs] := by simp [asked, readable, hdecode, hasking]
    have horders : orders [line] = (order? cs).toList := by
      rw [orders, hasked, List.filterMap_cons]
      cases order? cs <;> rfl
    rw [horders] at hreturns ⊢
    obtain ⟨r, hr, hadvance⟩ := advance_asking hdecode hasking hreturns c
    refine ⟨(c.respond (methodName cs) r).written, (c.respond (methodName cs) r).log,
      ⟨[Utf8.encode r.json.chars], ?_, ?_⟩, ?_⟩
    · rw [hasked]
      exact .cons hr .nil
    · rw [List.flatMap_singleton]
      rfl
    · rw [hadvance, hcalling]
      rfl

/-- Serving begins with the first line that waits. -/
theorem serve_cons {lines : List (List UInt8)} (hclosed : c.closed = false)
    (hcalling : c.calling = none) (hready : c.lines.ready = line :: lines) (service : Service σ)
    (s : σ) :
    ∃ advanced, advanced = advance service s
        (({ c with lines := { c.lines with ready := lines } } : Connection).handle line) ∧
      serve service s c = serve service advanced.1 advanced.2 := by
  have hlines := lines_advance_handle service s
    ({ c with lines := { c.lines with ready := lines } } : Connection) line
  refine ⟨_, rfl, ?_⟩
  rw [serve, serve, advanceMany, step?_eq_some hclosed hcalling hready, hlines, hready]
  rfl

/-- What has become of a connection and of the service behind it when some lines were served: the lines
are answered in order, up to the first one that is not UTF-8, and the operations that they ask for are
carried out. The connection is closed at a line that is not UTF-8 or at the end of the stream, and
waits for more lines otherwise. -/
structure Served (service : Service σ) (s : σ) (c : Connection) (lines : List (List UInt8))
    (served : σ × Connection) : Prop where
  answered : Answered lines c.written served.2.written
  carriedOut : served.1 = service.after s (orders lines)
  closed_iff : served.2.closed = true ↔
    c.lines.ended = true ∨ ∃ line ∈ lines, Utf8.decode line = none
  waits : served.2.closed = false →
    served.2.calling = none ∧ served.2.lines = { c.lines with ready := [] }

/-- The lines that wait are served. -/
theorem serve_lines {lines : List (List UInt8)} (hclosed : c.closed = false)
    (hcalling : c.calling = none) (hready : c.lines.ready = lines)
    (hreturns : service.Returns s (orders lines)) :
    Served service s c lines (serve service s c) := by
  induction lines generalizing s c with
  | nil =>
    cases hended : c.lines.ended with
    | false =>
      have hrest : c.step? = none := by
        simp [step?, hclosed, hcalling, LineReader.take?, hready, hended]
      rw [serve_of_rest hrest]
      refine ⟨answered_nil rfl _, rfl, ?_, fun _ => ⟨hcalling, ?_⟩⟩
      · simp [hclosed, hended]
      · rw [← hready]
    | true =>
      have hstep : c.step? = some (.quiet { c with closed := true }) := by
        simp [step?, hclosed, hcalling, LineReader.take?, hready, hended]
      have hserve : serve service s c = (s, { c with closed := true }) := by
        rw [serve, hready, List.length_nil, advanceMany, hstep]
        rfl
      rw [hserve]
      refine ⟨answered_nil rfl _, rfl, ?_, Bool.noConfusion⟩
      simp [hended]
  | cons line lines ih =>
    obtain ⟨advanced, hadvanced, hserve⟩ := serve_cons hclosed hcalling hready service s
    rw [hserve]
    cases hdecode : Utf8.decode line with
    | none =>
      have hhandle (c : Connection) : c.handle line = .quiet (c.breakOff Utf8.invalid) := by
        rw [handle, hdecode]
      have hasked : asked (line :: lines) = [] := by simp [asked, readable, hdecode]
      rw [hhandle] at hadvanced
      have hrest : advanced.2.step? = none := by rw [hadvanced]; rfl
      rw [serve_of_rest hrest, hadvanced, advance]
      refine ⟨answered_nil hasked _, ?_, ?_, Bool.noConfusion⟩
      · rw [orders, hasked]
        rfl
      · simp [breakOff, hdecode]
    | some cs =>
      have hreadable : ∀ l ∈ [line], Utf8.decode l ≠ none := by simp [hdecode]
      have horders : orders (line :: lines) = orders [line] ++ orders lines :=
        orders_append hreadable lines
      rw [horders] at hreturns
      obtain ⟨hreturns, hothers⟩ := hreturns.append
      obtain ⟨written, log, hfirst, hone⟩ :=
        advance_readable (c := { c with lines := { c.lines with ready := lines } }) hdecode hcalling
          hreturns
      have hserved := ih (c := { c with lines := { c.lines with ready := lines }, written, log })
        hclosed hcalling rfl hothers
      rw [hadvanced, hone]
      refine ⟨hfirst.append hreadable hserved.answered, ?_, ?_, hserved.waits⟩
      · rw [horders, Service.after_append]
        exact hserved.carriedOut
      · rw [hserved.closed_iff]
        simp [hdecode]

/-- The whole lines of a stream are served when its pieces have arrived. -/
theorem served_pieces {pieces lines : List (List UInt8)} {tail : List UInt8}
    (hcut : Cut pieces.flatten lines tail) (remote : Endpoint)
    (hreturns : service.Returns s (orders lines)) :
    Served service s { accept remote with lines := ⟨lines, tail, false⟩ } lines
      (servePieces service s (accept remote) pieces) := by
  have hrest : (accept remote).step? = none := rfl
  have hfeed : (accept remote).feed pieces.flatten =
      { accept remote with lines := ⟨lines, tail, false⟩ } :=
    congrArg (fun lines => ({ accept remote with lines } : Connection)) (cut_iff.mp hcut)
  rw [servePieces_eq rfl List.not_mem_nil hrest, hfeed]
  exact serve_lines rfl rfl rfl hreturns

/-- Whatever bytes a client writes and in whatever pieces they arrive, as long as the operations asked
for come back: at any time the whole lines that have arrived are answered in order, each line that is
not blank by one line with the number of its request and a result or an error, and the connection is
closed just when a line was not UTF-8. Once the stream has ended the same is true of all its lines,
the one without a line feed at its end included, and the connection is closed. -/
theorem answered_line_by_line (service : Service σ) (s : σ) (remote : Endpoint)
    {pieces lines : List (List UInt8)} {tail : List UInt8} (hcut : Cut pieces.flatten lines tail)
    (hreturns : service.Returns s (orders (lines ++ lastLine tail))) :
    (Answered lines [] (servePieces service s (accept remote) pieces).2.written ∧
      ((servePieces service s (accept remote) pieces).2.closed = true ↔
        ∃ line ∈ lines, Utf8.decode line = none)) ∧
    Answered (lines ++ lastLine tail) [] (session service s remote pieces).2.written ∧
      (session service s remote pieces).2.closed = true := by
  rw [session]
  by_cases hbroken : ∃ line ∈ lines, Utf8.decode line = none
  · -- the connection is closed before the stream ends
    have hasked := asked_append_of_broken hbroken (lastLine tail)
    rw [orders, hasked] at hreturns
    have hserved := served_pieces hcut remote hreturns
    have hclosed := hserved.closed_iff.mpr (.inr hbroken)
    have hrest : (servePieces service s (accept remote) pieces).2.finish.step? = none := by
      simp [step?, finish, hclosed]
    have hall : Answered (lines ++ lastLine tail) []
        (servePieces service s (accept remote) pieces).2.written := by
      rw [Answered, hasked]
      exact hserved.answered
    rw [serve_of_rest hrest]
    exact ⟨⟨hserved.answered, iff_of_true hclosed hbroken⟩, hall, hclosed⟩
  · have hreadable : ∀ line ∈ lines, Utf8.decode line ≠ none := fun line hmem hline =>
      hbroken ⟨line, hmem, hline⟩
    rw [orders_append hreadable] at hreturns
    obtain ⟨hreturns, hothers⟩ := hreturns.append
    have hserved := served_pieces hcut remote hreturns
    have hopen : (servePieces service s (accept remote) pieces).2.closed = false := by
      rw [← Bool.not_eq_true, hserved.closed_iff]
      exact fun h => h.elim Bool.false_ne_true hbroken
    obtain ⟨hcalling, hlines⟩ := hserved.waits hopen
    rw [← hserved.carriedOut] at hothers
    -- the line that waited for its end is the last one
    have hfinish : (servePieces service s (accept remote) pieces).2.finish.lines =
        ⟨lastLine tail, [], true⟩ := by
      rw [finish, hlines]
      rfl
    have hlast := serve_lines (c := (servePieces service s (accept remote) pieces).2.finish) hopen
      hcalling (congrArg LineReader.ready hfinish) hothers
    have hclosed := hlast.closed_iff.mpr (.inl (congrArg LineReader.ended hfinish))
    exact ⟨⟨hserved.answered, hserved.closed_iff.trans (or_iff_right Bool.false_ne_true)⟩,
      hserved.answered.append hreadable hlast.answered, hclosed⟩

/-- The text of a call that stops the node. -/
def stopCall : List UInt8 := Utf8.encode (Command.RemoteTask.stop.request 7).json.chars

/-- A service that says to every call that it is stopped, and counts the calls. -/
def stoppedService : Service Nat := fun n _ => (some .stopped, n + 1)

/-- A call that ends in a carriage return and a line feed, a blank line, and a last line without a line
feed that is no request. -/
def threeLines : List UInt8 := stopCall ++ [carriageReturn] ++ lineFeed :: [32, lineFeed, 91]

/-- The three lines arrive byte by byte. -/
theorem answered_line_by_line_threeLines :
    Cut (threeLines.map fun b => [b]).flatten [stopCall, [32]] [91] ∧
      stoppedService.Returns 0 (orders ([stopCall, [32]] ++ lastLine [91])) ∧
      Answered ([stopCall, [32]] ++ lastLine [91]) []
        (session stoppedService 0 ⟨.v4 .loopback, 4000⟩ (threeLines.map fun b => [b])).2.written := by
  have hplain : (Command.RemoteTask.stop.request 7).params.Plain 1 :=
    Command.RemoteTask.stop.plain_params
  have hexact : (Command.RemoteTask.stop.request 7).json.Exact := Request.exact_json hplain.exact
  have hcut : Cut (threeLines.map fun b => [b]).flatten [stopCall, [32]] [91] := by
    have hdrop : dropReturn (stopCall ++ [carriageReturn]) = stopCall := by simp [dropReturn]
    have hline : lineFeed ∉ stopCall ++ [carriageReturn] := by
      rw [List.mem_append, not_or]
      exact ⟨lineFeed_not_mem_encode hexact, by decide⟩
    rw [← List.flatMap_def, List.flatMap_singleton', threeLines, ← hdrop]
    have hblank : Cut ([32] ++ lineFeed :: [91]) [dropReturn [32]] [91] :=
      .line (by decide) (.tail (by decide))
    exact .line hline hblank
  have hcall : order? (Command.RemoteTask.stop.request 7).json.chars = some .stop :=
    (request_asks 7 .stop).2
  have horders : orders ([stopCall, [32]] ++ lastLine [91]) = [.stop] := by
    have hreadable : readable ([stopCall, [32]] ++ lastLine [91]) =
        [(Command.RemoteTask.stop.request 7).json.chars, [' '], ['[']] := by
      have hdecode : Utf8.decode stopCall = some (Command.RemoteTask.stop.request 7).json.chars :=
        Utf8.decode_encode _
      simp only [List.cons_append, readable, hdecode]
      rfl
    have hasking : isAsking (Command.RemoteTask.stop.request 7).json.chars = true := by
      simp [isAsking, trim_object, Request.json]
    have hblank : isAsking [' '] = false := by decide
    have hlast : isAsking ['['] = true := by decide
    have hother : order? ['['] = none := by rfl
    rw [orders, asked, hreadable]
    simp [hasking, hblank, hlast, hcall, hother]
  have hreturns : stoppedService.Returns 0 (orders ([stopCall, [32]] ++ lastLine [91])) := by
    rw [horders]
    exact .cons rfl .nil
  exact ⟨hcut, hreturns, (answered_line_by_line stoppedService 0 _ hcut hreturns).2.1⟩

end Connection

end PeerProbe.Control
