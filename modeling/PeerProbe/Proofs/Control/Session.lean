import PeerProbe.Proofs.Control.Messages
import PeerProbe.Proofs.Control.Serving

/-!
# Calls over one connection

A client makes one call after the other on one connection, whose stream may cut what is sent into any
pieces. Between two calls nothing is under way on either side. So the line of a call is the only one
that the server finds, the operation of the service that it asks for is the only one that is carried
out, and the answer is the only line that the client finds: every call comes back with what its own
operation came back with.
-/

namespace PeerProbe.Control

open Command (RemoteTask)
open Json (Value)

variable {σ : Type} {service : Service σ} {s s' : σ} {reply : Reply}

/-! ## One call at the server -/

namespace Connection

variable {c : Connection}

/-- The line of a call begins the call. -/
theorem handle_request (c : Connection) (id : UInt64) (task : RemoteTask) :
    c.handle (Utf8.encode (task.request id).json.chars) =
      .call task.order { c with calling := some ⟨id, task.method⟩ } := by
  have hread : Request.ofChars? (task.request id).json.chars = some (task.request id) :=
    Request.ofChars?_json (RemoteTask.plain_params task)
  have hblank : (Text.trim (task.request id).json.chars).isEmpty = false :=
    List.isEmpty_eq_false_iff.mpr (trim_object _)
  have hmethod : methodName (task.request id).json.chars = task.method := by
    rw [methodName, hread]
    rfl
  simp [handle, Utf8.decode_encode, hblank, RemoteTask.dispatch_request, hmethod]

/-- A call that comes on an idle connection is carried out and answered, and nothing else is. -/
theorem serve_request (hclosed : c.closed = false) (hcalling : c.calling = none)
    (hlines : c.lines = .empty) (id : UInt64) (task : RemoteTask)
    (hreply : (service s task.order).1 = some reply) :
    serve service s (c.feed (task.request id).line) =
      ((service s task.order).2, c.respond task.method (reply.response id)) := by
  have hexact : (task.request id).json.Exact :=
    Request.exact_json (task.plain_params : task.params.Plain 1).exact
  have hfeed : (c.feed (task.request id).line).lines =
      { LineReader.empty with ready := [Utf8.encode (task.request id).json.chars] } := by
    rw [feed, hlines]
    exact feed_object hexact
  have hopen : (c.feed (task.request id).line).lines.ended = false :=
    congrArg LineReader.ended hfeed
  have hready : (c.feed (task.request id).line).lines.ready =
      [Utf8.encode (task.request id).json.chars] :=
    congrArg LineReader.ready hfeed
  -- once the line is taken, the connection is as it was
  have htaken : { (c.feed (task.request id).line).lines with ready := [] } = c.lines := by
    rw [hfeed, hlines]
    rfl
  have hkept : ({ c.feed (task.request id).line with
      lines := { (c.feed (task.request id).line).lines with ready := [] } } : Connection) = c :=
    congrArg (fun lines => ({ c with lines } : Connection)) htaken
  have hstep : (c.feed (task.request id).line).step? =
      some (.call task.order { c with calling := some ⟨id, task.method⟩ }) := by
    rw [step?_eq_some (c := c.feed (task.request id).line) hclosed hcalling hready, hkept,
      handle_request]
  have hrest : (c.respond task.method (reply.response id)).step? = none := by
    simp [step?, respond, hclosed, hlines, LineReader.empty, LineReader.take?]
  rw [serve_of_step hopen hstep, advance, hreply]
  exact serve_of_rest hrest

end Connection

/-! ## One call from end to end -/

namespace Link

variable {l : Link σ} {cut : List UInt8 → List (List UInt8)}

/-- Make a call over a stream that delivers what is sent in pieces, in either direction. -/
def callInPieces (service : Service σ) (cut : List UInt8 → List (List UInt8)) (l : Link σ)
    (method : String) (params : Value) : Option (Except CallError Value) × Link σ :=
  let request := l.client.request method params
  let served := l.connection.servePieces service l.service (cut request.line)
  let arrived := (cut served.2.written).foldl LineReader.feed l.client.sent.lines
  let lines := if served.2.closed then arrived.finish else arrived
  let client : Client := { l.client.sent with lines }
  let ended := client.receive? request.id
  (ended.map Prod.fst, ⟨served.1, (ended.map Prod.snd).getD client, { served.2 with written := [] }⟩)

/-- Nothing is under way: the connection is open and idle, all that was sent in either direction has
been read, and all that was read has been answered. -/
structure Resting (l : Link σ) : Prop where
  isOpen : l.connection.closed = false
  idle : l.connection.calling = none
  served : l.connection.lines = .empty
  sent : l.connection.written = []
  received : l.client.lines = .empty

/-- A new connection rests. -/
theorem resting_connect (s : σ) (remote : Endpoint) : (connect s remote).Resting :=
  ⟨rfl, rfl, rfl, rfl, rfl⟩

/-- The pieces in which a call and its answer arrive make no difference. -/
theorem callInPieces_eq (hcut : ∀ bytes, (cut bytes).flatten = bytes) (h : l.Resting)
    (method : String) (params : Value) :
    l.callInPieces service cut method params = l.call service method params := by
  have hended : l.connection.lines.ended = false := by rw [h.served]; rfl
  have hpending : lineFeed ∉ l.connection.lines.pending := by
    rw [h.served]
    exact List.not_mem_nil
  have hrest : l.connection.step? = none := by
    simp [Connection.step?, h.isOpen, h.idle, h.served, LineReader.empty, LineReader.take?]
  have hreceived : lineFeed ∉ l.client.sent.lines.pending := by
    rw [Client.sent, h.received]
    exact List.not_mem_nil
  simp only [callInPieces, call, Connection.servePieces_eq hended hpending hrest,
    LineReader.foldl_feed hreceived, hcut]
  generalize Client.receive? _ _ = ended
  cases ended <;> rfl

/-- A call comes back with what the service came back with, and leaves nothing behind but its entry
in the log. -/
theorem call_task (h : l.Resting) (task : RemoteTask)
    (hreply : (service l.service task.order).1 = some reply) :
    l.call service task.method task.params =
      (some reply.result, ⟨(service l.service task.order).2, l.client.sent,
        { l.connection.respond task.method (reply.response l.client.nextId) with written := [] }⟩) := by
  have hserved := Connection.serve_request h.isOpen h.idle h.served l.client.nextId task hreply
  have hwritten : (l.connection.respond task.method (reply.response l.client.nextId)).written =
      (reply.response l.client.nextId).line := by
    rw [Connection.respond, h.sent, List.nil_append]
  have harrived : l.client.sent.lines.feed (reply.response l.client.nextId).line =
      { LineReader.empty with
        ready := [Utf8.encode (reply.response l.client.nextId).json.chars] } := by
    rw [Client.sent, h.received]
    exact feed_object (Response.exact_json (reply.legible_response _))
  have hopen : (l.connection.respond task.method (reply.response l.client.nextId)).closed = false :=
    h.isOpen
  have hreceive : Client.receive? { l.client.sent with lines := { LineReader.empty with
      ready := [Utf8.encode (reply.response l.client.nextId).json.chars] } } l.client.nextId =
        some (reply.result, l.client.sent) := by
    have hempty : ({ l.client.sent with lines := .empty } : Client) = l.client.sent := by
      rw [← h.received]
      rfl
    rw [Client.receive?, ← reply.readAnswer_response l.client.nextId, ← hempty]
    rfl
  have hrequest : l.client.request task.method task.params = task.request l.client.nextId := rfl
  have hid : (task.request l.client.nextId).id = l.client.nextId := rfl
  simp only [call, hrequest, hid, hserved, hwritten, harrived, hopen, Bool.false_eq_true, ↓reduceIte,
    hreceive]

/-- A link rests again after a call. -/
theorem Resting.respond (h : l.Resting) (s : σ) (method : String) (r : Response) :
    Resting ⟨s, l.client.sent, { l.connection.respond method r with written := [] }⟩ :=
  ⟨h.isOpen, rfl, h.served, rfl, h.received⟩

end Link

/-! ## A session -/

/-- A call of a session: the line that the client sent, and what it came back with. -/
structure Exchange where
  line : List UInt8
  result : Option (Except CallError Value)

/-- Make calls one after the other. -/
def Link.session (service : Service σ) (cut : List UInt8 → List (List UInt8)) :
    Link σ → List RemoteTask → List Exchange × Link σ
  | l, [] => ([], l)
  | l, task :: tasks =>
    let called := l.callInPieces service cut task.method task.params
    let rest := called.2.session service cut tasks
    (⟨(l.client.request task.method task.params).line, called.1⟩ :: rest.1, rest.2)

/-- What the operations of the calls come back with when they are carried out one after the other,
as long as each of them comes back. -/
def Service.perform? (service : Service σ) : σ → List RemoteTask → Option (List Reply × σ)
  | s, [] => some ([], s)
  | s, task :: tasks => do
    let reply ← (service s task.order).1
    let (replies, s) ← Service.perform? service (service s task.order).2 tasks
    some (reply :: replies, s)

/-- Calls numbered from `id` on are told apart and answered truly: in the line of each of them the
server reads that call, and it comes back with what its own operation came back with. -/
inductive Faithful : UInt64 → List RemoteTask → List Reply → List Exchange → Prop where
  | nil {id : UInt64} : Faithful id [] [] []
  | cons {id : UInt64} {task : RemoteTask} {tasks : List RemoteTask} {reply : Reply}
      {replies : List Reply} {exchange : Exchange} {exchanges : List Exchange}
      (asked : task.AskedBy id exchange.line) (answered : exchange.result = some reply.result)
      (rest : Faithful (id + 1) tasks replies exchanges) :
      Faithful id (task :: tasks) (reply :: replies) (exchange :: exchanges)

/-- A call that comes back makes way for the next. -/
theorem Service.perform?_cons {task : RemoteTask} {tasks : List RemoteTask} {replies : List Reply}
    (h : Service.perform? service s (task :: tasks) = some (replies, s')) :
    ∃ reply rest, (service s task.order).1 = some reply ∧
      Service.perform? service (service s task.order).2 tasks = some (rest, s') ∧
      replies = reply :: rest := by
  rw [perform?] at h
  simp only [Option.bind_eq_bind, Option.bind_eq_some_iff, Option.some.injEq, Prod.mk.injEq] at h
  obtain ⟨reply, hreply, ⟨rest, s⟩, hrest, rfl, rfl⟩ := h
  exact ⟨reply, rest, hreply, hrest, rfl⟩

/-- From one resting state to the next, a session is faithful. -/
theorem Link.Resting.faithful_session {l : Link σ} {cut : List UInt8 → List (List UInt8)}
    {tasks : List RemoteTask} {replies : List Reply} (h : l.Resting)
    (hcut : ∀ bytes, (cut bytes).flatten = bytes)
    (hperform : Service.perform? service l.service tasks = some (replies, s')) :
    Faithful l.client.nextId tasks replies (l.session service cut tasks).1 ∧
      (l.session service cut tasks).2.service = s' := by
  induction tasks generalizing l replies with
  | nil =>
    obtain ⟨rfl, rfl⟩ : [] = replies ∧ l.service = s' := by simpa [Service.perform?] using hperform
    exact ⟨.nil, rfl⟩
  | cons task tasks ih =>
    obtain ⟨reply, rest, hreply, hrest, rfl⟩ := Service.perform?_cons hperform
    have hcall := (callInPieces_eq hcut h task.method task.params).trans (call_task h task hreply)
    obtain ⟨hfaithful, hservice⟩ :=
      ih (h.respond (service l.service task.order).2 task.method (reply.response l.client.nextId))
        hrest
    rw [session, hcall]
    exact ⟨.cons (task.askedBy_line l.client.nextId) rfl hfaithful, hservice⟩

/-- Whatever calls are made on a new connection, however the stream cuts what is sent and whatever the
service does, as long as every operation comes back: the server reads each call as it was made, each
call comes back with what its own operation came back with, and the service ends up where the
operations alone take it.

The state of the service stands for everything that its operations depend on: a node, the network
around it, and what others ask of it in the meantime. -/
theorem session_faithful (service : Service σ) (remote : Endpoint)
    (cut : List UInt8 → List (List UInt8)) (hcut : ∀ bytes, (cut bytes).flatten = bytes)
    (s s' : σ) (tasks : List RemoteTask) (replies : List Reply)
    (h : Service.perform? service s tasks = some (replies, s')) :
    Faithful 1 tasks replies ((Link.connect s remote).session service cut tasks).1 ∧
      ((Link.connect s remote).session service cut tasks).2.service = s' :=
  (Link.resting_connect s remote).faithful_session hcut h

/-- A service that reaches nobody, refuses to remove anybody and counts its calls. -/
def lonely : Service Nat := fun n order =>
  match order with
  | .addPeer enode _ => (some (.added ⟨enode, some "nobody \"there\"\n"⟩), n + 1)
  | .removePeer _ => (some (.refused .notRunning), n + 1)
  | _ => (some .stopped, n + 1)

/-- Quotes, line breaks and other control characters in a name arrive, byte by byte, and so do the
answers. -/
theorem session_faithful_lonely :
    let tasks := [.stop, .addPeer "a \"name\"\r\nwith \x00 and \\" (some 5), .removePeer "\n\n"]
    let replies := [.stopped, .added ⟨"a \"name\"\r\nwith \x00 and \\", some "nobody \"there\"\n"⟩,
      .refused .notRunning]
    let remote : Endpoint := ⟨.v4 .loopback, 4000⟩
    let ended := (Link.connect 0 remote).session lonely (List.map fun b => [b]) tasks
    Service.perform? lonely 0 tasks = some (replies, 3) ∧ Faithful 1 tasks replies ended.1 ∧
      ended.2.service = 3 := by
  intro tasks replies remote ended
  have hcut (bytes : List UInt8) : (bytes.map fun b => [b]).flatten = bytes := by
    induction bytes with
    | nil => rfl
    | cons b bytes ih => exact congrArg (b :: ·) ih
  have hperform : Service.perform? lonely 0 tasks = some (replies, 3) := rfl
  exact ⟨hperform, session_faithful lonely remote _ hcut 0 3 tasks replies hperform⟩

end PeerProbe.Control
