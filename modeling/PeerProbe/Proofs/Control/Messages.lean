import PeerProbe.Command.Remote
import PeerProbe.Proofs.Control.Lines
import PeerProbe.Proofs.Json.Reading
import PeerProbe.Proofs.Text.Blank
import PeerProbe.Proofs.Text.Utf8

/-!
# Messages as they are written

A request is read from its line with the number, the method and the parameters that were written, and
the parameters of a call are read as the texts and numbers that it was given. An answer is read from
its line as the result or the refusal that the service came back with. Nothing in them is written as a
line feed, whatever the texts are.
-/

namespace PeerProbe

open Json (Tree Value)

namespace Control

variable {v : Value} {members : List (String × Value)}

/-! ## Lines -/

/-- A value is written on one line. -/
theorem lineFeed_not_mem_encode (h : v.Exact) : lineFeed ∉ Utf8.encode v.chars := fun hmem =>
  h.control_not_mem_chars (by decide) (Utf8.mem_of_mem_encode (by decide) hmem)

/-- An object is written from one brace to the other. -/
theorem chars_object (members : List (String × Value)) :
    (Value.object members).chars = '\x7b' :: (Json.membersChars members ++ ['\x7d']) := by
  rw [Value.chars, List.cons_append]

/-- The line of an object does not end in a carriage return. -/
theorem getLast?_encode_object (members : List (String × Value)) :
    (Utf8.encode (Value.object members).chars).getLast? ≠ some carriageReturn := by
  rw [Value.chars, Utf8.getLast?_encode _ (by decide)]
  decide

/-- The line of an object is what a reader finds of it. -/
theorem feed_object (h : (Value.object members).Exact) :
    LineReader.empty.feed (Utf8.encode (Value.object members).chars ++ [lineFeed]) =
      { LineReader.empty with ready := [Utf8.encode (Value.object members).chars] } :=
  LineReader.feed_line rfl rfl (lineFeed_not_mem_encode h) (getLast?_encode_object members)

/-- The line of an object is not blank. -/
theorem trim_object (members : List (String × Value)) :
    Text.trim (Value.object members).chars ≠ [] := by
  have htrim : Text.trim ([] ++ ('\x7b' :: (Json.membersChars members ++ ['\x7d']) ++ [])) =
      '\x7b' :: (Json.membersChars members ++ ['\x7d']) :=
    Text.trim_append (List.forall_mem_nil _) (List.forall_mem_nil _) rfl rfl
  rw [List.nil_append, List.append_nil] at htrim
  rw [chars_object, htrim]
  exact List.cons_ne_nil _ _

/-! ## Requests -/

/-- A request is read from its tree. -/
theorem Request.ofTree?_json {r : Request} (h : r.params.Plain (Json.maxDepth - 1)) :
    Request.ofTree? r.json.tree = some r := by
  have hfields : r.json.tree.fields? ["id", "method", "params"] =
      some [some (Value.nat r.id.toNat).tree, some (.string (some r.method)), some r.params.tree] :=
    rfl
  simp [Request.ofTree?, hfields, Json.defaultField?, Json.word?_nat, Json.requiredField?, Tree.text?,
    Tree.any?, h.value?_tree]

/-- A request whose parameters have no doubles has none. -/
theorem Request.exact_json {r : Request} (h : r.params.Exact) : r.json.Exact := by
  refine .object ?_
  simp only [List.forall_mem_cons]
  exact ⟨.integer _, .string _, h, List.forall_mem_nil _⟩

/-- A request is read from its line. -/
theorem Request.ofChars?_json {r : Request} (h : r.params.Plain (Json.maxDepth - 1)) :
    Request.ofChars? r.json.chars = some r := by
  rw [ofChars?, Json.ofChars?_chars (exact_json h.exact), Option.bind_some, ofTree?_json h]

/-- The parameters that add a peer are read from their tree. -/
theorem AddPeer.ofTree?_json (p : AddPeer) : AddPeer.ofTree? p.json.tree = some p := by
  obtain ⟨enode, timeoutSecs⟩ := p
  cases timeoutSecs with
  | none => rfl
  | some secs =>
    have hfields : (AddPeer.json ⟨enode, some secs⟩).tree.fields? ["enode", "timeout_secs"] =
        some [some (.string (some enode)), some (Value.nat secs.toNat).tree] := rfl
    have hoptional : Json.optionalField? Tree.word? (some (Value.nat secs.toNat).tree) =
        ((Value.nat secs.toNat).tree.word?).map some := rfl
    simp [AddPeer.ofTree?, hfields, Json.requiredField?, Tree.text?, hoptional, Json.word?_nat]

/-- The parameters that remove a peer are read from their tree. -/
theorem RemovePeer.ofTree?_json (p : RemovePeer) : RemovePeer.ofTree? p.json.tree = some p := rfl

/-! ## Responses -/

/-- A value that is not null is not taken for a missing one. -/
theorem optionalField?_tree {α : Type} (read : Tree → Option α) (h : v ≠ .null) :
    Json.optionalField? read (some v.tree) = (read v.tree).map some := by
  cases v with
  | null => exact absurd rfl h
  | bool | integer | double | string | array | object => rfl

/-- The body of an error is read from its tree. -/
theorem ErrorBody.ofTree?_json (e : ErrorBody) : ErrorBody.ofTree? e.json.tree = some e := rfl

/-- What a response can carry and be read with: results within one record, but no null. -/
def Response.Legible (r : Response) : Prop :=
  ∀ v, r.result = some v → v.Plain (Json.maxDepth - 1) ∧ v ≠ .null

/-- A response is read from its tree, with what was left out. -/
theorem Response.ofTree?_json {r : Response} (h : r.Legible) :
    Response.ofTree? r.json.tree = some r := by
  obtain ⟨id, result, error⟩ := r
  have hfields : (Response.json ⟨id, result, error⟩).tree.fields? ["id", "result", "error"] =
      some [some (Value.nat id.toNat).tree, result.map Value.tree,
        error.map fun e => e.json.tree] := by
    cases result <;> cases error <;> rfl
  have hresult : Json.optionalField? Tree.any? (result.map Value.tree) = some result := by
    cases result with
    | none => rfl
    | some v =>
      obtain ⟨hplain, hnull⟩ := h v rfl
      rw [Option.map_some, optionalField?_tree _ hnull, Tree.any?, hplain.value?_tree]
      rfl
  have herror : Json.optionalField? ErrorBody.ofTree? (error.map fun e => e.json.tree) =
      some error := by
    cases error <;> rfl
  simp [Response.ofTree?, hfields, Json.requiredField?, Json.word?_nat, hresult, herror]

/-- A response whose result has no doubles has none. -/
theorem Response.exact_json {r : Response} (h : r.Legible) : r.json.Exact := by
  obtain ⟨id, result, error⟩ := r
  refine .object fun m hm => ?_
  simp only [List.mem_cons, List.mem_append, Option.mem_toList,
    Option.map_eq_some_iff] at hm
  obtain rfl | ⟨v, hv, rfl⟩ | ⟨e, -, rfl⟩ := hm
  · exact .integer _
  · exact (h v hv).1.exact
  · refine .object ?_
    simp only [List.forall_mem_cons]
    exact ⟨.string _, .string _, List.forall_mem_nil _⟩

/-- A response is read from its line. -/
theorem Response.ofChars?_json {r : Response} (h : r.Legible) :
    Response.ofChars? r.json.chars = some r := by
  rw [ofChars?, Json.ofChars?_chars (exact_json h), Option.bind_some, ofTree?_json h]

/-- The answer to a call means what the response says. -/
theorem readAnswer_encode {r : Response} (h : r.Legible) (want : UInt64) :
    Client.readAnswer want (Utf8.encode r.json.chars) = r.outcome want := by
  rw [Client.readAnswer, Utf8.decode_encode]
  simp only [Response.ofChars?_json h]

end Control

namespace Command.RemoteTask

open Control

/-- The request of a call with a number. -/
def request (id : UInt64) (task : RemoteTask) : Request := ⟨id, task.method, task.params⟩

/-- The parameters of a call can be read back. -/
theorem plain_params (task : RemoteTask) {depth : Nat} : task.params.Plain (depth + 1) := by
  cases task with
  | start | stop => exact .object .nil (List.forall_mem_nil _)
  | removePeer enode =>
    exact .object (List.pairwise_singleton _ _) (List.forall_mem_singleton.mpr (.string _))
  | addPeer enode timeoutSecs =>
    cases timeoutSecs with
    | none => exact .object (List.pairwise_singleton _ _) (List.forall_mem_singleton.mpr (.string _))
    | some secs =>
      have hkeys : "enode" < "timeout_secs" := by decide
      refine .object (List.pairwise_pair.mpr hkeys) ?_
      simp only [Option.map_some, Option.toList_some, List.forall_mem_cons]
      exact ⟨.string _, Json.plain_word secs, List.forall_mem_nil _⟩

/-- What is read from the parameters of a call is what it was given. -/
def Reads (task : RemoteTask) (params : Value) : Prop :=
  match task with
  | .start | .stop => True
  | .addPeer enode timeoutSecs => AddPeer.ofTree? params.tree = some ⟨enode, timeoutSecs⟩
  | .removePeer enode => RemovePeer.ofTree? params.tree = some ⟨enode⟩

/-- The parameters of a call are read as they were given. -/
theorem reads_params (task : RemoteTask) : task.Reads task.params := by
  cases task with
  | start | stop => trivial
  | addPeer enode timeoutSecs => exact AddPeer.ofTree?_json _
  | removePeer enode => exact RemovePeer.ofTree?_json _

/-- The request of a call asks for the order of the call. -/
theorem dispatchRequest_request (id : UInt64) (task : RemoteTask) :
    dispatchRequest (task.request id) = .call id task.order := by
  cases task with
  | start => rfl
  | stop => rfl
  | addPeer enode timeoutSecs =>
    have hmethod : ((addPeer enode timeoutSecs).request id).method = Method.addPeer := rfl
    have hstart : Method.addPeer ≠ Method.start := by decide
    have hstop : Method.addPeer ≠ Method.stop := by decide
    have hread : AddPeer.ofTree? ((addPeer enode timeoutSecs).request id).params.tree =
        some ⟨enode, timeoutSecs⟩ :=
      AddPeer.ofTree?_json _
    rw [dispatchRequest, hmethod, if_neg hstart, if_neg hstop, if_pos rfl, hread]
    rfl
  | removePeer enode => rfl

/-- The text of the request of a call gives the order of the call. -/
theorem dispatch_request (id : UInt64) (task : RemoteTask) :
    dispatch (task.request id).json.chars = .call id task.order := by
  rw [dispatch, Request.ofChars?_json (plain_params task)]
  exact dispatchRequest_request id task

/-- What a server makes of a line that makes a call with a number: it is one line of text, the
request in it has the method of the call and that number, its parameters are what the call was given,
and what it asks for is the order of the call. -/
def AskedBy (task : RemoteTask) (id : UInt64) (line : List UInt8) : Prop :=
  ∃ text cs r, line = text ++ [lineFeed] ∧ lineFeed ∉ text ∧ Utf8.decode text = some cs ∧
    Request.ofChars? cs = some r ∧ r.id = id ∧ r.method = task.method ∧ task.Reads r.params ∧
    dispatch cs = .call id task.order

/-- The line of a call asks for the call. -/
theorem askedBy_line (id : UInt64) (task : RemoteTask) : task.AskedBy id (task.request id).line := by
  have hplain : (task.request id).params.Plain (Json.maxDepth - 1) := plain_params task
  have hread := Request.ofChars?_json hplain
  exact ⟨_, _, task.request id, rfl, lineFeed_not_mem_encode (Request.exact_json hplain.exact),
    Utf8.decode_encode _, hread, rfl, rfl, reads_params task, dispatch_request id task⟩

end Command.RemoteTask

/-! ## Replies -/

namespace NodeInfo

/-- The description of a node can be read back. -/
theorem plain_json (i : NodeInfo) {depth : Nat} : i.json.Plain (depth + 3) := by
  have hkeys : (["enode", "id", "listen_addr", "name", "protocols"] : List String).Pairwise
      (· < ·) := by
    decide
  have hprotocolKeys : (["length", "name", "version"] : List String).Pairwise (· < ·) := by decide
  refine .object hkeys ?_
  simp only [List.forall_mem_cons]
  refine ⟨.string _, .string _, .string _, .string _, .array ?_, List.forall_mem_nil _⟩
  intro v hv
  obtain ⟨p, -, rfl⟩ := List.mem_map.mp hv
  have hversion : p.version.toNat < 0x100000000 := p.version.toNat_lt
  refine .object hprotocolKeys ?_
  simp only [List.forall_mem_cons]
  exact ⟨Json.plain_word p.length, .string _, .integer (by omega) (by omega), List.forall_mem_nil _⟩

end NodeInfo

namespace Reply

open Control

/-- What a call of the service comes to for the client that made it: the JSON form of what it came
back with, or its refusal with code and wording. -/
def result : Reply → Except CallError Value
  | .started i =>
    .ok (.object [("node_info", i.info.json), ("self_peer_ref", .string i.selfRef.text)])
  | .added p =>
    .ok (.object ([("enode", .string p.enode), ("ok", .bool p.ok)] ++
      (p.reason.map fun r => ("reason", Value.string r)).toList))
  | .refused e => .error (.remote ⟨e.code, e.message⟩)
  | _ => .ok (.object [])

/-- The response to a call carries what can be read back. -/
theorem legible_response (id : UInt64) (reply : Reply) : (reply.response id).Legible := by
  have hempty : ∀ v, some (Value.object []) = some v → v.Plain (Json.maxDepth - 1) ∧ v ≠ .null := by
    rintro v ⟨⟩
    exact ⟨.object .nil (List.forall_mem_nil _), nofun⟩
  cases reply with
  | stopped | removed | transportStarted | transportStopped | quiet | reported | verdict =>
    exact hempty
  | refused => nofun
  | started i =>
    rintro v ⟨⟩
    have hkeys : "node_info" < "self_peer_ref" := by decide
    refine ⟨.object (List.pairwise_pair.mpr hkeys) ?_, nofun⟩
    simp only [List.forall_mem_cons]
    exact ⟨i.info.plain_json, .string _, List.forall_mem_nil _⟩
  | added p =>
    rintro v ⟨⟩
    obtain ⟨enode, reason⟩ := p
    cases reason with
    | none =>
      have hkeys : "enode" < "ok" := by decide
      refine ⟨.object (List.pairwise_pair.mpr hkeys) ?_, nofun⟩
      simp only [Option.map_none, Option.toList_none, List.append_nil, List.forall_mem_cons]
      exact ⟨.string _, .bool _, List.forall_mem_nil _⟩
    | some r =>
      have hkeys : (["enode", "ok", "reason"] : List String).Pairwise (· < ·) := by decide
      refine ⟨.object hkeys ?_, nofun⟩
      simp only [Option.map_some, Option.toList_some, List.cons_append, List.nil_append,
        List.forall_mem_cons]
      exact ⟨.string _, .bool _, .string _, List.forall_mem_nil _⟩

/-- The response to a call means to the call with its number what the service came back with. -/
theorem outcome_response (id : UInt64) (reply : Reply) :
    (reply.response id).outcome id = reply.result := by
  cases reply <;> simp [response, Response.ok, Response.err, Response.outcome, result]

/-- The line of a response is read as what the service came back with. -/
theorem readAnswer_response (id : UInt64) (reply : Reply) :
    Client.readAnswer id (Utf8.encode (reply.response id).json.chars) = reply.result := by
  rw [readAnswer_encode (legible_response id reply), outcome_response]

end Reply

end PeerProbe
