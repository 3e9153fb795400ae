import Switchboard.Proofs.Json.Record
import Switchboard.Tools.Message

/-!
# Messages that are read back

`messages_read_back` is the result: a request, a response, a delta, the description of a tool and
all that they are made of are read back from their own text as they were, with whatever bytes, texts
and lists they hold. The one condition is on the free-form values inside, which have integers for
numbers and are kept in key order (`Json.Storable`), and on counts, which have 32 bits. The types
are gone through from the inside out.
-/

namespace Switchboard

open Json (Reader Reads ReadsBack record reads_text reads_value reads_list reads_record maybe_eq)

namespace Chat

/-! ## Parts -/

/-- The free-form value in a part can be kept. -/
def Part.Storable : Part → Prop
  | .toolCall _ arguments _ => arguments.Storable
  | .toolResult _ result _ => result.Storable
  | _ => True

theorem reads_bytes (data : List UInt8) : Reads bytesReader (bytesJson data) data := by
  refine ⟨trivial, fun depth _ => ?_⟩
  rw [bytesReader, bytesJson, Json.toTree]
  simp [Reader.text, Base64.decode?_encode]

theorem reads_role (r : Role) : Reads Role.reader r.toJson r :=
  ⟨trivial, fun _ _ => r.ofName?_name⟩

def Part.tag : Part → String
  | .text _ => "text"
  | .image _ _ _ => "image"
  | .file _ _ _ => "file"
  | .toolCall _ _ _ => "tool_call"
  | .toolResult _ _ _ => "tool_result"

/-- The fields of a part beside its tag. -/
def Part.fields : Part → List (String × Option Json)
  | .text t => [("text", some (.str t))]
  | .image mime data name =>
    [("mime_type", some (.str mime)), ("data", some (bytesJson data)),
      ("file_name", name.map .str)]
  | .file mime name data =>
    [("mime_type", some (.str mime)), ("file_name", some (.str name)),
      ("data", some (bytesJson data))]
  | .toolCall name arguments id =>
    [("name", some (.str name)), ("arguments", some arguments), ("call_id", some (.str id))]
  | .toolResult id result isError =>
    [("call_id", some (.str id)), ("result", some result), ("is_error", some (.bool isError))]

section
variable {p : Part}

theorem Part.toJson_eq (p : Part) :
    p.toJson = record (("type", some (.str p.tag)) :: p.fields) := by
  cases p <;> simp [Part.toJson, record, Part.tag, Part.fields, present]

theorem Part.nodup_fields (p : Part) : (p.fields.map (·.1)).Nodup := by
  cases p <;> simp [Part.fields]

theorem integral_fields (h : p.Storable) : ∀ f ∈ p.fields, ∀ v, f.2 = some v → v.Integral := by
  cases p with
  | text t => simp [Part.fields, Json.Integral]
  | image mime data name => simp [Part.fields, Json.Integral, bytesJson]
  | file mime name data => simp [Part.fields, Json.Integral, bytesJson]
  | toolCall name arguments id => simpa [Part.fields, Json.Integral] using h.integral
  | toolResult id result isError => simpa [Part.fields, Json.Integral] using h.integral

/-- The fields of a part are read by the kind that its tag names. -/
theorem readTagged_fields (h : p.Storable) {depth : Nat}
    (hroom : ∀ f ∈ p.fields, ∀ v, f.2 = some v → depth + v.toTree.depth ≤ Tree.maxDepth) :
    Part.readTagged depth p.tag (record p.fields).toTree = some p := by
  have hf := Json.fieldsOf_record p.fields p.nodup_fields
  cases p with
  | text t =>
    simp only [Part.fields, List.map_cons, List.map_nil, Option.map_some] at hf ⊢
    simp [Part.readTagged, Part.tag, hf, Reader.required, Reader.text]
  | image mime data name =>
    have hdata := (reads_bytes data).found depth (hroom ("data", _) (by simp [Part.fields]) _ rfl)
    have hname := maybe_eq (fun s _ => ⟨reads_text s, nofun⟩)
      (hroom ("file_name", name.map .str) (by simp [Part.fields]))
    simp only [Part.fields, List.map_cons, List.map_nil, Option.map_some] at hf ⊢
    simp [Part.readTagged, Part.tag, hf, Reader.required, Reader.text, hname, hdata,
      -Option.map_map]
  | file mime name data =>
    have hdata := (reads_bytes data).found depth (hroom ("data", _) (by simp [Part.fields]) _ rfl)
    simp only [Part.fields, List.map_cons, List.map_nil, Option.map_some] at hf ⊢
    simp [Part.readTagged, Part.tag, hf, Reader.required, Reader.text, hdata]
  | toolCall name arguments id =>
    have hargs := (reads_value h).found depth (hroom ("arguments", _) (by simp [Part.fields]) _ rfl)
    simp only [Part.fields, List.map_cons, List.map_nil, Option.map_some] at hf ⊢
    simp [Part.readTagged, Part.tag, hf, Reader.required, Reader.text, hargs]
  | toolResult id result isError =>
    have hresult := (reads_value h).found depth (hroom ("result", _) (by simp [Part.fields]) _ rfl)
    simp only [Part.fields, List.map_cons, List.map_nil, Option.map_some] at hf ⊢
    simp [Part.readTagged, Part.tag, hf, Reader.required, Reader.orElse, Reader.text,
      Reader.flag, hresult]

/-- The whole part is looked at before its tag, and has a value, because it has a text. -/
theorem reads_part (h : p.Storable) : Reads Part.reader p.toJson p := by
  have hint : p.toJson.Integral := by
    rw [p.toJson_eq]
    refine Json.integral_record fun f hf v hv => ?_
    rcases List.mem_cons.1 hf with rfl | hf
    · cases hv
      trivial
    · exact integral_fields h f hf v hv
  refine ⟨hint, fun depth hd => ?_⟩
  obtain ⟨v, hv⟩ := Option.isSome_iff_exists.1 (Json.isSome_value? p.toJson)
  have hvalue : Reader.value depth p.toJson.toTree = some v := by rw [Reader.value, if_pos hd, hv]
  rw [p.toJson_eq] at hd hvalue ⊢
  have hroom := Json.room_of_record hd
  have hname : "type" ∉ p.fields.map (·.1) := by cases p <;> simp [Part.fields]
  have hnodup : ((("type", some (Json.str p.tag)) :: p.fields).map (·.1)).Nodup :=
    List.nodup_cons.2 ⟨hname, p.nodup_fields⟩
  have htag := Json.member_memberTrees hnodup List.mem_cons_self
  have hrest := readTagged_fields h fun f hf => hroom f (List.mem_cons_of_mem _ hf)
  have hfilter := Json.filter_tagged p.fields hname (.str p.tag)
  rw [Json.toTree_record] at hvalue hrest ⊢
  simp [Part.reader, hvalue, htag, Reader.required, Reader.text, hfilter, hrest]

/-! ## Messages, requests and answers -/

def Message.Storable (m : Message) : Prop := ∀ p ∈ m.parts, p.Storable

theorem reads_message {m : Message} (h : m.Storable) : Reads Message.reader m.toJson m := by
  have hrole := reads_role m.role
  have hparts : Reads (Reader.list Part.reader)
      (.arr (m.parts.map Part.toJson)) m.parts := reads_list fun p hp => reads_part (h p hp)
  refine reads_record [("role", some m.role.toJson),
      ("parts", some (.arr (m.parts.map Part.toJson)))]
    (by simp) (by simp [hrole.integral, hparts.integral]) fun depth hroom hf => ?_
  have hrole := hrole.found (depth + 1) (hroom ("role", _) (by simp) _ rfl)
  have hparts := hparts.found (depth + 1) (hroom ("parts", _) (by simp) _ rfl)
  simp only [List.map_cons, List.map_nil, Option.map_some] at hf
  simp [Message.reader, hf, Reader.required, hrole, hparts]

/-- An optional text is read back as it was, an empty one as empty. -/
theorem maybe_text {depth : Nat} (o : Option String) :
    Reader.maybe Reader.text depth ((o.map Json.str).map Json.toTree) = some o := by
  cases o <;> rfl

theorem reads_layers (l : Layers) : Reads Layers.reader l.toJson l := by
  have hj : l.toJson = record [("system", l.system.map .str), ("developer", l.developer.map .str),
      ("session", l.session.map .str), ("request", l.request.map .str)] := by
    simp [Layers.toJson, record]
  rw [hj]
  refine reads_record _ (by simp) (by simp [Json.Integral]) fun depth _ hf => ?_
  simp only [List.map_cons, List.map_nil] at hf
  simp [Layers.reader, hf, maybe_text, -Option.map_map]

def Request.Storable (r : Request) : Prop := ∀ m ∈ r.messages, m.Storable

theorem reads_request {r : Request} (h : r.Storable) : Reads Request.reader r.toJson r := by
  have hmessages : Reads (Reader.list Message.reader)
      (.arr (r.messages.map Message.toJson)) r.messages :=
    reads_list fun m hm => reads_message (h m hm)
  have hlayers : ∀ l ∈ r.instructions, Reads Layers.reader l.toJson l ∧ l.toJson.toTree ≠ .null :=
    fun l _ => ⟨reads_layers l, nofun⟩
  have hj : r.toJson = record [("model", some (.str r.model)),
      ("messages", some (.arr (r.messages.map Message.toJson))),
      ("instructions", r.instructions.map Layers.toJson), ("request_id", r.requestId.map .str),
      ("correlation_id", r.correlationId.map .str)] := by
    simp [Request.toJson, record, present]
  rw [hj]
  refine reads_record _ (by simp) ?_ fun depth hroom hf => ?_
  · simpa [Json.Integral, (reads_layers _).integral] using hmessages.integral
  · have hmessages := hmessages.found (depth + 1) (hroom ("messages", _) (by simp) _ rfl)
    have hlayers : Reader.maybe Layers.reader (depth + 1)
        ((r.instructions.map Layers.toJson).map Json.toTree) = some r.instructions :=
      maybe_eq hlayers (hroom ("instructions", r.instructions.map Layers.toJson) (by simp))
    simp only [List.map_cons, List.map_nil, Option.map_some] at hf
    simp [Request.reader, hf, Reader.required, hmessages, hlayers, maybe_text,
      Reader.text, -Option.map_map]

/-- The counts have 32 bits. -/
def Usage.Storable (u : Usage) : Prop :=
  u.inputTokens < Nat.pow 2 32 ∧ u.outputTokens < Nat.pow 2 32 ∧ u.totalTokens < Nat.pow 2 32

theorem reads_usage {u : Usage} (h : u.Storable) : Reads Usage.reader u.toJson u := by
  have hcount : ∀ {n : Nat}, n < Nat.pow 2 32 → Reads (Reader.below (Nat.pow 2 32)) (.int n) n :=
    fun hn => Json.reads_below hn (by decide)
  have hinput := hcount h.1
  have houtput := hcount h.2.1
  have htotal := hcount h.2.2
  refine reads_record [("input_tokens", some (.int u.inputTokens)),
      ("output_tokens", some (.int u.outputTokens)), ("total_tokens", some (.int u.totalTokens))]
    (by simp) (by simp [hinput.integral, houtput.integral, htotal.integral])
    fun depth hroom hf => ?_
  have hinput := hinput.found (depth + 1) (hroom ("input_tokens", _) (by simp) _ rfl)
  have houtput := houtput.found (depth + 1) (hroom ("output_tokens", _) (by simp) _ rfl)
  have htotal := htotal.found (depth + 1) (hroom ("total_tokens", _) (by simp) _ rfl)
  simp only [List.map_cons, List.map_nil, Option.map_some] at hf
  simp [Usage.reader, hf, Reader.required, hinput, houtput, htotal]

def Response.Storable (r : Response) : Prop :=
  r.message.Storable ∧ ∀ u ∈ r.usage, u.Storable

theorem reads_response {r : Response} (h : r.Storable) : Reads Response.reader r.toJson r := by
  have hmessage := reads_message h.1
  have husage : ∀ u ∈ r.usage, Reads Usage.reader u.toJson u ∧ u.toJson.toTree ≠ .null :=
    fun u hu => ⟨reads_usage (h.2 u hu), nofun⟩
  have hj : r.toJson = record [("provider_id", some (.str r.identity.provider)),
      ("model", some (.str r.identity.model)), ("message", some r.message.toJson),
      ("request_id", some (.str r.identity.requestId)),
      ("correlation_id", some (.str r.identity.correlationId)),
      ("usage", r.usage.map Usage.toJson)] := by
    simp [Response.toJson, record, present]
  rw [hj]
  refine reads_record _ (by simp) ?_ fun depth hroom hf => ?_
  · simpa [Json.Integral, hmessage.integral] using fun u hu => (husage u hu).1.integral
  · have hmessage := hmessage.found (depth + 1) (hroom ("message", _) (by simp) _ rfl)
    have husage : Reader.maybe Usage.reader (depth + 1)
        ((r.usage.map Usage.toJson).map Json.toTree) = some r.usage :=
      maybe_eq husage (hroom ("usage", r.usage.map Usage.toJson) (by simp))
    simp only [List.map_cons, List.map_nil, Option.map_some] at hf
    simp [Response.reader, hf, Reader.required, hmessage, husage, Reader.text,
      -Option.map_map]

theorem reads_delta (d : Delta) : Reads Delta.reader d.toJson d := by
  refine reads_record [("provider_id", some (.str d.identity.provider)),
      ("model", some (.str d.identity.model)), ("delta", some (.str d.delta)),
      ("is_final", some (.bool d.isFinal)), ("request_id", some (.str d.identity.requestId)),
      ("correlation_id", some (.str d.identity.correlationId))]
    (by simp) (by simp [Json.Integral]) fun depth _ hf => ?_
  simp only [List.map_cons, List.map_nil, Option.map_some] at hf
  simp [Delta.reader, hf, Reader.required, Reader.text, Reader.flag]

end

end Chat

namespace Tools

def Tool.Storable (t : Tool) : Prop := t.inputSchema.Storable

theorem reads_tool {t : Tool} (h : t.Storable) : Reads Tool.reader t.toJson t := by
  have hschema := reads_value h
  refine reads_record [("name", some (.str t.name)),
      ("description", some (.str t.description)), ("inputSchema", some t.inputSchema)]
    (by simp) (by simp [Json.Integral, hschema.integral]) fun depth hroom hf => ?_
  have hschema := hschema.found (depth + 1) (hroom ("inputSchema", _) (by simp) _ rfl)
  simp only [List.map_cons, List.map_nil, Option.map_some] at hf
  simp [Tool.reader, hf, Reader.required, Reader.orElse, Reader.text, hschema]

end Tools

/-! ## All of them -/

/-- What is written as text is read back as it was. -/
theorem messages_read_back :
    (∀ r : Chat.Request, r.Storable → ReadsBack Chat.Request.toJson Chat.Request.reader r) ∧
    (∀ m : Chat.Message, m.Storable → ReadsBack Chat.Message.toJson Chat.Message.reader m) ∧
    (∀ p : Chat.Part, p.Storable → ReadsBack Chat.Part.toJson Chat.Part.reader p) ∧
    (∀ l : Chat.Layers, ReadsBack Chat.Layers.toJson Chat.Layers.reader l) ∧
    (∀ r : Chat.Response, r.Storable → ReadsBack Chat.Response.toJson Chat.Response.reader r) ∧
    (∀ d : Chat.Delta, ReadsBack Chat.Delta.toJson Chat.Delta.reader d) ∧
    (∀ u : Chat.Usage, u.Storable → ReadsBack Chat.Usage.toJson Chat.Usage.reader u) ∧
    (∀ t : Tools.Tool, t.Storable → ReadsBack Tools.Tool.toJson Tools.Tool.reader t) :=
  ⟨fun _ h => (Chat.reads_request h).readsBack, fun _ h => (Chat.reads_message h).readsBack,
    fun _ h => (Chat.reads_part h).readsBack, fun l => (Chat.reads_layers l).readsBack,
    fun _ h => (Chat.reads_response h).readsBack, fun d => (Chat.reads_delta d).readsBack,
    fun _ h => (Chat.reads_usage h).readsBack, fun _ h => (Tools.reads_tool h).readsBack⟩

/-- A value with a tag of its own, a null and the integers at both ends. -/
def document : Json :=
  .obj [("extra", .null), ("type", .str "image"),
    ("values", .arr [.int (-9223372036854775808), .int 18446744073709551615, .obj []])]

theorem document_storable : document.Storable where
  integral := by simp [document, Json.Integral, Json.IntegralMembers, Json.IntegralItems]
  sorted := by
    simp only [document, Json.Sorted, Json.SortedMembers, Json.SortedItems, List.Pairwise.nil]
    decide

/-- A message with a part of every kind, some of them with nothing in them. -/
def letter : Chat.Message :=
  ⟨.user, [.text "", .image "image/png" [0, 255, 16, 61] (some ""), .image "image/gif" [] none,
    .file "text/plain" "" [10], .toolCall "search" document "", .toolResult "1" .null true]⟩

theorem letter_storable : letter.Storable := by
  have hnull : Json.null.Storable := ⟨trivial, trivial⟩
  simp [Chat.Message.Storable, letter, Chat.Part.Storable, document_storable, hnull]

def letterRequest : Chat.Request :=
  ⟨"local/small", [letter, ⟨.tool, []⟩], some ⟨some "", none, none, none⟩, none, some ""⟩

def letterResponse : Chat.Response :=
  ⟨⟨"r", "c", "local", "small"⟩, letter, some ⟨0, 1, 4294967295⟩⟩

theorem letter_read_back :
    Chat.Request.reader.ofText? letterRequest.toJson.compact = some letterRequest ∧
    Chat.Message.reader.ofText? letter.toJson.compact = some letter ∧
    (∀ p ∈ letter.parts, Chat.Part.reader.ofText? p.toJson.compact = some p) ∧
    Chat.Layers.reader.ofText? (Chat.Layers.toJson {}).compact = some {} ∧
    Chat.Response.reader.ofText? letterResponse.toJson.compact = some letterResponse ∧
    Chat.Delta.reader.ofText? Chat.Delta.terminal.toJson.compact = some Chat.Delta.terminal ∧
    Chat.Usage.reader.ofText? (Chat.Usage.toJson ⟨0, 1, 2⟩).compact = some ⟨0, 1, 2⟩ ∧
    Tools.Tool.reader.ofText? (Tools.Tool.toJson ⟨"search", "", document⟩).compact =
      some ⟨"search", "", document⟩ := by
  obtain ⟨hrequest, hmessage, hpart, hlayers, hresponse, hdelta, husage, htool⟩ :=
    messages_read_back
  have hr : letterRequest.Storable := by
    simpa [Chat.Request.Storable, letterRequest, Chat.Message.Storable] using letter_storable
  have hs : letterResponse.Storable := by
    simp [Chat.Response.Storable, letterResponse, letter_storable, Chat.Usage.Storable]
  have hdepth : ∀ p ∈ letter.parts, p.toJson.toTree.depth ≤ Tree.maxDepth := by decide
  exact ⟨hrequest _ hr (by decide), hmessage _ letter_storable (by decide),
    fun p hp => hpart p (letter_storable p hp) (hdepth p hp), hlayers _ (by decide),
    hresponse _ hs (by decide), hdelta _ (by decide),
    husage _ (by simp [Chat.Usage.Storable]) (by decide), htool _ document_storable (by decide)⟩

end Switchboard
