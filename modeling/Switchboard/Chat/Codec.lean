import Switchboard.Base64
import Switchboard.Chat.Basic
import Switchboard.Json.Printer
import Switchboard.Json.Reader

/-!
# Chat messages as JSON

Every record writes its fields in the order of its declaration and leaves out absent optional
ones. A part carries its kind in `type`, which may stand anywhere in the object or first in an
array, and is read whole before its fields are looked at. The bytes of images and files are base64
text. A role is a word, or an object with that word as its only key and `null` under it.
-/

namespace Switchboard.Chat

open Json (Reader)

def Role.name : Role → String
  | .system => "system"
  | .developer => "developer"
  | .user => "user"
  | .assistant => "assistant"
  | .tool => "tool"

def Role.ofName? : String → Option Role
  | "system" => some .system
  | "developer" => some .developer
  | "user" => some .user
  | "assistant" => some .assistant
  | "tool" => some .tool
  | _ => none

theorem Role.ofName?_name (r : Role) : ofName? r.name = some r := by cases r <;> rfl

/-- A member that is left out when absent. -/
def present (key : String) : Option Json → List (String × Json)
  | some v => [(key, v)]
  | none => []

def bytesJson (data : List UInt8) : Json := .str (String.ofList (Base64.encode data))

def Role.toJson (r : Role) : Json := .str r.name

def Part.toJson : Part → Json
  | .text t => .obj [("type", .str "text"), ("text", .str t)]
  | .image mime data name =>
    .obj ([("type", .str "image"), ("mime_type", .str mime), ("data", bytesJson data)] ++
      present "file_name" (name.map .str))
  | .file mime name data =>
    .obj [("type", .str "file"), ("mime_type", .str mime), ("file_name", .str name),
      ("data", bytesJson data)]
  | .toolCall name arguments id =>
    .obj [("type", .str "tool_call"), ("name", .str name), ("arguments", arguments),
      ("call_id", .str id)]
  | .toolResult id result isError =>
    .obj [("type", .str "tool_result"), ("call_id", .str id), ("result", result),
      ("is_error", .bool isError)]

def Message.toJson (m : Message) : Json :=
  .obj [("role", m.role.toJson), ("parts", .arr (m.parts.map Part.toJson))]

def Layers.toJson (l : Layers) : Json :=
  .obj (present "system" (l.system.map .str) ++ present "developer" (l.developer.map .str) ++
    present "session" (l.session.map .str) ++ present "request" (l.request.map .str))

def Request.toJson (r : Request) : Json :=
  .obj ([("model", .str r.model), ("messages", .arr (r.messages.map Message.toJson))] ++
    present "instructions" (r.instructions.map Layers.toJson) ++
    present "request_id" (r.requestId.map .str) ++
    present "correlation_id" (r.correlationId.map .str))

def Usage.toJson (u : Usage) : Json :=
  .obj [("input_tokens", .int u.inputTokens), ("output_tokens", .int u.outputTokens),
    ("total_tokens", .int u.totalTokens)]

def Response.toJson (r : Response) : Json :=
  .obj ([("provider_id", .str r.identity.provider), ("model", .str r.identity.model),
    ("message", r.message.toJson), ("request_id", .str r.identity.requestId),
    ("correlation_id", .str r.identity.correlationId)] ++
    present "usage" (r.usage.map Usage.toJson))

def Delta.toJson (d : Delta) : Json :=
  .obj [("provider_id", .str d.identity.provider), ("model", .str d.identity.model),
    ("delta", .str d.delta), ("is_final", .bool d.isFinal),
    ("request_id", .str d.identity.requestId), ("correlation_id", .str d.identity.correlationId)]

/-! ## Reading -/

def bytesReader : Reader (List UInt8) := fun depth t =>
  Reader.text depth t >>= fun s => Base64.decode? s.toList

def Role.reader : Reader Role
  | _, .str s => s >>= ofName?
  | depth, .obj [(some name, .null)] => if depth < Tree.maxDepth then ofName? name else none
  | _, _ => none

/-- The fields of the kind of part that `tag` names, from an object or array without the tag. -/
def Part.readTagged (depth : Nat) (tag : String) (t : Tree) : Option Part :=
  match tag with
  | "text" => do
    let [body] ← Reader.fieldsOf ["text"] t | none
    return .text (← Reader.required Reader.text depth body)
  | "image" => do
    let [mime, data, name] ← Reader.fieldsOf ["mime_type", "data", "file_name"] t | none
    return .image (← Reader.required Reader.text depth mime)
      (← Reader.required bytesReader depth data) (← Reader.maybe Reader.text depth name)
  | "file" => do
    let [mime, name, data] ← Reader.fieldsOf ["mime_type", "file_name", "data"] t | none
    return .file (← Reader.required Reader.text depth mime)
      (← Reader.required Reader.text depth name) (← Reader.required bytesReader depth data)
  | "tool_call" => do
    let [name, arguments, id] ← Reader.fieldsOf ["name", "arguments", "call_id"] t | none
    return .toolCall (← Reader.required Reader.text depth name)
      (← Reader.required Reader.value depth arguments) (← Reader.required Reader.text depth id)
  | "tool_result" => do
    let [id, result, isError] ← Reader.fieldsOf ["call_id", "result", "is_error"] t | none
    return .toolResult (← Reader.required Reader.text depth id)
      (← Reader.required Reader.value depth result)
      (← Reader.orElse Reader.flag false depth isError)
  | _ => none

def Part.reader : Reader Part := fun depth t => do
  let _ ← Reader.value depth t
  match t with
  | .obj members =>
    let tag ← Reader.member "type" members
    let tag ← Reader.required Reader.text depth tag
    readTagged (depth + 1) tag (.obj (members.filter fun m => m.1 != some "type"))
  | .arr (tag :: rest) => readTagged (depth + 1) (← Reader.text depth tag) (.arr rest)
  | _ => none

def Message.reader : Reader Message := fun depth t => do
  let [role, parts] ← Reader.fields ["role", "parts"] depth t | none
  return ⟨← Reader.required Role.reader (depth + 1) role,
    ← Reader.required (Reader.list Part.reader) (depth + 1) parts⟩

def Layers.reader : Reader Layers := fun depth t => do
  let [system, developer, session, request] ←
    Reader.fields ["system", "developer", "session", "request"] depth t | none
  return ⟨← Reader.maybe Reader.text (depth + 1) system,
    ← Reader.maybe Reader.text (depth + 1) developer,
    ← Reader.maybe Reader.text (depth + 1) session,
    ← Reader.maybe Reader.text (depth + 1) request⟩

def Request.reader : Reader Request := fun depth t => do
  let [model, messages, instructions, requestId, correlationId] ←
    Reader.fields ["model", "messages", "instructions", "request_id", "correlation_id"] depth t
    | none
  return ⟨← Reader.required Reader.text (depth + 1) model,
    ← Reader.required (Reader.list Message.reader) (depth + 1) messages,
    ← Reader.maybe Layers.reader (depth + 1) instructions,
    ← Reader.maybe Reader.text (depth + 1) requestId,
    ← Reader.maybe Reader.text (depth + 1) correlationId⟩

def Usage.reader : Reader Usage := fun depth t => do
  let [input, output, total] ←
    Reader.fields ["input_tokens", "output_tokens", "total_tokens"] depth t | none
  let count := Reader.below (Nat.pow 2 32)
  return ⟨← Reader.required count (depth + 1) input, ← Reader.required count (depth + 1) output,
    ← Reader.required count (depth + 1) total⟩

def Response.reader : Reader Response := fun depth t => do
  let [provider, model, message, requestId, correlationId, usage] ←
    Reader.fields ["provider_id", "model", "message", "request_id", "correlation_id", "usage"]
      depth t | none
  let text := Reader.required Reader.text (depth + 1)
  let provider ← text provider
  let model ← text model
  let message ← Reader.required Message.reader (depth + 1) message
  let requestId ← text requestId
  let correlationId ← text correlationId
  let usage ← Reader.maybe Usage.reader (depth + 1) usage
  return ⟨⟨requestId, correlationId, provider, model⟩, message, usage⟩

def Delta.reader : Reader Delta := fun depth t => do
  let [provider, model, delta, isFinal, requestId, correlationId] ←
    Reader.fields ["provider_id", "model", "delta", "is_final", "request_id", "correlation_id"]
      depth t | none
  let text := Reader.required Reader.text (depth + 1)
  let provider ← text provider
  let model ← text model
  let delta ← text delta
  let isFinal ← Reader.required Reader.flag (depth + 1) isFinal
  let requestId ← text requestId
  let correlationId ← text correlationId
  return ⟨⟨requestId, correlationId, provider, model⟩, delta, isFinal⟩

end Switchboard.Chat
