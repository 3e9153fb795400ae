import Switchboard.Chat.Basic
import Switchboard.Json.Printer
import Switchboard.Json.Reader
import Switchboard.Text.Utf8

/-!
# Messages to and from a tool server

Requests carry an id, which the answer repeats; notifications carry none. Whatever arrives is read
as an answer with an optional id, result and error, `null` meaning that a member is absent. It
answers a request only if its id is the same nonnegative integer. A tool's result is free-form; its
text is that of the text items of its content, one per line.
-/

namespace Switchboard.Tools

open Json (Reader)

inductive Method where
  | handshake
  | toolsList
  | toolsCall
  deriving DecidableEq, Repr

def Method.name : Method → String
  | handshake => "initialize"
  | toolsList => "tools/list"
  | toolsCall => "tools/call"

/-- The name of the notification that ends the handshake. -/
def initializedName : String := "notifications/initialized"

def requestJson (id : Nat) (method : String) (params : Json) : Json :=
  .obj [("jsonrpc", .str "2.0"), ("id", .int id), ("method", .str method), ("params", params)]

def notificationJson (method : String) : Json :=
  .obj [("jsonrpc", .str "2.0"), ("method", .str method)]

/-- An incoming message as far as answers go. -/
structure Answer where
  id : Option Json
  result : Option Json
  error : Option Json
  deriving DecidableEq, Repr

namespace Answer

def reader : Reader Answer := fun depth t => do
  let [id, result, error] ← Reader.fields ["id", "result", "error"] depth t | none
  let member := Reader.maybe Reader.value (depth + 1)
  return ⟨← member id, ← member result, ← member error⟩

/-- The message in a frame. -/
def ofBody? (body : List UInt8) : Option Answer :=
  Text.Utf8.decode? body >>= Tree.parse? >>= reader 0

def answers (a : Answer) (id : Nat) : Bool := a.id.bind Json.natural? == some id

end Answer

/-- A tool that a server offers. -/
structure Tool where
  name : String
  description : String
  inputSchema : Json
  deriving DecidableEq, Repr

namespace Tool

def reader : Reader Tool := fun depth t => do
  let [name, description, schema] ← Reader.fields ["name", "description", "inputSchema"] depth t
    | none
  return ⟨← Reader.required Reader.text (depth + 1) name,
    ← Reader.orElse Reader.text "" (depth + 1) description,
    ← Reader.orElse Reader.value (.obj []) (depth + 1) schema⟩

def toJson (t : Tool) : Json :=
  .obj [("name", .str t.name), ("description", .str t.description),
    ("inputSchema", t.inputSchema)]

/-- The tools in the result of a listing; without the member there are none. -/
def listOf? (result : Json) : Option (List Tool) :=
  match result.get? "tools" with
  | none => some []
  | some tools => (Reader.list reader).ofJson? tools

end Tool

/-- The outcome of a tool call. -/
structure CallResult where
  tool : String
  result : Json
  isError : Bool
  deriving DecidableEq, Repr

namespace CallResult

/-- A server marks a failure of the tool itself by `isError` in the result. -/
def ofResult (tool : String) (result : Json) : CallResult :=
  ⟨tool, result, ((result.get? "isError").bind Json.bool?).getD false⟩

/-- The text of a content item of type text. -/
def itemText? (item : Json) : Option String :=
  if (item.get? "type").bind Json.str? = some "text" then (item.get? "text").bind Json.str?
  else none

def text (r : CallResult) : String :=
  let items := ((r.result.get? "content").bind Json.arr?).getD []
  String.intercalate "\n" (items.filterMap itemText?)

/-- The result as the part of a message that answers `callId`. -/
def toPart (callId : String) (r : CallResult) : Chat.Part := .toolResult callId r.result r.isError

end CallResult
end Switchboard.Tools
