import Switchboard.Chat.Basic
import Switchboard.Text.Blank

/-!
# Instruction layers

Merging puts one message before the history for each layer that is not blank, in the order
request, session, developer, system. The message is the layer's tag in brackets, a line break and
the trimmed text. A history that already starts with these messages is left alone, so merging
twice is merging once.
-/

namespace Switchboard.Chat

inductive Layer where
  | system
  | developer
  | session
  | request
  deriving DecidableEq, Repr

def Layer.tag : Layer → String
  | system => "system"
  | developer => "developer"
  | session => "session"
  | request => "request"

def Layer.role : Layer → Role
  | system => .system
  | _ => .developer

namespace Layers

/-- The trimmed text, if anything is left of it. -/
def clean (text : Option String) : Option String :=
  text.bind fun s => if Text.allBlank s then none else some (Text.trim s)

def normalize (l : Layers) : Layers :=
  ⟨clean l.system, clean l.developer, clean l.session, clean l.request⟩

/-- The layers that are not blank, those closest to the request first. -/
def ordered (l : Layers) : List (Layer × String) :=
  [(Layer.request, l.request), (.session, l.session), (.developer, l.developer),
    (.system, l.system)].filterMap fun (layer, text) =>
      (text.filter fun s => !Text.allBlank s).map fun s => (layer, s)

def isEmpty (l : Layers) : Bool := l.ordered.isEmpty

/-- The messages that the layers stand for. -/
def messages (l : Layers) : List Message :=
  l.ordered.map fun (layer, s) => Message.ofText layer.role ("[" ++ layer.tag ++ "]\n" ++ s)

end Layers

namespace Request

/-- The request with its instruction layers trimmed and merged into the messages. -/
def normalize (r : Request) : Request :=
  match r.instructions with
  | none => r
  | some layers =>
    let layers := layers.normalize
    let added := layers.messages
    { r with
      instructions := some layers
      messages := if added.isPrefixOf r.messages then r.messages else added ++ r.messages }

@[simp] theorem normalize_model (r : Request) : r.normalize.model = r.model := by
  unfold normalize; split <;> rfl

@[simp] theorem normalize_requestId (r : Request) : r.normalize.requestId = r.requestId := by
  unfold normalize; split <;> rfl

@[simp] theorem normalize_correlationId (r : Request) :
    r.normalize.correlationId = r.correlationId := by
  unfold normalize; split <;> rfl

end Request
end Switchboard.Chat
