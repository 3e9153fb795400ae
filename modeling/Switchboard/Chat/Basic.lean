import Switchboard.Json.Basic

/-!
# Chat messages

A request names its target as `provider/model` and carries messages, each a role and a list of
parts. Instruction layers ride beside the messages until they are merged in. A response is one
message; a stream is a sequence of deltas that ends with a terminal one. Responses and deltas carry
the identity of the call that they answer.
-/

namespace Switchboard.Chat

inductive Role where
  | system
  | developer
  | user
  | assistant
  | tool
  deriving DecidableEq, Repr

inductive Part where
  | text (text : String)
  | image (mimeType : String) (data : List UInt8) (fileName : Option String)
  | file (mimeType : String) (fileName : String) (data : List UInt8)
  | toolCall (name : String) (arguments : Json) (callId : String)
  | toolResult (callId : String) (result : Json) (isError : Bool)
  deriving DecidableEq, Repr

structure Message where
  role : Role
  parts : List Part
  deriving DecidableEq, Repr

def Part.text? : Part → Option String
  | .text t => some t
  | _ => none

def Message.ofText (role : Role) (text : String) : Message := ⟨role, [.text text]⟩

/-- The text parts joined. -/
def Message.asText (m : Message) : String := String.join (m.parts.filterMap Part.text?)

/-- Instructions by where they come from. -/
structure Layers where
  system : Option String := none
  developer : Option String := none
  session : Option String := none
  request : Option String := none
  deriving DecidableEq, Repr

structure Request where
  model : String
  messages : List Message
  instructions : Option Layers := none
  requestId : Option String := none
  correlationId : Option String := none
  deriving DecidableEq, Repr

structure Usage where
  inputTokens : Nat
  outputTokens : Nat
  totalTokens : Nat
  deriving DecidableEq, Repr

/-- The identity of one call, shared by all its attempts. -/
structure Identity where
  requestId : String
  correlationId : String
  provider : String
  model : String
  deriving DecidableEq, Repr

/-- The identity that a provider leaves blank. -/
def Identity.blank : Identity := ⟨"", "", "", ""⟩

/-- The identity of a routed request, which has both ids. -/
def Request.identity (provider : String) (r : Request) : Identity :=
  ⟨r.requestId.getD "", r.correlationId.getD "", provider, r.model⟩

structure Response where
  identity : Identity
  message : Message
  usage : Option Usage := none
  deriving DecidableEq, Repr

structure Delta where
  identity : Identity
  delta : String
  isFinal : Bool
  deriving DecidableEq, Repr

/-- A piece of text that does not end the stream. -/
def Delta.fragment (text : String) : Delta := ⟨.blank, text, false⟩

def Delta.terminal : Delta := ⟨.blank, "", true⟩

def Response.stamp (i : Identity) (r : Response) : Response := { r with identity := i }

def Delta.stamp (i : Identity) (d : Delta) : Delta := { d with identity := i }

end Switchboard.Chat
