import Switchboard.Chat.Error
import Switchboard.Chat.Instructions
import Switchboard.Text.Case

/-!
# Routing

A model name is `provider/model`, split at its first slash with something on both sides. Providers
are found by their lower-cased id, so no two may share one. A routed request carries the bare model
name, both ids, generated where they were missing or blank, and its instructions merged in.
-/

namespace Switchboard.Chat

/-- The provider and the model of a name. -/
def splitModel (name : String) : Except ChatError (String × String) :=
  let cs := name.toList
  match cs.takeWhile (· != '/'), cs.dropWhile (· != '/') with
  | p :: ps, _ :: m :: ms => .ok (String.ofList (p :: ps), String.ofList (m :: ms))
  | _, _ => .error (.invalidModel name)

/-- Providers by id, in the order of their registration. -/
structure Registry (P : Type) where
  entries : List (String × P)

namespace Registry

variable {P : Type}

/-- The entry whose id equals `id` in lower case. -/
def find? (r : Registry P) (id : String) : Option (String × P) :=
  r.entries.find? fun e => Text.lower e.1 == Text.lower id

/-- Adds providers one after the other. -/
def add (r : Registry P) : List (String × P) → Except ChatError (Registry P)
  | [] => .ok r
  | (id, p) :: rest =>
    match r.find? id with
    | some _ => .error (.configuration ("duplicate provider id: " ++ id))
    | none => add ⟨r.entries ++ [(id, p)]⟩ rest

def ofList (providers : List (String × P)) : Except ChatError (Registry P) :=
  match add ⟨[]⟩ providers with
  | .ok r =>
    if r.entries.isEmpty then .error (.configuration "at least one provider must be configured")
    else .ok r
  | .error e => .error e

/-- The ids as they were registered, sorted. -/
def ids (r : Registry P) : List String := (r.entries.map (·.1)).mergeSort (· ≤ ·)

/-- An id that is missing or blank is replaced. -/
def keepOr (fresh : String) (id : Option String) : String :=
  match id with
  | some s => if Text.allBlank s then fresh else s
  | none => fresh

/-- The provider of a request, and the request as it is sent. The two fresh ids are used where the
request has none of its own. -/
def route (r : Registry P) (freshRequest freshCorrelation : String) (request : Request) :
    Except ChatError ((String × P) × Request) :=
  match splitModel request.model with
  | .error e => .error e
  | .ok (provider, model) =>
    match r.find? provider with
    | none => .error (.unknownProvider provider)
    | some entry =>
      let routed : Request := { request with
        model := model
        requestId := some (keepOr freshRequest request.requestId)
        correlationId := some (keepOr freshCorrelation request.correlationId) }
      .ok (entry, routed.normalize)

end Registry
end Switchboard.Chat
