import Switchboard.Auth.Header

/-!
# Credential strategies

A strategy puts credentials into the headers of a request: nothing, an API key, a bearer token, or
a list of custom fields. It replaces whatever its names held before. Keys and tokens are sensitive,
custom fields are not. A custom list names a header once, with its last value.
-/

namespace Switchboard.Auth

open Chat

inductive Strategy where
  | none
  | apiKey (field : Field)
  | bearer (value : HeaderValue)
  | custom (fields : List Field)
  deriving DecidableEq, Repr

def defaultKeyHeader : String := "X-Api-Key"

def bearerHeader : String := "authorization"

namespace Strategy

/-- The fields that the strategy sets. -/
def fields : Strategy → List Field
  | none => []
  | apiKey f => [f]
  | bearer v => [⟨bearerHeader, v⟩]
  | custom fs => fs

def apply (s : Strategy) (h : Headers) : Headers := h.setAll s.fields

/-- The name is checked before the key. -/
def ofApiKey (header key : String) : Except ChatError Strategy := do
  let name ← fieldName header
  let value ← secretValue key "API key"
  return apiKey ⟨name, value⟩

def ofBearer (token : String) : Except ChatError Strategy :=
  if Text.allBlank token then .error (.configuration "bearer token must not be blank")
  else (secretValue ("Bearer " ++ token) "bearer token").map bearer

/-- Puts a field over an earlier one of the same name, or at the end. -/
def putField (f : Field) : List Field → List Field
  | [] => [f]
  | g :: rest => if g.name = f.name then f :: rest else g :: putField f rest

/-- Adds the given pairs to the fields gathered so far. Of each pair the value is checked first. -/
def gather (fs : List Field) : List (String × String) → Except ChatError (List Field)
  | [] => .ok fs
  | (name, value) :: rest =>
    if validValue value then
      match fieldName name with
      | .ok n => gather (putField ⟨n, ⟨value, false⟩⟩ fs) rest
      | .error e => .error e
    else
      .error (.configuration
        ("invalid value for header '" ++ name ++ "': failed to parse header value"))

def ofPairs (pairs : List (String × String)) : Except ChatError Strategy :=
  match gather [] pairs with
  | .ok [] => .error (.configuration "custom headers must contain at least one entry")
  | .ok fs => .ok (custom fs)
  | .error e => .error e

end Strategy
end Switchboard.Auth
