import Switchboard.Chat.Error
import Switchboard.Text.Blank

/-!
# Headers

A header map holds fields in the order in which they were added; names are kept in lower case.
Setting a field removes every value that its name had. A name is trimmed and must be a token of at
most `maxName` characters; a value holds no control character but the tab.
-/

namespace Switchboard.Auth

open Chat

structure HeaderValue where
  text : String
  sensitive : Bool := false
  deriving DecidableEq, Repr

/-- A field: a name in lower case and one of its values. -/
structure Field where
  name : String
  value : HeaderValue
  deriving DecidableEq, Repr

abbrev Headers := List Field

namespace Headers

def append (h : Headers) (f : Field) : Headers := h ++ [f]

/-- Replaces all values of the name. -/
def set (h : Headers) (f : Field) : Headers := h.filter (·.name != f.name) ++ [f]

def setAll (h : Headers) (fs : List Field) : Headers := fs.foldl set h

/-- The values of a name, in order. -/
def valuesOf (h : Headers) (name : String) : List HeaderValue :=
  (h.filter (·.name == name)).map (·.value)

/-- The fields by name; several values of one name keep their order. -/
def sorted (h : Headers) : Headers := h.mergeSort fun a b => a.name ≤ b.name

theorem valuesOf_set_self (h : Headers) (f : Field) : (set h f).valuesOf f.name = [f.value] := by
  simp [set, valuesOf, List.filter_append, List.filter_filter]

theorem valuesOf_set_of_ne (h : Headers) {f : Field} {name : String} (hn : f.name ≠ name) :
    (set h f).valuesOf name = h.valuesOf name := by
  have hsame : (h.filter (·.name != f.name)).filter (·.name == name) =
      h.filter (·.name == name) := by
    rw [List.filter_filter]
    refine List.filter_congr fun x _ => ?_
    by_cases hx : x.name = name
    · simp [hx, Ne.symm hn]
    · simp [hx]
  simp [set, valuesOf, List.filter_append, hsame, hn]

end Headers

def isValueChar (c : Char) : Bool := (0x20 ≤ c.toNat && c.toNat != 0x7F) || c == '\t'

def validValue (s : String) : Bool := s.toList.all isValueChar

/-- The signs that a token may hold besides letters and digits. -/
def tokenSigns : List Char := "!#$%&'*+-.^_`|~".toList

def isTokenChar (c : Char) : Bool := c.isAlphanum || tokenSigns.contains c

/-- The longest name. -/
def maxName : Nat := 65535

def validName (s : String) : Bool :=
  let cs := s.toList
  !cs.isEmpty && cs.all isTokenChar && cs.length ≤ maxName

/-- The name of a field as it is kept. -/
def fieldName (name : String) : Except ChatError String :=
  if Text.allBlank name then .error (.configuration "header name must not be blank")
  else if validName (Text.trim name) then .ok (Text.trim name).toLower
  else
    .error (.configuration
      ("invalid header name '" ++ name ++ "': invalid HTTP header name"))

/-- A secret as a header value; `what` names it in errors. -/
def secretValue (secret what : String) : Except ChatError HeaderValue :=
  if Text.allBlank secret then .error (.configuration (what ++ " must not be blank"))
  else if validValue secret then .ok ⟨secret, true⟩
  else .error (.configuration (what ++ " is not a valid header value"))

end Switchboard.Auth
