import Switchboard.Chat.Error
import Switchboard.Text.Blank
import Switchboard.Text.Case

/-!
# Redaction

Replaces the values of credentials in a text before an observer sees it. A credential is a key, a
separator and a value, the value being a run of characters that are neither blank nor a comma nor a
semicolon. Three rules run one after the other over the whole text, each from left to right without
overlaps: bearer headers, and two lists of `key=value` names. Keys match in any letter case, by
simple case folding.
-/

namespace Switchboard.Redaction

open Text Chat

def placeholder : List Char := "[REDACTED]".toList

inductive Rule where
  /-- `authorization: bearer` and at least one blank before the value. -/
  | bearer
  /-- One of the names and `=`, with any blanks around it. -/
  | assignment (names : List String)
  deriving DecidableEq, Repr

def rules : List Rule :=
  [.bearer, .assignment ["apikey", "api_key", "api-key", "token", "secret", "password"],
    .assignment ["x-api-key", "access_token", "refresh_token"]]

/-- What follows `word` at the front of a text. -/
def afterWord : List Char → List Char → Option (List Char)
  | [], cs => some cs
  | _ :: _, [] => none
  | a :: word, c :: cs => if foldsTo a c then afterWord word cs else none

def afterChar (a : Char) : List Char → Option (List Char)
  | c :: cs => if c = a then some cs else none
  | [] => none

namespace Rule

/-- What follows the key of the rule. -/
def afterKey : Rule → List Char → Option (List Char)
  | bearer, cs => do
    let cs ← afterWord "authorization".toList cs
    let cs ← afterChar ':' (trimStart cs)
    afterWord "bearer".toList (trimStart cs)
  | assignment names, cs => names.findSome? fun name => afterWord name.toList cs

/-- What follows the separator of the rule: the value, if there is one. -/
def afterSeparator : Rule → List Char → Option (List Char)
  | bearer, c :: cs => if isBlank c then some (trimStart cs) else none
  | bearer, [] => none
  | assignment _, cs => (afterChar '=' (trimStart cs)).map trimStart

def shown : Rule → List Char
  | bearer => ' ' :: placeholder
  | assignment _ => '=' :: placeholder

end Rule

def isValueChar (c : Char) : Bool := !isBlank c && c != ',' && c != ';'

/-- A credential at the front of a text: its key as written and how long all of it is. -/
structure Match where
  key : List Char
  length : Nat
  deriving DecidableEq, Repr

namespace Rule

def matchAt (r : Rule) (cs : List Char) : Option Match := do
  let afterKey ← r.afterKey cs
  let value ← r.afterSeparator afterKey
  let rest := value.dropWhile isValueChar
  if rest.length < value.length then
    some ⟨cs.take (cs.length - afterKey.length), cs.length - rest.length⟩
  else none

/-- Whether the rule finds a credential anywhere. -/
def occursIn (r : Rule) : List Char → Bool
  | [] => false
  | c :: cs => (r.matchAt (c :: cs)).isSome || occursIn r cs

/-- Replaces the values that the rule finds, after `skip` characters that were dealt with. -/
def replaceFrom (r : Rule) : Nat → List Char → List Char
  | _, [] => []
  | skip + 1, _ :: cs => replaceFrom r skip cs
  | 0, c :: cs =>
    match r.matchAt (c :: cs) with
    | some m => m.key ++ r.shown ++ replaceFrom r (m.length - 1) cs
    | none => c :: replaceFrom r 0 cs

def replace (r : Rule) (cs : List Char) : List Char := r.replaceFrom 0 cs

theorem replaceFrom_of_not_occursIn {r : Rule} {cs : List Char} (h : r.occursIn cs = false) :
    r.replaceFrom 0 cs = cs := by
  induction cs with
  | nil => rfl
  | cons c cs ih =>
    simp only [occursIn, Bool.or_eq_false_iff, Option.isSome_eq_false_iff,
      Option.isNone_iff_eq_none] at h
    simp [replaceFrom, h.1, ih h.2]

end Rule

/-- Runs rules in order; the flag tells whether any of them found something. -/
def redactWith (rs : List Rule) (cs : List Char) : Bool × List Char :=
  rs.foldl (fun (found, cs) r => (found || r.occursIn cs, r.replace cs)) (false, cs)

def redactChars (cs : List Char) : Bool × List Char := redactWith rules cs

def redact (s : String) : Bool × String :=
  let (found, cs) := redactChars s.toList
  (found, String.ofList cs)

/-- The error as observers see it, and whether a secret was found in it. -/
def redactError (e : ChatError) : Bool × ChatError :=
  match e.detail with
  | none => (false, e)
  | some s =>
    match redact s with
    | (true, clean) => (true, e.withDetail clean)
    | (false, _) => (false, e)

theorem kind_redactError (e : ChatError) : (redactError e).2.kind = e.kind := by
  unfold redactError
  split
  · rfl
  · split <;> simp

end Switchboard.Redaction
