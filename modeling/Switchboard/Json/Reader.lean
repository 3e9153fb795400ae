import Switchboard.Json.Tree

/-!
# Reading records

A `Reader` takes a value from the tree that writes it, given how many brackets are open around
it. A record is read from an object, whose unknown members are skipped unread and whose known
members must not repeat, or from an array of its fields in their order, of which trailing ones may
be missing. `null` for an optional field means that it is absent.
-/

namespace Switchboard.Json

abbrev Reader (α : Type) := Nat → Tree → Option α

namespace Reader

/-- A free-form value. -/
def value : Reader Json := fun depth t =>
  if depth + t.depth ≤ Tree.maxDepth then t.value? else none

def text : Reader String
  | _, .str s => s
  | _, _ => none

def flag : Reader Bool
  | _, .bool b => some b
  | _, _ => none

/-- A natural number below `bound`. -/
def below (bound : Nat) : Reader Nat
  | _, .num (some (.int n)) => if 0 ≤ n ∧ n.toNat < bound then some n.toNat else none
  | _, _ => none

def optional {α : Type} (read : Reader α) : Reader (Option α)
  | _, .null => some none
  | depth, t => (read depth t).map some

def list {α : Type} (read : Reader α) : Reader (List α)
  | depth, .arr items =>
    if depth < Tree.maxDepth then items.mapM (read (depth + 1)) else none
  | _, _ => none

/-- The member called `name`: `none` inside if there is none, no answer if it repeats. -/
def member (name : String) (members : List (Option String × Tree)) : Option (Option Tree) :=
  match members.filter fun m => m.1 == some name with
  | [] => some none
  | [(_, t)] => some (some t)
  | _ => none

/-- The trees of a record's fields, in the order of their names. -/
def fieldsOf (names : List String) : Tree → Option (List (Option Tree))
  | .obj members =>
    if members.all fun m => m.1.isSome then names.mapM fun name => member name members else none
  | .arr items =>
    if items.length ≤ names.length then
      some (items.map some ++ List.replicate (names.length - items.length) none)
    else none
  | _ => none

def fields (names : List String) : Reader (List (Option Tree)) := fun depth t =>
  if depth < Tree.maxDepth then fieldsOf names t else none

/-- A field that must be there. -/
def required {α : Type} (read : Reader α) (depth : Nat) : Option Tree → Option α
  | some t => read depth t
  | none => none

/-- A field that is `fallback` when missing. -/
def orElse {α : Type} (read : Reader α) (fallback : α) (depth : Nat) : Option Tree → Option α
  | some t => read depth t
  | none => some fallback

/-- A field that may be missing or `null`. -/
def maybe {α : Type} (read : Reader α) : Nat → Option Tree → Option (Option α) :=
  orElse (optional read) none

/-- Reads a whole text. -/
def ofText? {α : Type} (read : Reader α) (s : String) : Option α :=
  Tree.parse? s.toList >>= read 0

/-- Reads a value that was read before. -/
def ofJson? {α : Type} (read : Reader α) (v : Json) : Option α := read 0 v.toTree

end Reader
end Switchboard.Json
