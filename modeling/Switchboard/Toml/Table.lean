import Switchboard.Json.Tree

/-!
# Building tables

A TOML document names tables in several ways: as a value in braces, by a header, on the way to a
deeper header, or on the way along a dotted key. `Origin` remembers which, because it decides what
may still be added. No member is ever given twice; a table in braces is complete; a header may open
a table that only deeper headers have named so far; a dotted key adds to tables that dotted keys
made. `[[name]]` appends an element, and what follows belongs to the last one.
-/

namespace Switchboard.Toml

inductive Origin where
  | braces
  | header
  | onHeaderPath
  | onKeyPath
  deriving DecidableEq, Repr

inductive Node where
  | text (s : String)
  | integer (n : Int)
  | flag (b : Bool)
  | array (items : List Node)
  | table (origin : Origin) (members : List (String × Node))
  /-- An array whose elements are opened by headers. -/
  | elements (earlier : List (List (String × Node))) (last : List (String × Node))

/-- The members of a table in the order in which they were named. -/
abbrev Members := List (String × Node)

namespace Members

/-- Gives the member called `key` what `f` makes of it; `f` also decides about a new one. -/
def alter (key : String) (f : Option Node → Option Node) : Members → Option Members
  | [] => (f none).map fun v => [(key, v)]
  | (k, v) :: rest =>
    if k = key then (f (some v)).map fun w => (k, w) :: rest
    else (alter key f rest).map ((k, v) :: ·)

/-- Adds a value under a dotted key. -/
def put (v : Node) : List String → Members → Option Members
  | [], _ => none
  | [key], members => members.alter key fun
    | none => some v
    | some _ => none
  | key :: path, members => members.alter key fun
    | none => (put v path []).map (.table .onKeyPath)
    | some (.table .onKeyPath inner) => (put v path inner).map (.table .onKeyPath)
    | some (.table .onHeaderPath inner) =>
      if path.length = 1 then none else (put v path inner).map (.table .onHeaderPath)
    | some (.elements earlier last) =>
      if path.length = 1 then none else (put v path last).map (.elements earlier)
    | some _ => none

/-- Changes the table that a header path leads to; tables on the way come into being. -/
def descend (f : Members → Option Members) : List String → Members → Option Members
  | [], members => f members
  | key :: path, members => members.alter key fun
    | none => (descend f path []).map (.table .onHeaderPath)
    | some (.table .braces _) => none
    | some (.table origin inner) => (descend f path inner).map (.table origin)
    | some (.elements earlier last) => (descend f path last).map (.elements earlier)
    | some _ => none

/-- What `[path]` does. -/
def openTable (path : List String) (members : Members) : Option Members :=
  match path.getLast? with
  | none => none
  | some key => members.descend (fun inner => inner.alter key fun
    | none => some (.table .header [])
    | some (.table .onHeaderPath inner) => some (.table .header inner)
    | some _ => none) path.dropLast

/-- What `[[path]]` does. -/
def openElement (path : List String) (members : Members) : Option Members :=
  match path.getLast? with
  | none => none
  | some key => members.descend (fun inner => inner.alter key fun
    | none => some (.elements [] [])
    | some (.elements earlier last) => some (.elements (earlier ++ [last]) [])
    | some _ => none) path.dropLast

end Members

def objectOf (members : List (String × Tree)) : Tree :=
  .obj (members.map fun m => (some m.1, m.2))

mutual

/-- A value as a tree with the members of every table sorted by key. -/
def Node.toTree : Node → Tree
  | .text s => .str (some s)
  | .integer n => .num (some (.int n))
  | .flag b => .bool b
  | .array items => .arr (treesOf items)
  | .table _ members => objectOf (memberTrees members)
  | .elements earlier last => .arr (elementTrees earlier ++ [objectOf (memberTrees last)])

def treesOf : List Node → List Tree
  | [] => []
  | v :: rest => v.toTree :: treesOf rest

def elementTrees : List (List (String × Node)) → List Tree
  | [] => []
  | members :: rest => objectOf (memberTrees members) :: elementTrees rest

def memberTrees : List (String × Node) → List (String × Tree)
  | [] => []
  | (k, v) :: rest => Json.insertMember k v.toTree (memberTrees rest)

end

end Switchboard.Toml
