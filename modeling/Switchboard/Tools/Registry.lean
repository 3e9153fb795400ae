import Switchboard.Tools.Error

/-!
# Tool servers

A `Server` says how to start a tool server and how to introduce oneself to it. A `Registry` holds
servers by name in the order in which the names were first given; giving a name again replaces the
server and keeps the place.
-/

namespace Switchboard.Tools

structure Server where
  command : String
  args : List String := []
  /-- The directory it runs in. -/
  cwd : Option String := none
  /-- What is added to the environment. -/
  env : List (String × String) := []
  requestTimeout : Nat := Duration.ofSecs 15
  clientName : String := "multillm-mcp-client"
  clientVersion : String := "0.1.0"
  protocolVersion : String := "2024-11-05"
  deriving DecidableEq, Repr

/-- Gives `key` a value at the place that it has, or else at the end. -/
def assign {α : Type} (key : String) (v : α) : List (String × α) → List (String × α)
  | [] => [(key, v)]
  | (k, w) :: rest => if k = key then (k, v) :: rest else (k, w) :: assign key v rest

/-- The pairs with one value for each key, the last one. -/
def assignAll {α : Type} (pairs : List (String × α)) : List (String × α) :=
  pairs.foldl (fun acc p => assign p.1 p.2 acc) []

structure Registry where
  servers : List (String × Server)
  deriving DecidableEq, Repr

namespace Registry

def ofList (servers : List (String × Server)) : Registry := ⟨assignAll servers⟩

def insert (name : String) (s : Server) (r : Registry) : Registry := ⟨assign name s r.servers⟩

def names (r : Registry) : List String := r.servers.map (·.1)

def get (r : Registry) (name : String) : Except ToolError Server :=
  match r.servers.lookup name with
  | some s => .ok s
  | none => .error (.serverNotFound name)

end Registry

end Switchboard.Tools
