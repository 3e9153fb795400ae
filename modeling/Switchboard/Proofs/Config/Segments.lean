import Switchboard.Config.Expansion

/-!
# Texts with holes

The placeholders of a text do not depend on the environment: `segments` takes a text apart into
characters that stay and placeholders, and expanding is filling these in from left to right
(`expandChars_eq_fill`). So a variable matters to nothing but the placeholders that name it
(`fill_of_unnamed`).
-/

namespace Switchboard.Config

inductive Segment where
  | char (c : Char)
  | hole (p : Placeholder)
  deriving DecidableEq, Repr

/-- The segments of a line after `skip` characters that belong to a placeholder before. -/
def segmentsFrom : Nat → List Char → List Segment
  | _, [] => []
  | skip + 1, _ :: cs => segmentsFrom skip cs
  | 0, c :: cs =>
    match placeholderAt (c :: cs) with
    | none => .char c :: segmentsFrom 0 cs
    | some p => .hole p :: segmentsFrom (cs.length - p.rest.length) cs

def lineSegments (line : List Char) : List Segment :=
  if isComment line then line.map .char else segmentsFrom 0 line

/-- The segments of lines that are joined by line feeds. -/
def joinSegments : List (List Char) → List Segment
  | [] => []
  | [line] => lineSegments line
  | line :: rest => lineSegments line ++ .char '\n' :: joinSegments rest

def segments (cs : List Char) : List Segment :=
  joinSegments (lines cs) ++ if cs.getLast? = some '\n' then [.char '\n'] else []

/-- The text that segments stand for, or the error of the first placeholder that has none. -/
def fill (env : Environment) : List Segment → Except ExpansionError (List Char)
  | [] => .ok []
  | .char c :: rest => (fill env rest).map (c :: ·)
  | .hole p :: rest =>
    match resolve env p with
    | .error e => .error e
    | .ok value => (fill env rest).map (value ++ ·)

/-- The placeholder names the variable. -/
def Placeholder.names (p : Placeholder) (name : String) : Prop :=
  variableOf? p.key = some name.toList

instance (p : Placeholder) (name : String) : Decidable (p.names name) :=
  inferInstanceAs (Decidable (variableOf? p.key = some name.toList))

/-- No placeholder names the variable. -/
def Unnamed (name : String) (segs : List Segment) : Prop :=
  ∀ p, .hole p ∈ segs → ¬ p.names name

section
variable {env : Environment} {a b : List Segment} {s t : List Char}

theorem fill_append (env : Environment) (a b : List Segment) :
    fill env (a ++ b) = fill env a >>= fun s => (fill env b).map (s ++ ·) := by
  induction a with
  | nil => cases h : fill env b <;> simp [fill, h, bind, Except.bind, Except.map]
  | cons seg a ih =>
    cases seg with
    | char c =>
      rw [List.cons_append, fill, fill, ih]
      cases fill env a <;> cases fill env b <;> rfl
    | hole p =>
      rw [List.cons_append, fill, fill, ih]
      cases resolve env p with
      | error e => rfl
      | ok value => cases fill env a <;> cases fill env b <;> simp [bind, Except.bind, Except.map]

theorem fill_chars (env : Environment) (cs : List Char) : fill env (cs.map .char) = .ok cs := by
  induction cs with
  | nil => rfl
  | cons c cs ih => rw [List.map_cons, fill, ih]; rfl

theorem expandFrom_eq_fill (env : Environment) (skip : Nat) (cs : List Char) :
    expandFrom env skip cs = fill env (segmentsFrom skip cs) := by
  fun_induction segmentsFrom skip cs with
  | case1 => simp [expandFrom, fill]
  | case2 skip c cs ih => rw [expandFrom, ih]
  | case3 c cs hp ih => rw [expandFrom, hp, fill, ih]
  | case4 c cs p hp ih =>
    rw [expandFrom, hp, fill]
    dsimp only
    cases resolve env p with
    | error e => rfl
    | ok value => exact congrArg (Except.map (value ++ ·)) ih

theorem expandLine_eq_fill (env : Environment) (line : List Char) :
    expandLine env line = fill env (lineSegments line) := by
  unfold expandLine lineSegments
  split
  · rw [fill_chars]
  · rw [expandFrom_eq_fill]

theorem fill_joinSegments (env : Environment) :
    ∀ ls, fill env (joinSegments ls) = (ls.mapM (expandLine env)).map unlines
  | [] => rfl
  | [line] => by
    rw [joinSegments, ← expandLine_eq_fill, List.mapM_cons, List.mapM_nil]
    cases expandLine env line <;> rfl
  | line :: next :: rest => by
    have hrest := fill_joinSegments env (next :: rest)
    rw [List.mapM_cons] at hrest
    rw [joinSegments, fill_append, ← expandLine_eq_fill, fill, hrest, List.mapM_cons,
      List.mapM_cons]
    · cases expandLine env line with
      | error e => rfl
      | ok l =>
        cases expandLine env next with
        | error e => rfl
        | ok m => cases rest.mapM (expandLine env) <;> rfl
    · nofun

/-- Expanding a text is filling its holes. -/
theorem expandChars_eq_fill (env : Environment) (cs : List Char) :
    expandChars env cs = fill env (segments cs) := by
  have hend : fill env (if cs.getLast? = some '\n' then [.char '\n'] else []) =
      .ok (if cs.getLast? = some '\n' then ['\n'] else []) := by split <;> rfl
  rw [expandChars, segments, fill_append, fill_joinSegments, hend]
  cases (lines cs).mapM (expandLine env) <;> rfl

/-! ## One variable -/

theorem get?_cons_self (env : Environment) (name : String) (o : Option String) :
    Environment.get? ((name, o) :: env) name = o := by
  simp [Environment.get?]

theorem get?_cons_of_ne {name other : String} (h : other ≠ name) (o : Option String) :
    Environment.get? ((name, o) :: env) other = env.get? other := by
  have hne : (other == name) = false := beq_eq_false_iff_ne.2 h
  rw [Environment.get?, List.lookup_cons, hne]
  rfl

theorem resolve_of_not_names {name : String} {p : Placeholder} (o : Option String)
    (h : ¬ p.names name) : resolve ((name, o) :: env) p = resolve env p := by
  unfold resolve
  split
  · rfl
  · next var hvar =>
    have hne : String.ofList var ≠ name := by
      rintro rfl
      exact h (by rw [Placeholder.names, hvar, String.toList_ofList])
    rw [get?_cons_of_ne hne]

theorem resolve_of_names {name : String} {p : Placeholder} (value : String) (h : p.names name) :
    resolve ((name, some value) :: env) p = .ok value.toList := by
  rw [resolve, h]
  simp only [String.ofList_toList, get?_cons_self]

theorem unnamed_chars (name : String) (cs : List Char) : Unnamed name (cs.map .char) := by
  intro p hp
  simp at hp

/-- A variable that no placeholder names does not matter. -/
theorem fill_of_unnamed {name : String} (o : Option String) (h : Unnamed name a) :
    fill ((name, o) :: env) a = fill env a := by
  induction a with
  | nil => rfl
  | cons seg a ih =>
    have ih := ih fun p hp => h p (List.mem_cons_of_mem _ hp)
    cases seg with
    | char c => rw [fill, fill, ih]
    | hole p => rw [fill, fill, ih, resolve_of_not_names o (h p List.mem_cons_self)]

/-- The value of a variable that one placeholder names stands at its place. -/
theorem fill_of_named_once {name : String} {p : Placeholder} (value : String) (hp : p.names name)
    (ha : Unnamed name a) (hb : Unnamed name b) (hs : fill env a = .ok s)
    (ht : fill env b = .ok t) :
    fill ((name, some value) :: env) (a ++ .hole p :: b) = .ok (s ++ value.toList ++ t) := by
  have hfront : fill ((name, some value) :: env) a = .ok s := by rw [fill_of_unnamed _ ha, hs]
  rw [fill_append, hfront, fill, resolve_of_names value hp, fill_of_unnamed _ hb, ht,
    List.append_assoc]
  rfl

end

end Switchboard.Config
