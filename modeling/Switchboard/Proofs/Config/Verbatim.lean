import Switchboard.Proofs.Config.Segments
import Switchboard.Proofs.Config.Slot
import Switchboard.Proofs.Toml.Inside

/-!
# Values of variables in strings

Placeholders are filled in before a configuration is read as TOML, so a value becomes a part of the
document and not of a string. It stands verbatim in the settings if all its characters stand for
themselves in a string (`value_stands_verbatim`); a quotation mark, for one, ends the string around
the placeholder.
-/

namespace Switchboard.Config

open Toml (LeadsTo Plain Spells Step)

/-- A text names a variable once, in a string that stands at a path of the document. -/
structure Mention (env : Environment) (name text : String) where
  before : List Segment
  hole : Placeholder
  after : List Segment
  segments_eq : segments text.toList = before ++ .hole hole :: after
  named : hole.names name
  unnamed_before : Unnamed name before
  unnamed_after : Unnamed name after
  /-- what stands in front of the string, and in it on both sides of the placeholder -/
  front : List Char
  left : List Char
  right : List Char
  rest : List Char
  fill_before : fill env before = .ok (front ++ '"' :: left)
  fill_after : fill env after = .ok (right ++ '"' :: rest)
  /-- what the two sides read -/
  leading : List Char
  trailing : List Char
  spells_left : Spells left leading
  spells_right : Spells right trailing
  path : List Step
  leadsTo : LeadsTo ('"' :: (left ++ ("x".toList ++ (right ++ '"' :: rest)))) (.statements [] [])
    (Toml.dropByteOrderMark (front ++ '"' :: (left ++ ("x".toList ++ (right ++ '"' :: rest))))) path

/-- The whole string when a value stands at the place of the variable. -/
def Mention.around {env : Environment} {name text : String} (m : Mention env name text)
    (value : String) : String :=
  String.ofList (m.leading ++ (value.toList ++ m.trailing))

section
variable {env : Environment} {name text : String} {s : Settings}

theorem bind_eq_ok {ε α β : Type} {x : Except ε α} {f : α → Except ε β} {b : β} :
    x >>= f = .ok b ↔ ∃ a, x = .ok a ∧ f a = .ok b := by
  cases x <;> simp [bind, Except.bind]

theorem expand_eq_ok {t : String} : (expand env text).mapError ConfigError.expansion = .ok t ↔
    ∃ cs, expandChars env text.toList = .ok cs ∧ t = String.ofList cs := by
  unfold expand
  cases expandChars env text.toList <;> simp [Except.map, Except.mapError, eq_comm]

theorem parse_eq_ok : Settings.parse env text = .ok s ↔
    ∃ cs tree, expandChars env text.toList = .ok cs ∧ Toml.parse? cs = some tree ∧
      Settings.reader 0 tree = some s ∧ s.validate = .ok () := by
  rw [Settings.parse, bind_eq_ok]
  constructor
  · rintro ⟨t, ht, h⟩
    obtain ⟨cs, hcs, rfl⟩ := expand_eq_ok.1 ht
    rw [String.toList_ofList] at h
    cases hs : Toml.parse? cs >>= Settings.reader 0 with
    | none =>
      rw [hs] at h
      cases h
    | some s' =>
      rw [hs] at h
      obtain ⟨_, hvalid, h⟩ := bind_eq_ok.1 h
      cases h
      obtain ⟨tree, htree, hs⟩ := Option.bind_eq_some_iff.1 hs
      exact ⟨cs, tree, hcs, htree, hs, hvalid⟩
  · rintro ⟨cs, tree, hcs, htree, hs, hvalid⟩
    refine ⟨_, expand_eq_ok.2 ⟨cs, hcs, rfl⟩, ?_⟩
    have hread : Toml.parse? cs >>= Settings.reader 0 = some s :=
      Option.bind_eq_some_iff.2 ⟨tree, htree, hs⟩
    rw [String.toList_ofList, hread]
    exact bind_eq_ok.2 ⟨(), hvalid, rfl⟩

/-- The text with the variable's value in the string. -/
theorem Mention.expandChars_eq (m : Mention env name text) (value : String) :
    expandChars ((name, some value) :: env) text.toList =
      .ok (m.front ++ '"' :: (m.left ++ (value.toList ++ (m.right ++ '"' :: m.rest)))) := by
  rw [expandChars_eq_fill, m.segments_eq, fill_of_named_once value m.named m.unnamed_before
    m.unnamed_after m.fill_before m.fill_after]
  simp only [List.append_assoc, List.cons_append]

/-- A value whose characters stand for themselves stands in the setting as it is, and changes
nothing else. -/
theorem value_stands_verbatim (m : Mention env name text) {server : String} {slot : Slot}
    (hslot : slotOf? m.path = some (server, slot))
    (h : Settings.parse ((name, some "x") :: env) text = .ok s) :
    s.textAt? server slot = some (m.around "x") ∧ ∀ value : String, Plain value.toList →
      Settings.parse ((name, some value) :: env) text =
        .ok (s.withText server slot (m.around value)) := by
  obtain ⟨cs, tree, hcs, htree, hs, hvalid⟩ := parse_eq_ok.1 h
  rw [m.expandChars_eq] at hcs
  cases hcs
  -- one exchange serves for `x` itself and for every other value
  have hswap {v : List Char} (hv : Plain v) := Toml.parse?_inside m.spells_left m.spells_right
    (by decide) (by decide) m.leadsTo htree hv
  constructor
  · obtain ⟨tree', _, hswap⟩ := hswap (v := "x".toList) (by decide)
    exact (settings_follow hslot hswap hs).1
  · intro value hvalue
    obtain ⟨tree', htree', hswap⟩ := hswap hvalue
    refine parse_eq_ok.2 ⟨_, tree', m.expandChars_eq value, htree', ?_, ?_⟩
    · exact (settings_follow hslot hswap hs).2
    · rw [validate_withText]
      exact hvalid

end

/-- An argument of a command that comes from a variable. -/
def argumentText : String :=
  "mcp.servers.d = \x7bargs = [\"--key=\x7b\x7b env.KEY \x7d\x7d\"], command = \"c\"\x7d"

def argumentMention : Mention [] "KEY" argumentText where
  before := "mcp.servers.d = \x7bargs = [\"--key=".toList.map .char
  hole := ⟨"env.KEY".toList, none, "\"], command = \"c\"\x7d".toList⟩
  after := "\"], command = \"c\"\x7d".toList.map .char
  segments_eq := by rfl
  named := by decide
  unnamed_before := unnamed_chars _ _
  unnamed_after := unnamed_chars _ _
  front := "mcp.servers.d = \x7bargs = [".toList
  left := "--key=".toList
  right := []
  rest := "], command = \"c\"\x7d".toList
  fill_before := fill_chars ..
  fill_after := fill_chars ..
  leading := "--key=".toList
  trailing := []
  spells_left := by decide
  spells_right := by decide
  path := [.key "mcp", .key "servers", .key "d", .key "args", .index 0]
  leadsTo := by
    show LeadsTo _ _ _ (Toml.locate ([] ++ ["mcp", "servers", "d"]) [] ++
      (Toml.locate ["args"] [] ++ [.index 0]))
    exact .line 4 rfl rfl (.braces (.entry 2 rfl rfl (.array (.item rfl .here))))

/-- What the text says with an argument in place of the string. -/
def argumentSettings (argument : String) : Settings :=
  { servers := [("d", { command := "c", args := [argument] })] }

theorem argument_parses :
    Settings.parse [("KEY", some "x")] argumentText = .ok (argumentSettings "--key=x") := by
  decide +kernel

theorem argument_stands_verbatim :
    slotOf? argumentMention.path = some ("d", .argument 0) ∧
      Settings.parse [("KEY", some "x")] argumentText = .ok (argumentSettings "--key=x") ∧
      Settings.parse [("KEY", some "a # b")] argumentText =
        .ok (argumentSettings "--key=a # b") := by
  have hslot : slotOf? argumentMention.path = some ("d", .argument 0) := by decide
  have hplain : Plain "a # b".toList := by decide
  exact ⟨hslot, argument_parses,
    (value_stands_verbatim argumentMention hslot argument_parses).2 "a # b" hplain⟩

/-- Not every value stands verbatim: one that ends the string leaves no document. -/
theorem some_value_ends_string : ¬ ∀ (env : Environment) (name text : String)
    (m : Mention env name text) (server : String) (slot : Slot) (s : Settings) (value : String),
    slotOf? m.path = some (server, slot) →
    Settings.parse ((name, some "x") :: env) text = .ok s →
      Settings.parse ((name, some value) :: env) text =
        .ok (s.withText server slot (m.around value)) := by
  intro h
  have hok := h [] "KEY" argumentText argumentMention "d" (.argument 0) _ "\"" (by decide)
    argument_parses
  have hbad : Settings.parse [("KEY", some "\"")] argumentText = .error .malformed := by
    decide +kernel
  rw [hbad] at hok
  cases hok

/-- A value may also end the string and begin another. -/
example : Settings.parse [("V", some "a\", \"b")]
      "mcp.servers.d = \x7bargs = [\"\x7b\x7benv.V\x7d\x7d\"], command = \"c\"\x7d" =
    .ok { servers := [("d", { command := "c", args := ["a", "b"] })] } := by
  decide +kernel

/-- Behind a backslash a value is part of an escape. -/
example : (["x", "q"].map fun value => Settings.parse [("V", some value)]
      "mcp.servers.d = \x7bargs = [\"\\\x7b\x7benv.V\x7d\x7d41\"], command = \"c\"\x7d") =
    [.ok { servers := [("d", { command := "c", args := ["A"] })] }, .error .malformed] := by
  decide +kernel

end Switchboard.Config
