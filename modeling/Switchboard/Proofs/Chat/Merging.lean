import Switchboard.Proofs.Chat.Routed

/-!
# Layers in front of a history

What merging does to a request, told from its layers as they were given. A layer is present when
something is left of it after trimming (`Layers.present?`), and every present layer stands for one
message (`Layers.rendered`). A history that begins with just these messages is left alone; any
other, also one that has some of them, or all in another order, gets them all in front. Either way
the history that was there is the end of the one that comes out (`messages_suffix_normalize`).
-/

namespace Switchboard.Text

theorem trimStart_eq_nil_iff {cs : List Char} : trimStart cs = [] ↔ ∀ c ∈ cs, isBlank c := by
  simp [trimStart]

theorem trim_eq_empty_iff {s : String} : trim s = "" ↔ allBlank s = true := by
  rw [trim, String.ofList_eq_empty_iff, allBlank, List.all_eq_true]
  constructor
  · intro h
    obtain ⟨left, right, hleft, hright, he⟩ := exists_around_trimChars s.toList
    rw [h, List.append_nil] at he
    rw [he]
    exact fun c hc => (List.mem_append.1 hc).elim (hleft c) (hright c)
  · intro h
    rw [trimChars, trimStart_eq_nil_iff.2 h]
    rfl

end Switchboard.Text

namespace Switchboard.Chat

/-! ## What layers stand for -/

/-- The layers in the order of their messages. -/
def Layer.order : List Layer := [.request, .session, .developer, .system]

/-- The message of a layer: its tag in brackets and, on the next line, its text. -/
def Layer.render (layer : Layer) (text : String) : Message :=
  ⟨if layer = .system then .system else .developer, [.text ("[" ++ layer.tag ++ "]\n" ++ text)]⟩

theorem Layer.render_eq (layer : Layer) (text : String) : layer.render text =
    Message.ofText layer.role ("[" ++ layer.tag ++ "]\n" ++ text) := by
  cases layer <;> rfl

namespace Layers

def text (l : Layers) : Layer → Option String
  | .system => l.system
  | .developer => l.developer
  | .session => l.session
  | .request => l.request

/-- The trimmed text of a layer, if anything is left of it. -/
def present? (l : Layers) (layer : Layer) : Option String :=
  ((l.text layer).map Text.trim).filter (· ≠ "")

/-- The messages that the present layers stand for. -/
def rendered (l : Layers) : List Message :=
  Layer.order.filterMap fun layer => (l.present? layer).map layer.render

theorem clean_eq (text : Option String) : clean text = (text.map Text.trim).filter (· ≠ "") := by
  cases text with
  | none => rfl
  | some s => cases h : Text.allBlank s <;> simp [clean, Option.filter, Text.trim_eq_empty_iff, h]

/-- A text that was trimmed is not blank, so that no layer is dropped twice. -/
theorem filter_clean (text : Option String) :
    (clean text).filter (fun s => !Text.allBlank s) = clean text := by
  cases text with
  | none => rfl
  | some s => cases h : Text.allBlank s <;> simp [clean, h, Option.filter, Text.allBlank_trim]

theorem ordered_normalize (l : Layers) : l.normalize.ordered =
    Layer.order.filterMap fun layer => (l.present? layer).map fun s => (layer, s) := by
  simp only [ordered, normalize, List.filterMap_cons, List.filterMap_nil, filter_clean, Layer.order,
    present?, text, ← clean_eq]

theorem messages_normalize (l : Layers) : l.normalize.messages = l.rendered := by
  rw [messages, ordered_normalize, List.map_filterMap, rendered]
  simp only [Option.map_map, Function.comp_def, ← Layer.render_eq]

end Layers

/-! ## Merging -/

namespace Request

variable {q : Request} {l : Layers}

theorem added_of_some (h : q.instructions = some l) : q.added = l.rendered := by
  rw [added, h, Option.map_some, Option.getD_some, Layers.messages_normalize]

theorem messages_normalize (h : q.instructions = some l) : q.normalize.messages =
    if l.rendered <+: q.messages then q.messages else l.rendered ++ q.messages := by
  have hm := q.mergedOnce_normalize
  rw [MergedOnce, added_of_some h] at hm
  split at hm <;> simp [*]

/-- Of two present layers a history begins with the message of the second, so it gets both. -/
example : (Request.normalize ⟨"m", [Layer.render .system "s"],
      some { system := some " s ", session := some "t", request := some "\u2003" }, none,
      none⟩).messages =
    [Layer.render .session "t", Layer.render .system "s", Layer.render .system "s"] := by
  decide +kernel

end Request

end Switchboard.Chat
