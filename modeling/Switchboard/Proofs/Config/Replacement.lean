import Switchboard.Proofs.Config.Layout
import Mathlib.Data.List.Infix

/-!
# What placeholders are replaced by

A placeholder `Stands` for the value of its variable or for its fallback, or else it `Fails`;
neither mentions expansion. Expanding a text replaces the placeholders of its layout and nothing
else, or gives the fault of the first that fails (`expand_replaces_placeholders`). A text without
placeholders outside comments comes out with a line feed for every line end (`expand_bare`), so it
is unchanged unless a carriage return stands before a line feed.
-/

namespace Switchboard.Config

/-- What settles a result one way or the other is what the result is. -/
theorem except_iff {ε α : Type} {x : Except ε α} {P : α → Prop} {Q : ε → Prop}
    (hok : ∀ a, P a → x = .ok a) (herror : ∀ e, Q e → x = .error e)
    (htotal : (∃ a, P a) ∨ ∃ e, Q e) :
    (∀ a, x = .ok a ↔ P a) ∧ ∀ e, x = .error e ↔ Q e := by
  rcases htotal with ⟨a, ha⟩ | ⟨e, he⟩
  · rw [hok a ha]
    refine ⟨fun b => ⟨fun h => ?_, fun hb => ?_⟩, fun e => ⟨nofun, fun he => ?_⟩⟩
    · cases h
      exact ha
    · rw [← hok a ha, hok b hb]
    · rw [← hok a ha, herror e he]
  · rw [herror e he]
    refine ⟨fun a => ⟨nofun, fun ha => ?_⟩, fun e' => ⟨fun h => ?_, fun he' => ?_⟩⟩
    · rw [← herror e he, hok a ha]
    · cases h
      exact he
    · rw [← herror e he, herror e' he']

section
variable {env : Environment} {p : Placeholder} {name : String} {cs value : List Char}
  {e : ExpansionError} {segs : List Segment}

/-! ## One placeholder -/

/-- The key of the placeholder is the variable's name behind `env.`; there is one, without dots. -/
def Placeholder.IsFor (p : Placeholder) (name : String) : Prop :=
  p.key = "env.".toList ++ name.toList ∧ name.toList ≠ [] ∧ '.' ∉ name.toList

/-- The text that a placeholder is replaced by. -/
inductive Placeholder.Stands (env : Environment) (p : Placeholder) : List Char → Prop where
  | value {name value : String} (hname : p.IsFor name) (hvalue : env.get? name = some value) :
    p.Stands env value.toList
  | fallback {name : String} {text : List Char} (hname : p.IsFor name)
    (hunset : env.get? name = none) (htext : p.fallback = some text) : p.Stands env text

/-- Why a placeholder is replaced by nothing. -/
inductive Placeholder.Fails (env : Environment) (p : Placeholder) : ExpansionError → Prop where
  | scope (hkey : ∀ name, ¬ p.IsFor name) : p.Fails env (.scope (String.ofList p.key))
  | unset {name : String} (hname : p.IsFor name) (hunset : env.get? name = none)
    (hbare : p.fallback = none) : p.Fails env (.unset name)

/-- A placeholder has a text if it names a variable that is set or has a fallback. -/
def Placeholder.Resolvable (env : Environment) (p : Placeholder) : Prop :=
  ∃ name, p.IsFor name ∧ ((env.get? name).isSome ∨ p.fallback.isSome)

theorem isFor_iff : p.IsFor name ↔ variableOf? p.key = some name.toList := by
  unfold Placeholder.IsFor variableOf?
  simp only [Option.bind_eq_bind, Option.bind_eq_some_iff, after_eq_some_iff]
  constructor
  · rintro ⟨hkey, hname⟩
    exact ⟨name.toList, hkey, if_neg (by simpa using hname)⟩
  · rintro ⟨var, hkey, h⟩
    split at h
    · cases h
    · next hvar =>
      cases h
      exact ⟨hkey, by simpa using hvar⟩

theorem resolve_of_isFor (h : p.IsFor name) : resolve env p =
    match env.get? name, p.fallback with
    | some value, _ => .ok value.toList
    | none, some text => .ok text
    | none, none => .error (.unset name) := by
  cases hvalue : env.get? name <;> cases htext : p.fallback <;>
    simp [resolve, isFor_iff.1 h, hvalue, htext]

theorem resolve_of_scope (h : ∀ name, ¬ p.IsFor name) :
    resolve env p = .error (.scope (String.ofList p.key)) := by
  rw [resolve]
  cases hvar : variableOf? p.key with
  | none => rfl
  | some var =>
    exact absurd (isFor_iff.2 (by rw [hvar, String.toList_ofList])) (h (String.ofList var))

theorem Placeholder.Stands.resolve_eq (h : p.Stands env value) : resolve env p = .ok value := by
  cases h with
  | value hname hvalue => rw [resolve_of_isFor hname, hvalue]
  | fallback hname hunset htext => rw [resolve_of_isFor hname, hunset, htext]

theorem Placeholder.Fails.resolve_eq (h : p.Fails env e) : resolve env p = .error e := by
  cases h with
  | scope hkey => exact resolve_of_scope hkey
  | unset hname hunset hbare => rw [resolve_of_isFor hname, hunset, hbare]

theorem stands_or_fails (env : Environment) (p : Placeholder) :
    (∃ value, p.Stands env value) ∨ ∃ e, p.Fails env e := by
  by_cases hscope : ∀ name, ¬ p.IsFor name
  · exact .inr ⟨_, .scope hscope⟩
  · obtain ⟨name, hname⟩ := not_forall_not.1 hscope
    cases hvalue : env.get? name with
    | some value => exact .inl ⟨_, .value hname hvalue⟩
    | none =>
      cases htext : p.fallback with
      | some text => exact .inl ⟨_, .fallback hname hvalue htext⟩
      | none => exact .inr ⟨_, .unset hname hvalue htext⟩

theorem resolvable_iff : p.Resolvable env ↔ ∃ value, p.Stands env value := by
  constructor
  · rintro ⟨name, hname, hsome⟩
    cases hvalue : env.get? name with
    | some value => exact ⟨_, .value hname hvalue⟩
    | none =>
      rw [hvalue] at hsome
      obtain ⟨text, htext⟩ := Option.isSome_iff_exists.1 (hsome.resolve_left nofun)
      exact ⟨_, .fallback hname hvalue htext⟩
  · rintro ⟨value, h⟩
    cases h with
    | value hname hvalue => exact ⟨_, hname, .inl (by rw [hvalue]; rfl)⟩
    | fallback hname _ htext => exact ⟨_, hname, .inr (by rw [htext]; rfl)⟩

/-! ## All placeholders of a text -/

/-- The text that segments stand for. -/
inductive Filled (env : Environment) : List Segment → List Char → Prop where
  | nil : Filled env [] []
  | char {segs : List Segment} {cs : List Char} (c : Char) (h : Filled env segs cs) :
    Filled env (.char c :: segs) (c :: cs)
  | hole {p : Placeholder} {value cs : List Char} {segs : List Segment} (hp : p.Stands env value)
    (h : Filled env segs cs) : Filled env (.hole p :: segs) (value ++ cs)

/-- The first placeholder that has no text, and why. -/
def FirstFault (env : Environment) (segs : List Segment) (e : ExpansionError) : Prop :=
  ∃ before p after, segs = before ++ .hole p :: after ∧
    (∀ q, .hole q ∈ before → q.Resolvable env) ∧ p.Fails env e

theorem Filled.fill_eq (h : Filled env segs cs) : fill env segs = .ok cs := by
  induction h with
  | nil => rfl
  | char c h ih =>
    rw [fill, ih]
    rfl
  | hole hp h ih =>
    rw [fill, hp.resolve_eq, ih]
    rfl

/-- Segments have a text if all their placeholders have one. -/
theorem exists_filled (h : ∀ p, .hole p ∈ segs → p.Resolvable env) : ∃ cs, Filled env segs cs := by
  induction segs with
  | nil => exact ⟨[], .nil⟩
  | cons seg segs ih =>
    obtain ⟨cs, hcs⟩ := ih fun p hp => h p (List.mem_cons_of_mem _ hp)
    cases seg with
    | char c => exact ⟨_, .char c hcs⟩
    | hole p =>
      obtain ⟨value, hvalue⟩ := resolvable_iff.1 (h p List.mem_cons_self)
      exact ⟨_, .hole hvalue hcs⟩

theorem Filled.resolvable (h : Filled env segs cs) : ∀ p, .hole p ∈ segs → p.Resolvable env := by
  induction h with
  | nil => exact nofun
  | char c h ih =>
    intro p hp
    exact ih p ((List.mem_cons.1 hp).resolve_left nofun)
  | hole hp h ih =>
    intro q hq
    rcases List.mem_cons.1 hq with heq | hq
    · cases heq
      exact resolvable_iff.2 ⟨_, hp⟩
    · exact ih q hq

theorem FirstFault.fill_eq (h : FirstFault env segs e) : fill env segs = .error e := by
  obtain ⟨before, p, after, rfl, hbefore, hp⟩ := h
  obtain ⟨cs, hcs⟩ := exists_filled hbefore
  rw [fill_append, hcs.fill_eq, fill, hp.resolve_eq]
  rfl

theorem filled_or_fault (env : Environment) (segs : List Segment) :
    (∃ cs, Filled env segs cs) ∨ ∃ e, FirstFault env segs e := by
  induction segs with
  | nil => exact .inl ⟨[], .nil⟩
  | cons seg segs ih =>
    cases seg with
    | char c =>
      rcases ih with ⟨cs, hcs⟩ | ⟨e, before, p, after, rfl, hbefore, hp⟩
      · exact .inl ⟨_, .char c hcs⟩
      · refine .inr ⟨e, .char c :: before, p, after, rfl, fun q hq => ?_, hp⟩
        exact hbefore q ((List.mem_cons.1 hq).resolve_left nofun)
    | hole q =>
      rcases stands_or_fails env q with ⟨value, hq⟩ | ⟨e, hq⟩
      · rcases ih with ⟨cs, hcs⟩ | ⟨e, before, p, after, rfl, hbefore, hp⟩
        · exact .inl ⟨_, .hole hq hcs⟩
        · refine .inr ⟨e, .hole q :: before, p, after, rfl, fun q' hq' => ?_, hp⟩
          rcases List.mem_cons.1 hq' with heq | hq'
          · cases heq
            exact resolvable_iff.2 ⟨value, hq⟩
          · exact hbefore q' hq'
      · exact .inr ⟨e, [], q, segs, rfl, nofun, hq⟩

theorem fill_iff (env : Environment) (segs : List Segment) :
    (∀ cs, fill env segs = .ok cs ↔ Filled env segs cs) ∧
      ∀ e, fill env segs = .error e ↔ FirstFault env segs e :=
  except_iff (fun _ h => h.fill_eq) (fun _ h => h.fill_eq) (filled_or_fault env segs)

/-- Only the variables that placeholders name matter. -/
theorem fill_congr {env' : Environment} (h : ∀ p name, .hole p ∈ segs → p.IsFor name →
    env'.get? name = env.get? name) : fill env' segs = fill env segs := by
  induction segs with
  | nil => rfl
  | cons seg segs ih =>
    have ih := ih fun p name hp => h p name (List.mem_cons_of_mem _ hp)
    cases seg with
    | char c => rw [fill, fill, ih]
    | hole p =>
      have hp : resolve env' p = resolve env p := by
        by_cases hscope : ∀ name, ¬ p.IsFor name
        · rw [resolve_of_scope hscope, resolve_of_scope hscope]
        · obtain ⟨name, hname⟩ := not_forall_not.1 hscope
          rw [resolve_of_isFor hname, resolve_of_isFor hname, h p name List.mem_cons_self hname]
      rw [fill, fill, ih, hp]

/-! ## Texts -/

theorem expand_eq_ok_iff {text out : String} :
    expand env text = .ok out ↔ fill env (segments text.toList) = .ok out.toList := by
  rw [expand, expandChars_eq_fill]
  cases fill env (segments text.toList) with
  | error e => exact ⟨nofun, nofun⟩
  | ok cs => simp [Except.map, ← String.toList_inj]

theorem expand_eq_error_iff {text : String} :
    expand env text = .error e ↔ fill env (segments text.toList) = .error e := by
  rw [expand, expandChars_eq_fill]
  cases fill env (segments text.toList) with
  | error e => simp [Except.map]
  | ok cs => exact ⟨nofun, nofun⟩

/-- A text whose line ends are line feeds is expanded by replacing the placeholders of its layout
and nothing else, if each of them has a text; otherwise the error is the fault of the first that has
none. Variables that only comments mention do not matter, because no comment holds a placeholder. -/
theorem expand_replaces_placeholders (env : Environment) (text : String)
    (h : '\r' ∉ text.toList) :
    (∃! segs, Layout text.toList segs) ∧ ∀ segs, Layout text.toList segs →
      ((∃ out, expand env text = .ok out) ↔ ∀ p, .hole p ∈ segs → p.Resolvable env) ∧
      (∀ out, expand env text = .ok out ↔ Filled env segs out.toList) ∧
      (∀ e, expand env text = .error e ↔ FirstFault env segs e) ∧
      ∀ env' : Environment, (∀ p name, .hole p ∈ segs → p.IsFor name →
        env'.get? name = env.get? name) → expand env' text = expand env text := by
  refine ⟨⟨_, (layout_iff h).2 rfl, fun segs hsegs => (layout_iff h).1 hsegs⟩, ?_⟩
  intro segs hsegs
  obtain rfl := (layout_iff h).1 hsegs
  obtain ⟨hfill, hfault⟩ := fill_iff env (segments text.toList)
  refine ⟨⟨?_, fun hall => ?_⟩, fun out => ?_, fun e => ?_, fun env' hsame => ?_⟩
  · rintro ⟨out, hout⟩
    exact ((hfill _).1 (expand_eq_ok_iff.1 hout)).resolvable
  · obtain ⟨cs, hcs⟩ := exists_filled hall
    exact ⟨String.ofList cs, expand_eq_ok_iff.2 (by rw [String.toList_ofList, hcs.fill_eq])⟩
  · rw [expand_eq_ok_iff, hfill]
  · rw [expand_eq_error_iff, hfault]
  · rw [expand, expand, expandChars_eq_fill, expandChars_eq_fill, fill_congr hsame]

/-- A comment that mentions a variable without a value, a value that looks like a placeholder, and a
fallback that looks like one. -/
def commentedText : String :=
  "# \x7b\x7b env.A \x7d\x7d\nb = \"\x7b\x7b env.B \x7d\x7d\"\n" ++
    "c = '\x7b\x7benv.C|default(\"\x7b\x7b env.A \x7d\x7d\")\x7d\x7d'\n"

theorem commented_text_expanded :
    '\r' ∉ commentedText.toList ∧
      expand [("B", some "# \x7b\x7b x \x7d\x7d")] commentedText =
        .ok ("# \x7b\x7b env.A \x7d\x7d\nb = \"# \x7b\x7b x \x7d\x7d\"\n" ++
          "c = '\x7b\x7b env.A \x7d\x7d'\n") ∧
      expand [] commentedText = .error (.unset "B") := by
  have hfeeds : '\r' ∉ commentedText.toList := by decide
  have hlayout : Layout commentedText.toList (segments commentedText.toList) :=
    (layout_iff hfeeds).2 rfl
  refine ⟨hfeeds, ?_, ?_⟩
  · refine ((expand_replaces_placeholders _ _ hfeeds).2 _ hlayout).2.1 _ |>.2 ?_
    exact ((fill_iff _ _).1 _).1 (by decide +kernel)
  · refine ((expand_replaces_placeholders _ _ hfeeds).2 _ hlayout).2.2.1 _ |>.2 ?_
    exact ((fill_iff _ _).2 _).1 (by decide +kernel)

/-! ## Texts without placeholders -/

/-- No line but a comment holds a placeholder. -/
def Bare (cs : List Char) : Prop :=
  ∀ line ∈ cs.splitOn '\n', ¬ Comment line → ∀ rest, rest <:+ line →
    ∀ p : Placeholder, ¬ p.Begins rest

instance (cs : List Char) : Decidable (Bare cs) :=
  decidable_of_iff (∀ line ∈ cs.splitOn '\n', ¬ Comment line →
    ∀ rest ∈ line.tails, placeholderAt rest = none) <| by
      simp only [Bare, List.mem_tails, placeholderAt_eq_none_iff]

theorem Comment.of_append_return {line : List Char} (h : Comment (line ++ ['\r'])) :
    Comment line := by
  generalize hline : line ++ ['\r'] = ended at h
  obtain ⟨hblanks⟩ := h
  rename_i blanks rest
  rcases List.eq_nil_or_concat rest with rfl | ⟨rest, c, rfl⟩
  · have := congrArg List.getLast? hline
    simp at this
  · rw [List.concat_eq_append, ← List.cons_append, ← List.append_assoc] at hline
    obtain ⟨rfl, -⟩ := List.append_inj' hline rfl
    exact .sign hblanks

/-- Every line is as it was or has lost a carriage return at its end. -/
theorem forall₂_dropReturns (cs : List Char) :
    List.Forall₂ (fun before after => before = after ∨ before = after ++ ['\r'])
      (cs.splitOn '\n') ((dropReturns cs).splitOn '\n') := by
  fun_induction dropReturns cs with
  | case1 => exact .cons (.inl rfl) .nil
  | case2 rest ih =>
    rw [splitOn_cons_of_ne (by decide), splitOn_feed, splitOn_feed]
    exact .cons (.inr rfl) ih
  | case3 c rest hend ih =>
    by_cases hc : c = '\n'
    · subst hc
      rw [splitOn_feed, splitOn_feed]
      exact .cons (.inl rfl) ih
    · rw [splitOn_cons_of_ne hc, splitOn_cons_of_ne hc]
      generalize rest.splitOn '\n' = before, (dropReturns rest).splitOn '\n' = after at ih
      cases ih with
      | nil => exact .nil
      | cons hline hlines =>
        refine .cons ?_ hlines
        rcases hline with rfl | rfl
        · exact .inl rfl
        · exact .inr rfl

theorem exists_of_forall₂ {α β : Type} {R : α → β → Prop} {as : List α} {bs : List β}
    (h : List.Forall₂ R as bs) {b : β} (hb : b ∈ bs) : ∃ a ∈ as, R a b := by
  induction h with
  | nil => cases hb
  | cons hr _ ih =>
    rcases List.mem_cons.1 hb with rfl | hb
    · exact ⟨_, List.mem_cons_self, hr⟩
    · obtain ⟨a, ha, hr⟩ := ih hb
      exact ⟨a, List.mem_cons_of_mem _ ha, hr⟩

theorem Bare.dropReturns (h : Bare cs) : Bare (dropReturns cs) := by
  intro line hline hcomment rest hrest p hp
  obtain ⟨before, hbefore, hsame⟩ := exists_of_forall₂ (forall₂_dropReturns cs) hline
  rcases hsame with rfl | rfl
  · exact h _ hbefore hcomment rest hrest p hp
  · refine h _ hbefore (fun hc => hcomment hc.of_append_return) (rest ++ ['\r']) ?_ _ (hp.append _)
    obtain ⟨front, rfl⟩ := hrest
    exact ⟨front, (List.append_assoc ..).symm⟩

theorem segmentsFrom_of_bare (h : ∀ rest, rest <:+ cs → ∀ p : Placeholder, ¬ p.Begins rest) :
    segmentsFrom 0 cs = cs.map .char := by
  induction cs with
  | nil => rfl
  | cons c cs ih =>
    rw [segmentsFrom_of_none (h _ List.suffix_rfl), List.map_cons,
      ih fun rest hrest => h rest (hrest.trans (List.suffix_cons c cs))]

theorem map_intercalate {α β : Type} (f : α → β) (sep : List α) : ∀ ls : List (List α),
    (sep.intercalate ls).map f = (sep.map f).intercalate (ls.map (·.map f))
  | [] => rfl
  | [l] => by simp
  | l :: m :: ls => by
    rw [List.intercalate_cons_cons, List.map_append, map_intercalate f sep (m :: ls)]
    simp only [List.map_append, List.map_cons, List.intercalate_cons_cons]

theorem segments_of_bare (h : Bare cs) : segments cs = (dropReturns cs).map .char := by
  have hlines : ((dropReturns cs).splitOn '\n').map lineSegments =
      ((dropReturns cs).splitOn '\n').map (·.map .char) := by
    refine List.map_congr_left fun line hline => ?_
    by_cases hcomment : Comment line
    · exact lineSegments_of_comment hcomment
    · rw [lineSegments_of_not_comment hcomment]
      exact segmentsFrom_of_bare (h.dropReturns line hline hcomment)
  have hjoin := map_intercalate Segment.char ['\n'] ((dropReturns cs).splitOn '\n')
  rw [List.intercalate_splitOn] at hjoin
  rw [segments_eq, hlines, hjoin]
  rfl

/-- A text without placeholders comes out with a line feed for every line end, whatever the
environment is: it is unchanged just if no carriage return stands before a line feed. -/
theorem expand_bare (env : Environment) (text : String) (h : Bare text.toList) :
    expand env text = .ok (String.ofList (dropReturns text.toList)) ∧
      (expand env text = .ok text ↔ ¬ ['\r', '\n'] <:+: text.toList) := by
  have hfill (out : String) : expand env text = .ok out ↔ dropReturns text.toList = out.toList := by
    rw [expand_eq_ok_iff, segments_of_bare h, fill_chars]
    exact ⟨Except.ok.inj, congrArg _⟩
  exact ⟨(hfill _).2 String.toList_ofList.symm, (hfill _).trans dropReturns_eq_self_iff⟩

theorem line_ends_of_bare_text :
    Bare "a = 1\r\n  # \x7b\x7b env.A \x7d\x7d\r\n".toList ∧
      expand [] "a = 1\r\n  # \x7b\x7b env.A \x7d\x7d\r\n" =
        .ok "a = 1\n  # \x7b\x7b env.A \x7d\x7d\n" := by
  have hbare : Bare "a = 1\r\n  # \x7b\x7b env.A \x7d\x7d\r\n".toList := by decide +kernel
  exact ⟨hbare, (expand_bare [] _ hbare).1⟩

/-- A comment can lose a character. -/
theorem comment_loses_return : ¬ ∀ (env : Environment) (text : String), Bare text.toList →
    expand env text = .ok text := by
  intro h
  have hok := h [] "# a\r\r\n" (by decide +kernel)
  revert hok
  decide +kernel

end

end Switchboard.Config
