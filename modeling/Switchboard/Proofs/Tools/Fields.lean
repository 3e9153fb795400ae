import Switchboard.Tools.Session

/-!
# What a message holds

What a frame means to a request follows from three fields of its message: the id, the result and
the error, of which `null` is the same as none (`ofBody?_fields`).
-/

namespace Switchboard.Tools

open Json (Reader)

/-- The message in a frame. -/
def message? (body : List UInt8) : Option Tree := Text.Utf8.decode? body >>= Tree.parse?

/-- A field of a message: the member of that name, or what stands at its place in a list. -/
def field? (name : String) (place : Nat) : Tree → Option Tree
  | .obj members => (members.find? fun m => m.1 == some name).map (·.2)
  | .arr items => items[place]?
  | _ => none

/-- What a field holds; `null` is nothing. -/
def content? : Option Tree → Option Json
  | some .null | none => none
  | some t => t.value?

section
variable {members : List (Option String × Tree)} {name : String} {t : Tree} {x y z : Option Tree}
  {body : List UInt8} {a : Answer} {id : Nat}

theorem member_eq_find? (h : Reader.member name members = some x) :
    x = (members.find? fun m => m.1 == some name).map (·.2) := by
  rw [← List.head?_filter]
  unfold Reader.member at h
  split at h
  · next hf => cases h; rw [hf]; rfl
  · next hf => cases h; rw [hf]; rfl
  · cases h

/-- A record of three fields is read field by field. -/
theorem fieldsOf_eq {first second third : String}
    (h : Reader.fieldsOf [first, second, third] t = some [x, y, z]) :
    x = field? first 0 t ∧ y = field? second 1 t ∧ z = field? third 2 t := by
  unfold Reader.fieldsOf at h
  split at h
  · split at h
    · simp only [List.mapM_cons, List.mapM_nil, Option.bind_eq_bind, Option.bind_eq_some_iff] at h
      obtain ⟨x', hx, _, ⟨y', hy, _, ⟨z', hz, _, h0, h1⟩, h2⟩, h3⟩ := h
      cases h0; cases h1; cases h2; cases h3
      exact ⟨member_eq_find? hx, member_eq_find? hy, member_eq_find? hz⟩
    · cases h
  · next items =>
    split at h
    · match items with
      | [] | [_] | [_, _] | [_, _, _] => cases h; exact ⟨rfl, rfl, rfl⟩
      | _ :: _ :: _ :: _ :: _ => cases h
    · cases h
  · cases h

theorem fields_eq {first second third : String} {depth : Nat}
    (h : Reader.fields [first, second, third] depth t = some [x, y, z]) :
    x = field? first 0 t ∧ y = field? second 1 t ∧ z = field? third 2 t := by
  unfold Reader.fields at h
  split at h
  · exact fieldsOf_eq h
  · cases h

theorem content?_of_maybe {depth : Nat} {v : Option Json}
    (h : Reader.maybe Reader.value depth x = some v) : v = content? x := by
  unfold Reader.maybe Reader.orElse at h
  split at h
  · unfold Reader.optional at h
    split at h
    · cases h; rfl
    · next t hnull =>
      obtain ⟨w, hw, rfl⟩ := Option.map_eq_some_iff.1 h
      unfold Reader.value at hw
      split at hw
      · rw [content?, hw]
        exact fun e => hnull e
      · cases hw
  · cases h; rfl

/-- What is read of a message are its three fields. -/
theorem ofBody?_fields (h : Answer.ofBody? body = some a) :
    ∃ msg, message? body = some msg ∧ a.id = content? (field? "id" 0 msg) ∧
      a.result = content? (field? "result" 1 msg) ∧ a.error = content? (field? "error" 2 msg) := by
  obtain ⟨msg, hmsg, hread⟩ := Option.bind_eq_some_iff.1 h
  refine ⟨msg, hmsg, ?_⟩
  obtain ⟨fields, hf, hread⟩ := Option.bind_eq_some_iff.1 hread
  split at hread
  · next x y z =>
    obtain ⟨rfl, rfl, rfl⟩ := fields_eq hf
    obtain ⟨i, hi, hread⟩ := Option.bind_eq_some_iff.1 hread
    obtain ⟨r, hr, hread⟩ := Option.bind_eq_some_iff.1 hread
    obtain ⟨e, he, hread⟩ := Option.bind_eq_some_iff.1 hread
    cases hread
    exact ⟨content?_of_maybe hi, content?_of_maybe hr, content?_of_maybe he⟩
  · cases hread

theorem natural?_eq_some_iff {v : Json} : v.natural? = some id ↔ v = .int id := by
  cases v with
  | int k =>
    simp only [Json.natural?, Json.int.injEq]
    split
    · simp only [Option.some.injEq]; omega
    · simp only [reduceCtorEq, false_iff]; omega
  | _ => simp [Json.natural?]

theorem Answer.answers_iff : a.answers id = true ↔ a.id = some (.int id) := by
  rw [Answer.answers, beq_iff_eq, Option.bind_eq_some_iff]
  constructor
  · rintro ⟨v, hv, hn⟩
    rw [hv, natural?_eq_some_iff.1 hn]
  · exact fun h => ⟨_, h, natural?_eq_some_iff.2 rfl⟩

end

section
variable {m : Method} {id : Nat} {body : List UInt8}

theorem read_eq_none (h : Session.read m id body = none) :
    ∃ a, Answer.ofBody? body = some a ∧ a.answers id = false := by
  unfold Session.read at h
  split at h
  · cases h
  · next a ha =>
    split at h
    · split at h <;> cases h
    · next hn => exact ⟨a, ha, Bool.eq_false_iff.2 hn⟩

theorem read_of_other {a : Answer} (ha : Answer.ofBody? body = some a)
    (hid : a.id ≠ some (.int id)) : Session.read m id body = none := by
  have hother : a.answers id = false := Bool.eq_false_iff.2 fun h => hid (Answer.answers_iff.1 h)
  simp [Session.read, ha, hother]

theorem read_eq_ok {result : Option Json} (h : Session.read m id body = some (.ok result)) :
    ∃ a, Answer.ofBody? body = some a ∧ a.answers id = true ∧ a.error = none ∧
      a.result = result := by
  unfold Session.read at h
  split at h
  · cases h
  · next a ha =>
    split at h
    · next hid =>
      split at h
      · cases h
      · next he => cases h; exact ⟨a, ha, hid, he, rfl⟩
    · cases h

/-- A message that is read as an answer has the id, no error, and that result. -/
theorem read_fields {result : Option Json} (h : Session.read m id body = some (.ok result)) :
    ∃ msg, message? body = some msg ∧ content? (field? "id" 0 msg) = some (.int id) ∧
      content? (field? "error" 2 msg) = none ∧ content? (field? "result" 1 msg) = result := by
  obtain ⟨a, ha, hid, herror, hresult⟩ := read_eq_ok h
  obtain ⟨msg, hmsg, hfid, hfres, hferr⟩ := ofBody?_fields ha
  exact ⟨msg, hmsg, hfid ▸ Answer.answers_iff.1 hid, hferr ▸ herror, hfres ▸ hresult⟩

end

end Switchboard.Tools
