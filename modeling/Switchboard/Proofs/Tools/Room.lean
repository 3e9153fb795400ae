import Switchboard.Proofs.Tools.Acceptance

/-!
# Room for a body

A length below `2^64` is accepted, but there is room for at most `maxRoom` bytes, which is half of
that. A header that announces more crashes the reader as soon as it is there (`crashes_iff`), and
for every such length there is a header (`headed_lengthLine`). Over a whole stream the reader
crashes at the first such header that it comes to, and otherwise reads what `readAll` says
(`readAll?_eq_none_iff`, `readAll?_eq_some`).
-/

namespace Switchboard.Tools.Frame

open Text

section
variable {header rest after bytes : List UInt8} {bodies : List (List UInt8)} {n : Nat}

/-! ## Lengths -/

theorem Announces.lt_lengthBound (h : Announces header n) : n < lengthBound := by
  obtain ⟨_, _, _, -, -, -, hgives⟩ := h
  cases hgives
  assumption

/-- A header gives the length that it announces, and breaks the stream if it announces none. -/
theorem contentLength_cases (header : List UInt8) :
    (∃ n, n < lengthBound ∧ Announces header n ∧ contentLength header = .ok n) ∨
      ((∀ n, ¬ Announces header n) ∧ ∃ text, contentLength header = .error (.framing text)) := by
  by_cases h : ∃ n, Announces header n
  · obtain ⟨n, hn⟩ := h
    exact .inl ⟨n, hn.lt_lengthBound, hn, contentLength_eq_ok_iff.2 hn⟩
  · have hnone : ∀ n, ¬ Announces header n := fun n hn => h ⟨n, hn⟩
    exact .inr ⟨hnone, exists_framing_of_not_announces hnone⟩

theorem announces_lengthLine (h : n < lengthBound) : Announces (Utf8.encode (lengthLine n)) n :=
  contentLength_eq_ok_iff.1 (contentLength_lengthLine h)

theorem scanHeader_eq_complete_iff :
    scanHeader [] maxHeader bytes = .complete header rest ↔ Headed header rest bytes := by
  refine ⟨fun h => ?_, scanHeader_of_headed⟩
  obtain ⟨_, _, hh⟩ | ⟨hlen, hnot⟩ | ⟨hlen, hnot⟩ := headed_or bytes
  · rw [scanHeader_of_headed hh] at h
    cases h
    exact hh
  · rw [scanHeader_of_long hlen hnot] at h
    cases h
  · rw [scanHeader_of_short hlen hnot] at h
    cases h

/-- There is a header for every length that is accepted, whatever comes after it. -/
theorem headed_lengthLine (h : n < lengthBound) (rest : List UInt8) :
    Headed (Utf8.encode (lengthLine n)) rest
      (Utf8.encode (lengthLine n) ++ terminator ++ rest) := by
  obtain ⟨hlen, hcr⟩ := encode_lengthLine h
  refine scanHeader_eq_complete_iff.1 (scanHeader_of_line hcr ?_ rest)
  unfold maxHeader
  omega

/-! ## One frame -/

theorem awaited?_eq_some_iff :
    awaited? bytes = some n ↔ ∃ header rest, Headed header rest bytes ∧ Announces header n := by
  simp only [← scanHeader_eq_complete_iff, ← contentLength_eq_ok_iff]
  unfold awaited?
  cases scanHeader [] maxHeader bytes with
  | complete header rest => cases hc : contentLength header <;> simp [hc, Except.toOption]
  | tooLong => simp
  | incomplete => simp

/-- The reader crashes when there is no room for the body that a header announces. -/
theorem crashes_iff : crashes bytes = true ↔
    ∃ header rest n, Headed header rest bytes ∧ Announces header n ∧ maxRoom < n := by
  simp only [crashes, Option.any_eq_true, awaited?_eq_some_iff, decide_eq_true_eq]
  constructor
  · rintro ⟨n, ⟨header, rest, hh, hn⟩, hlt⟩
    exact ⟨header, rest, n, hh, hn, hlt⟩
  · rintro ⟨header, rest, n, hh, hn, hlt⟩
    exact ⟨n, ⟨header, rest, hh, hn⟩, hlt⟩

theorem read?_eq_none_iff : read? bytes = none ↔ crashes bytes = true := by
  unfold read?
  split <;> simp [*]

theorem read?_eq_some_iff {result : Except ToolError (List UInt8 × List UInt8)} :
    read? bytes = some result ↔ crashes bytes = false ∧ read bytes = result := by
  unfold read?
  split <;> simp [*]

/-! ## Streams -/

/-- The stream begins with the frames of these bodies, and `rest` comes after them. -/
inductive Reads : List UInt8 → List (List UInt8) → List UInt8 → Prop where
  | done (bytes : List UInt8) : Reads bytes [] bytes
  | frame {bytes body after rest : List UInt8} {bodies : List (List UInt8)} :
      read bytes = .ok (body, after) → Reads after bodies rest → Reads bytes (body :: bodies) rest

theorem scan_eq_frame_iff {body : List UInt8} :
    scan bytes = .frame body rest ↔ read bytes = .ok (body, rest) := by
  unfold read
  split <;> simp [*]

theorem readAll?_of_crashes (h : crashes bytes = true) : readAll? bytes = none := by
  rw [readAll?, if_pos h]

/-- Where the reader does not crash, it goes on behind the first frame. -/
theorem readAll?_frame {body : List UInt8} (hc : crashes bytes = false)
    (h : read bytes = .ok (body, rest)) :
    readAll? bytes = (readAll? rest).map fun (bodies, why) => (body :: bodies, why) := by
  have hscan := scan_eq_frame_iff.2 h
  rw [readAll?, if_neg (by simp [hc])]
  split
  · next h' => cases hscan.symm.trans h'; rfl
  · next h' => cases hscan.symm.trans h'
  · next h' => cases hscan.symm.trans h'

theorem readAll?_of_reads (h : Reads bytes bodies rest) (hc : crashes rest = true) :
    readAll? bytes = none := by
  induction h with
  | done => exact readAll?_of_crashes hc
  | @frame bytes _ _ _ _ hread _ ih =>
    cases hfirst : crashes bytes with
    | true => exact readAll?_of_crashes hfirst
    | false => rw [readAll?_frame hfirst hread, ih hc, Option.map_none]

/-- A reader that does not crash at any frame reads what there is. -/
theorem readAll?_eq_some (h : ∀ bodies rest, Reads bytes bodies rest → crashes rest = false) :
    readAll? bytes = some (readAll bytes) := by
  fun_induction readAll? bytes with
  | case1 bytes hc => simp [h _ _ (.done bytes)] at hc
  | case2 bytes _ body rest hscan ih =>
    have hread := scan_eq_frame_iff.1 hscan
    rw [ih fun bodies last hl => h _ _ (.frame hread hl), readAll_frame hscan]
    rfl
  | case3 bytes _ e hscan => rw [readAll_broken hscan]
  | case4 bytes _ hscan => rw [readAll_more hscan]

theorem readAll?_eq_none_iff :
    readAll? bytes = none ↔ ∃ bodies rest, Reads bytes bodies rest ∧ crashes rest = true := by
  constructor
  · intro h
    by_contra hno
    have hsafe : ∀ bodies rest, Reads bytes bodies rest → crashes rest = false :=
      fun bodies rest hr => Bool.eq_false_iff.2 fun hc => hno ⟨bodies, rest, hr, hc⟩
    rw [readAll?_eq_some hsafe] at h
    cases h
  · rintro ⟨bodies, rest, hr, hc⟩
    exact readAll?_of_reads hr hc

end

/-- A header gives a length below `2^64` or breaks the stream, and each of these lengths is given by
some header. The reader crashes at a frame just when the length is more than there can be room for,
before it has seen a byte of the body; otherwise it reads what `read` says. Over a stream it crashes
when such a header comes behind frames that it could read. -/
theorem crashes_beyond_room (header bytes : List UInt8) :
    ((∃ n, n < lengthBound ∧ Announces header n ∧ contentLength header = .ok n) ∨
      ((∀ n, ¬ Announces header n) ∧ ∃ text, contentLength header = .error (.framing text))) ∧
    (∀ n, n < lengthBound → ∃ announcing, Announces announcing n ∧
      ∀ rest, Headed announcing rest (announcing ++ terminator ++ rest)) ∧
    (read? bytes = none ↔
      ∃ announcing rest n, Headed announcing rest bytes ∧ Announces announcing n ∧ maxRoom < n) ∧
    (∀ result, read? bytes = some result → read bytes = result) ∧
    (readAll? bytes = none ↔ ∃ bodies rest, Reads bytes bodies rest ∧ read? rest = none) ∧
    ((∀ bodies rest, Reads bytes bodies rest → read? rest ≠ none) →
      readAll? bytes = some (readAll bytes)) := by
  refine ⟨contentLength_cases header,
    fun n hn => ⟨_, announces_lengthLine hn, fun rest => headed_lengthLine hn rest⟩,
    read?_eq_none_iff.trans crashes_iff, fun _ h => (read?_eq_some_iff.1 h).2, ?_,
    fun h => readAll?_eq_some fun bodies rest hr => ?_⟩
  · simp only [read?_eq_none_iff, readAll?_eq_none_iff]
  · exact Bool.eq_false_iff.2 fun hc => h bodies rest hr (read?_eq_none_iff.2 hc)

/-- The least length for which there is no room. -/
def outsized : List UInt8 := Utf8.encode "Content-Length: 9223372036854775808".toList

theorem headed_outsized : Headed outsized [] (outsized ++ terminator) :=
  scanHeader_eq_complete_iff.1 (by decide +kernel)

theorem contentLength_outsized : contentLength outsized = .ok 9223372036854775808 := by
  decide +kernel

theorem outsized_crashes : maxRoom < 9223372036854775808 ∧
    read? (outsized ++ terminator) = none ∧
    readAll? (write [1, 2] ++ (outsized ++ terminator)) = none := by
  have hroom : maxRoom < 9223372036854775808 := by decide
  obtain ⟨-, -, hone, -⟩ := crashes_beyond_room outsized (outsized ++ terminator)
  have hcrash : read? (outsized ++ terminator) = none :=
    hone.2 ⟨_, _, _, headed_outsized, contentLength_eq_ok_iff.1 contentLength_outsized, hroom⟩
  obtain ⟨-, -, -, -, hstream, -⟩ :=
    crashes_beyond_room outsized (write [1, 2] ++ (outsized ++ terminator))
  have hfirst : read (write [1, 2] ++ (outsized ++ terminator)) =
      .ok ([1, 2], outsized ++ terminator) := by decide +kernel
  exact ⟨hroom, hcrash, hstream.2 ⟨_, _, .frame hfirst (.done _), hcrash⟩⟩

/-- Some headers crash the reader: a length is accepted that there is no room for. -/
theorem outsized_accepted : (¬ ∀ bytes, read? bytes ≠ none) ∧
    ¬ ∀ header rest bytes n, Headed header rest bytes → contentLength header = .ok n →
      n ≤ maxRoom := by
  refine ⟨fun h => h (outsized ++ terminator) (by decide +kernel), fun h => ?_⟩
  exact absurd (h _ _ _ _ headed_outsized contentLength_outsized) (by decide)

end Switchboard.Tools.Frame
