import Switchboard.Tools.Frame

/-!
# Frames that are read back

A frame is known as soon as its last byte has arrived: more bytes do not change it
(`scan_append`), and fewer do not make one (`scan_cut`). With that, bodies that are written one
after the other are read back as they were, and where the stream is cut, all that are whole are
(`readAll_written`). A body may hold anything, because nothing in it is looked at, and as many bytes
as a 64-bit length can count.
-/

namespace Switchboard.Tools.Frame

open Text

/-! ## Headers -/

/-- The bytes in front, in reverse, end with an empty line. -/
def Terminated (seen : List UInt8) : Prop := ∃ header, seen = 10 :: 13 :: 10 :: 13 :: header

section
variable {seen p q header rest bytes body : List UInt8} {b : UInt8} {room : Nat}

theorem scanHeader_terminated (header bytes : List UInt8) (room : Nat) :
    scanHeader (10 :: 13 :: 10 :: 13 :: header) room bytes = .complete header.reverse bytes := by
  cases bytes <;> rw [scanHeader]

theorem scanHeader_nil (h : ¬ Terminated seen) :
    scanHeader seen room [] = if room = 0 then .tooLong else .incomplete := by
  unfold scanHeader
  split
  · next header => exact absurd ⟨header, rfl⟩ h
  · rfl

theorem scanHeader_cons (h : ¬ Terminated seen) :
    scanHeader seen room (b :: rest) =
      if room = 0 then .tooLong else scanHeader (b :: seen) (room - 1) rest := by
  rw [scanHeader.eq_def]
  dsimp only
  split
  · next header => exact absurd ⟨header, rfl⟩ h
  · rfl

theorem suffix_of_complete (h : scanHeader seen room bytes = .complete header rest) :
    rest <:+ bytes := by
  induction bytes generalizing seen room with
  | nil =>
    by_cases ht : Terminated seen
    · obtain ⟨_, rfl⟩ := ht
      rw [scanHeader_terminated] at h
      cases h
      exact List.suffix_rfl
    · rw [scanHeader_nil ht] at h
      split at h <;> cases h
  | cons b bytes ih =>
    by_cases ht : Terminated seen
    · obtain ⟨_, rfl⟩ := ht
      rw [scanHeader_terminated] at h
      cases h
      exact List.suffix_rfl
    · rw [scanHeader_cons ht] at h
      split at h
      · cases h
      · exact (ih h).trans (List.suffix_cons b bytes)

/-- A header is found where it ends, however many bytes come after it. -/
theorem scanHeader_append (h : scanHeader seen room p = .complete header rest)
    (q : List UInt8) : scanHeader seen room (p ++ q) = .complete header (rest ++ q) := by
  induction p generalizing seen room with
  | nil =>
    by_cases ht : Terminated seen
    · obtain ⟨_, rfl⟩ := ht
      rw [scanHeader_terminated] at h
      cases h
      exact scanHeader_terminated _ _ _
    · rw [scanHeader_nil ht] at h
      split at h <;> cases h
  | cons b p ih =>
    by_cases ht : Terminated seen
    · obtain ⟨_, rfl⟩ := ht
      rw [scanHeader_terminated] at h
      cases h
      exact scanHeader_terminated _ _ _
    · rw [scanHeader_cons ht] at h
      rw [List.cons_append, scanHeader_cons ht]
      split at h
      · cases h
      · next hr => rw [if_neg hr, ih h]

/-- Before the end of a header there is none. -/
theorem scanHeader_cut (h : scanHeader seen room (p ++ q) = .complete header rest) :
    (rest.length < q.length → scanHeader seen room p = .incomplete) ∧
      (q.length ≤ rest.length →
        ∃ r, rest = r ++ q ∧ scanHeader seen room p = .complete header r) := by
  induction p generalizing seen room with
  | nil =>
    rw [List.nil_append] at h
    by_cases ht : Terminated seen
    · obtain ⟨_, rfl⟩ := ht
      rw [scanHeader_terminated] at h ⊢
      cases h
      exact ⟨fun hlt => absurd hlt (Nat.lt_irrefl _), fun _ => ⟨[], rfl, rfl⟩⟩
    · cases q with
      | nil =>
        rw [scanHeader_nil ht] at h
        split at h <;> cases h
      | cons b q =>
        rw [scanHeader_cons ht] at h
        rw [scanHeader_nil ht]
        split at h
        · cases h
        · next hr =>
          have hle := (suffix_of_complete h).length_le
          refine ⟨fun _ => if_neg hr, fun hge => ?_⟩
          rw [List.length_cons] at hge
          omega
  | cons b p ih =>
    by_cases ht : Terminated seen
    · obtain ⟨_, rfl⟩ := ht
      rw [scanHeader_terminated] at h ⊢
      cases h
      refine ⟨fun hlt => ?_, fun _ => ⟨b :: p, rfl, rfl⟩⟩
      simp only [List.length_append] at hlt
      omega
    · rw [List.cons_append, scanHeader_cons ht] at h
      rw [scanHeader_cons ht]
      split at h
      · cases h
      · next hr =>
        rw [if_neg hr]
        exact ih h

theorem not_terminated_of_notMem (h : 13 ∉ seen) : ¬ Terminated seen := by
  rintro ⟨header, rfl⟩
  simp at h

/-- A line without a carriage return is part of the header as a whole. -/
theorem scanHeader_line (hs : 13 ∉ seen) (hp : 13 ∉ p) (hroom : p.length ≤ room)
    (rest : List UInt8) :
    scanHeader seen room (p ++ rest) = scanHeader (p.reverse ++ seen) (room - p.length) rest := by
  induction p generalizing seen room with
  | nil => rfl
  | cons b p ih =>
    rw [List.mem_cons, not_or] at hp
    rw [List.length_cons] at hroom
    have hs' : 13 ∉ b :: seen := by simp [hp.1, hs]
    rw [List.cons_append, scanHeader_cons (not_terminated_of_notMem hs), if_neg (by omega),
      ih hs' hp.2 (by omega), List.reverse_cons, List.append_assoc, List.length_cons, Nat.sub_sub,
      Nat.add_comm 1]
    rfl

/-- A header of one line ends with the empty line after it. -/
theorem scanHeader_of_line (hp : 13 ∉ p) (hroom : p.length + 4 ≤ room) (rest : List UInt8) :
    scanHeader [] room (p ++ terminator ++ rest) = .complete p rest := by
  have hr : 13 ∉ p.reverse := by simpa using hp
  have h1 : ¬ Terminated (13 :: p.reverse) := by rintro ⟨_, h⟩; cases h
  have h2 : ¬ Terminated (10 :: 13 :: p.reverse) := by
    rintro ⟨_, h⟩
    simp only [List.cons.injEq, true_and] at h
    exact hr (by simp [h])
  have h3 : ¬ Terminated (13 :: 10 :: 13 :: p.reverse) := by rintro ⟨_, h⟩; cases h
  rw [List.append_assoc, scanHeader_line (by simp) hp (by omega), List.append_nil, terminator,
    List.cons_append, scanHeader_cons (not_terminated_of_notMem hr), if_neg (by omega),
    List.cons_append, scanHeader_cons h1, if_neg (by omega), List.cons_append, scanHeader_cons h2,
    if_neg (by omega), List.cons_append, scanHeader_cons h3, if_neg (by omega),
    scanHeader_terminated, List.reverse_reverse, List.nil_append]

/-! ## Frames -/

theorem scan_of_complete {n : Nat} (h : scanHeader [] maxHeader bytes = .complete header rest)
    (hn : contentLength header = .ok n) :
    scan bytes = if n ≤ rest.length then .frame (rest.take n) (rest.drop n) else .more := by
  simp [scan, h, hn]

theorem complete_of_scan (h : scan bytes = .frame body rest) :
    ∃ header after n, scanHeader [] maxHeader bytes = .complete header after ∧
      contentLength header = .ok n ∧ n ≤ after.length ∧ body = after.take n ∧
      rest = after.drop n := by
  unfold scan at h
  split at h <;> try cases h
  next header after hc =>
  split at h <;> try cases h
  next n hn =>
  split at h <;> cases h
  next hle => exact ⟨header, after, n, hc, hn, hle, rfl, rfl⟩

/-- More bytes leave a frame as it is. -/
theorem scan_append (h : scan p = .frame body rest) (q : List UInt8) :
    scan (p ++ q) = .frame body (rest ++ q) := by
  obtain ⟨header, after, n, hc, hn, hle, rfl, rfl⟩ := complete_of_scan h
  rw [scan_of_complete (scanHeader_append hc q) hn,
    if_pos (by rw [List.length_append]; omega), List.take_append_of_le_length hle,
    List.drop_append_of_le_length hle]

/-- A frame that lacks its last byte is none yet. -/
theorem scan_cut (h : scan (p ++ q) = .frame body rest) (hlt : rest.length < q.length) :
    scan p = .more := by
  obtain ⟨header, after, n, hc, hn, hle, rfl, rfl⟩ := complete_of_scan h
  obtain ⟨hshort, hlong⟩ := scanHeader_cut hc
  rcases Nat.lt_or_ge after.length q.length with hq | hq
  · simp [scan, hshort hq]
  · obtain ⟨r, rfl, hr⟩ := hlong hq
    rw [List.length_drop, List.length_append] at hlt
    rw [scan_of_complete hr hn, if_neg (by omega)]

theorem readAll_frame (h : scan bytes = .frame body rest) :
    readAll bytes = (body :: (readAll rest).1, (readAll rest).2) := by
  rw [readAll]
  split
  · next h' => rw [h] at h'; cases h'; rfl
  · next h' => rw [h] at h'; cases h'
  · next h' => rw [h] at h'; cases h'

theorem readAll_more (h : scan bytes = .more) : readAll bytes = ([], .connectionClosed) := by
  rw [readAll]
  split
  · next h' => rw [h] at h'; cases h'
  · next h' => rw [h] at h'; cases h'
  · rfl

theorem readAll_broken {e : ToolError} (h : scan bytes = .broken e) : readAll bytes = ([], e) := by
  rw [readAll]
  split
  · next h' => cases h.symm.trans h'
  · next h' => cases h.symm.trans h'; rfl
  · next h' => cases h.symm.trans h'

/-- A stream breaks only for a reason after which nothing more can be read. -/
theorem isFatal_of_scan {e : ToolError} (h : scan bytes = .broken e) : e.isFatal = true := by
  have hlength : ∀ header e, contentLength header = .error e → e.isFatal = true := by
    intro header e h
    unfold contentLength at h
    split at h
    · cases h; rfl
    · split at h
      · cases h; rfl
      · split at h
        · cases h
        · cases h; rfl
  unfold scan at h
  split at h
  · cases h
  · cases h; rfl
  · split at h
    · next e' he =>
      cases h
      exact hlength _ _ he
    · split at h <;> cases h

theorem isFatal_of_readAll (bytes : List UInt8) : (readAll bytes).2.isFatal = true := by
  induction bytes using readAll.induct with
  | case1 bytes body rest h _ _ _ ih =>
    rw [readAll_frame h]
    exact ih
  | case2 bytes e h =>
    rw [readAll_broken h]
    exact isFatal_of_scan h
  | case3 bytes h =>
    rw [readAll_more h]
    rfl

end

/-! ## What is written -/

/-- The header of a body of `n` bytes. -/
def lengthLine (n : Nat) : List Char := "Content-Length: ".toList ++ Nat.toDigits 10 n

theorem write_eq (body : List UInt8) :
    write body = Utf8.encode (lengthLine body.length) ++ terminator ++ body := by
  have ht : terminator = Utf8.encode "\r\n\r\n".toList := by decide
  rw [ht, write, Utf8.encode_append]
  rfl

section
variable {n : Nat} {c : Char}

theorem digit_of_mem (h : c ∈ Nat.toDigits 10 n) : isDigit c = true := by
  have := Nat.isDigit_of_mem_toDigits (by decide) (by decide) h
  simpa [isDigit, Char.isDigit, Char.le_def] using this

theorem toNat_of_digit (h : isDigit c = true) : 48 ≤ c.toNat ∧ c.toNat ≤ 57 := by
  simpa [isDigit, Char.le_def, UInt32.le_iff_toNat_le] using h

theorem isBlank_of_digit (h : isDigit c = true) : isBlank c = false := by
  have := toNat_of_digit h
  simp only [isBlank, Bool.or_eq_false_iff, Bool.and_eq_false_iff, decide_eq_false_iff_not,
    beq_eq_false_iff_ne]
  omega

theorem trimChars_digits (n : Nat) :
    trimChars (' ' :: Nat.toDigits 10 n) = Nat.toDigits 10 n := by
  have digits : ∀ c, c ∈ Nat.toDigits 10 n → isBlank c = false :=
    fun c hc => isBlank_of_digit (digit_of_mem hc)
  have hstart : trimStart (' ' :: Nat.toDigits 10 n) = Nat.toDigits 10 n := by
    rw [trimStart, List.dropWhile_cons, if_pos isBlank_space]
    exact trimStart_eq_self fun c hc => digits c (List.mem_of_head? hc)
  have hend : trimStart (Nat.toDigits 10 n).reverse = (Nat.toDigits 10 n).reverse :=
    trimStart_eq_self fun c hc => digits c (List.mem_reverse.1 (List.mem_of_head? hc))
  rw [trimChars, hstart, trimEnd, ← trimStart, hend, List.reverse_reverse]

theorem readLength_digits (h : n < lengthBound) : readLength (Nat.toDigits 10 n) = some n := by
  have hplus : ∀ rest, Nat.toDigits 10 n ≠ '+' :: rest := by
    intro rest he
    have : isDigit '+' = true := digit_of_mem (n := n) (by rw [he]; exact List.mem_cons_self)
    revert this
    decide
  have hnat : natOf (Nat.toDigits 10 n) = n := Nat.ofDigitChars_toDigits (by decide) (by decide)
  have hall : (Nat.toDigits 10 n).all isDigit = true :=
    List.all_eq_true.2 fun c hc => digit_of_mem hc
  unfold readLength
  split
  · next rest he => exact absurd he (hplus rest)
  · simp [hnat, hall, h, Nat.toDigits_ne_nil]

theorem splitLines_of_notMem : ∀ {cs : List Char}, '\r' ∉ cs → splitLines cs = [cs]
  | [], _ => rfl
  | c :: cs, h => by
    rw [List.mem_cons, not_or] at h
    rw [splitLines, splitLines_of_notMem h.2]
    · intro rest hc _
      exact h.1 hc.symm

theorem lengthLine_eq (n : Nat) :
    lengthLine n = "Content-Length:".toList ++ ' ' :: Nat.toDigits 10 n := by
  have h : "Content-Length: ".toList = "Content-Length:".toList ++ [' '] := by decide
  unfold lengthLine
  rw [h, List.append_assoc, List.singleton_append]

theorem lengthValue?_lengthLine (n : Nat) :
    lengthValue? (lengthLine n) = some (Nat.toDigits 10 n) := by
  have hlen : lengthKey.length = "Content-Length:".toList.length := by decide
  have hkey : eqIgnoreCase "Content-Length:".toList lengthKey = true := by decide
  rw [lengthValue?, lengthLine_eq, hlen, List.take_left, List.drop_left, if_pos hkey,
    trimChars_digits]

theorem notMem_lengthLine (n : Nat) : '\r' ∉ lengthLine n := by
  have hname : '\r' ∉ "Content-Length: ".toList := by decide
  have hdigit : isDigit '\r' = false := by decide
  intro h
  rcases List.mem_append.1 h with h | h
  · exact hname h
  · rw [digit_of_mem h] at hdigit
    cases hdigit

/-- The length in a header is the one that was written there. -/
theorem contentLength_lengthLine (h : n < lengthBound) :
    contentLength (Utf8.encode (lengthLine n)) = .ok n := by
  simp [contentLength, Utf8.decode?_encode, splitLines_of_notMem (notMem_lengthLine n),
    lengthValue?_lengthLine, readLength_digits h]

theorem encode_digits : ∀ {cs : List Char}, (∀ c ∈ cs, isDigit c) →
    Utf8.encode cs = cs.map fun c => UInt8.ofNat c.toNat
  | [], _ => rfl
  | c :: cs, h => by
    obtain ⟨hc, hs⟩ := List.forall_mem_cons.1 h
    have hle : c.toNat ≤ 127 := by
      have := toNat_of_digit hc
      omega
    have hone : String.utf8EncodeChar c = [UInt8.ofNat c.toNat] := by
      simp [String.utf8EncodeChar, hle]
    have hrest : cs.flatMap String.utf8EncodeChar = _ := encode_digits hs
    rw [Utf8.encode, List.flatMap_cons, hone, hrest]
    rfl

/-- The header of a frame is short and has no carriage return. -/
theorem encode_lengthLine (h : n < lengthBound) :
    (Utf8.encode (lengthLine n)).length ≤ 36 ∧ 13 ∉ Utf8.encode (lengthLine n) := by
  have hd : (Nat.toDigits 10 n).length ≤ 20 :=
    (Nat.length_toDigits_le_iff (by decide) (by decide)).2 (Nat.lt_of_lt_of_le h (by decide))
  have hlen : (Utf8.encode "Content-Length: ".toList).length = 16 := by decide
  have hname : 13 ∉ Utf8.encode "Content-Length: ".toList := by decide
  unfold lengthLine
  rw [Utf8.encode_append, encode_digits fun c hc => digit_of_mem hc]
  constructor
  · rw [List.length_append, List.length_map, hlen]
    omega
  · rw [List.mem_append, not_or]
    refine ⟨hname, fun hm => ?_⟩
    obtain ⟨c, hc, he⟩ := List.mem_map.1 hm
    have hc := toNat_of_digit (digit_of_mem hc)
    have he : c.toNat % 256 = 13 := congrArg UInt8.toNat he
    omega

theorem scan_write {body : List UInt8} (h : body.length < lengthBound) :
    scan (write body) = .frame body [] := by
  obtain ⟨hlen, hcr⟩ := encode_lengthLine h
  have hroom : (Utf8.encode (lengthLine body.length)).length + 4 ≤ maxHeader := by
    unfold maxHeader
    omega
  rw [write_eq, scan_of_complete (scanHeader_of_line hcr hroom body) (contentLength_lengthLine h),
    if_pos (Nat.le_refl _), List.take_length, List.drop_length]

end

/-! ## Streams -/

/-- What a writer makes of bodies that it is given one after the other. -/
def stream (bodies : List (List UInt8)) : List UInt8 := bodies.flatMap write

@[simp]
theorem stream_nil : stream [] = [] := rfl

@[simp]
theorem stream_cons (body : List UInt8) (bodies : List (List UInt8)) :
    stream (body :: bodies) = write body ++ stream bodies := List.flatMap_cons

theorem length_stream_take_le (bodies : List (List UInt8)) (k : Nat) :
    (stream (bodies.take k)).length ≤ (stream bodies).length := by
  have h : stream (bodies.take k) ++ stream (bodies.drop k) = stream bodies := by
    rw [stream, stream, ← List.flatMap_append, List.take_append_drop, stream]
  rw [← h, List.length_append]
  exact Nat.le_add_right ..

/-- A stream that is cut gives the bodies whose frames lie before the cut, and is at its end
then. -/
theorem readAll_take : ∀ {bodies : List (List UInt8)} (cut : Nat),
    (∀ body ∈ bodies, body.length < lengthBound) →
    ∃ m, readAll ((stream bodies).take cut) = (bodies.take m, .connectionClosed) ∧
      ∀ j < bodies.length, j < m ↔ (stream (bodies.take (j + 1))).length ≤ cut
  | [], cut, _ => by
    refine ⟨0, ?_, nofun⟩
    rw [stream_nil, List.take_nil]
    exact readAll_more rfl
  | body :: bodies, cut, h => by
    obtain ⟨hb, hs⟩ := List.forall_mem_cons.1 h
    have hw := scan_write hb
    rcases Nat.lt_or_ge cut (write body).length with hcut | hcut
    · have htake : (stream (body :: bodies)).take cut = (write body).take cut := by
        rw [stream_cons, List.take_append_of_le_length (Nat.le_of_lt hcut)]
      have hmore : scan ((write body).take cut) = .more := by
        rw [← List.take_append_drop cut (write body)] at hw
        refine scan_cut hw ?_
        rw [List.length_nil, List.length_drop]
        omega
      refine ⟨0, by rw [htake, readAll_more hmore]; rfl, fun j _ => ?_⟩
      rw [List.take_succ_cons, stream_cons, List.length_append]
      omega
    · obtain ⟨m, hread, hm⟩ := readAll_take (cut - (write body).length) hs
      have htake : (stream (body :: bodies)).take cut =
          write body ++ (stream bodies).take (cut - (write body).length) := by
        rw [stream_cons, List.take_append, List.take_of_length_le hcut]
      refine ⟨m + 1, ?_, fun j hj => ?_⟩
      · rw [htake, readAll_frame (scan_append hw _), List.nil_append, hread]
        rfl
      · rw [List.take_succ_cons, stream_cons, List.length_append]
        cases j with
        | zero => simpa using hcut
        | succ j =>
          have := hm j (by simpa using hj)
          omega

/-- Bodies that are written one after the other are read back as they were, in their order, and
then the stream is at its end. Where it is cut, the bodies are read whose frames lie before the cut
as a whole, and nothing else. -/
theorem readAll_written {bodies : List (List UInt8)}
    (h : ∀ body ∈ bodies, body.length < lengthBound) :
    readAll (stream bodies) = (bodies, .connectionClosed) ∧
      ∀ cut, ∃ m, readAll ((stream bodies).take cut) = (bodies.take m, .connectionClosed) ∧
        ∀ j < bodies.length, j < m ↔ (stream (bodies.take (j + 1))).length ≤ cut := by
  refine ⟨?_, fun cut => readAll_take cut h⟩
  obtain ⟨m, hread, hm⟩ := readAll_take (stream bodies).length h
  have hall : bodies.length ≤ m := by
    rcases Nat.eq_zero_or_pos bodies.length with h0 | hpos
    · omega
    · have := (hm (bodies.length - 1) (by omega)).2 (length_stream_take_le bodies _)
      omega
  rwa [List.take_length, List.take_of_length_le hall] at hread

/-- An empty body, one that looks like the beginning of a frame, and one that is no text. -/
def decoys : List (List UInt8) := [[], write [], [255, 13, 10, 13, 10]]

/-- A cut in the body that looks like a frame leaves the one before it. -/
theorem readAll_decoys : (∀ body ∈ decoys, body.length < lengthBound) ∧
    readAll (stream decoys) = (decoys, .connectionClosed) ∧
    readAll ((stream decoys).take 45) = ([[]], .connectionClosed) := by
  have hlen : ∀ body ∈ decoys, body.length < lengthBound := by decide
  obtain ⟨hall, hcut⟩ := readAll_written hlen
  obtain ⟨m, hread, hm⟩ := hcut 45
  have h0 : 0 < m := (hm 0 (by decide)).2 (by decide)
  have h1 : ¬ 1 < m := fun h => absurd ((hm 1 (by decide)).1 h) (by decide)
  obtain rfl : m = 1 := by omega
  exact ⟨hlen, hall, hread⟩

end Switchboard.Tools.Frame
