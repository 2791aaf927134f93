import DeltaPack.Precoded.Encode
import DeltaPack.Proofs.Delta.Mode
import DeltaPack.Proofs.Precoded.Walk

/-!
# The pre-coded stream delimits itself

The stream of a word list holds neither its own length nor the number of its words. Given that
number, a written stream is exactly as long as its own tags state (`statedSize_encode`). It is
therefore read back whatever follows it (`decodeInto_encode_append`), and none of its strict
prefixes is accepted (`decodeInto_result_of_isPrefix`).
-/

namespace DeltaPack.Precoded

/-! ### Sizes -/

theorem length_residuals (common : Int32) (deltas : List Int32) :
    (residuals common deltas).length = Tag.demand (deltas.map (Tag.classify common)) := by
  induction deltas with
  | nil => rfl
  | cons delta rest ih =>
    rw [residuals, List.flatMap_cons, List.length_append, ← residuals, ih, Tag.length_residual,
      List.map_cons, Tag.demand_cons]

/-- A stream is as long as its tags say. -/
theorem length_encodeAround (common : Int32) (deltas : List Int32) :
    (encodeAround common deltas).length =
      headerSize deltas.length + Tag.demand (deltas.map (Tag.classify common)) := by
  rw [encodeAround, List.length_append, List.length_append, LittleEndian.length_bytes,
    Tag.length_pack, List.length_map, length_residuals, headerSize, Nat.add_assoc]

theorem encode_nil : encode [] = [] := by
  rw [encode, Delta.mode_eq_none_iff.2 rfl]

/-- The stream of a list that is not empty is that of its differences around some common one. -/
theorem exists_encode_eq {words : List UInt32} (h : words ≠ []) :
    ∃ common, Delta.mode words = some common ∧
      encode words = encodeAround common (Delta.differences words) := by
  rcases hmode : Delta.mode words with _ | common
  · exact absurd (Delta.mode_eq_none_iff.1 hmode) h
  · exact ⟨common, rfl, by rw [encode, hmode]⟩

/-- A stream is as long as its tags say, around the common difference of its words. -/
theorem length_encode_eq {words : List UInt32} {common : Int32}
    (hmode : Delta.mode words = some common) :
    (encode words).length = headerSize words.length +
      Tag.demand ((Delta.differences words).map (Tag.classify common)) := by
  rw [encode, hmode, length_encodeAround, Delta.length_differences]

/-- The bound for some words is their header and four bytes for each. -/
theorem maxSize_eq {count : Nat} (h : count ≠ 0) :
    maxSize count = headerSize count + 4 * count := if_neg h

/-- A stream fits wherever the largest one does. -/
theorem length_encode_le (words : List UInt32) : (encode words).length ≤ maxSize words.length := by
  by_cases h : words = []
  · simp [h, encode_nil]
  · obtain ⟨common, hmode, -⟩ := exists_encode_eq h
    have hdemand := Tag.demand_le ((Delta.differences words).map (Tag.classify common))
    rw [List.length_map, Delta.length_differences] at hdemand
    rw [length_encode_eq hmode, maxSize_eq (mt List.length_eq_zero_iff.1 h)]
    omega

/-- Every stream but that of the empty list has a whole header. -/
theorem headerSize_le_length_encode {words : List UInt32} (h : words ≠ []) :
    headerSize words.length ≤ (encode words).length := by
  obtain ⟨common, hmode, -⟩ := exists_encode_eq h
  rw [length_encode_eq hmode]
  exact Nat.le_add_right ..

/-- Only the empty list has an empty stream. -/
theorem length_encode_pos {words : List UInt32} (h : words ≠ []) : 0 < (encode words).length := by
  have hheader := headerSize_le_length_encode h
  rw [headerSize, commonSize] at hheader
  omega

/-- The largest stream of so many words is at most seventeen times as long as theirs, whose tags
alone take a byte for four words. -/
theorem maxSize_le_mul_length_encode (words : List UInt32) :
    maxSize words.length ≤ 17 * (encode words).length := by
  by_cases h : words = []
  · simp [h, maxSize]
  · have hheader := headerSize_le_length_encode h
    rw [maxSize_eq (mt List.length_eq_zero_iff.1 h)]
    rw [headerSize, tagRegionSize] at *
    omega

/-! ### The header -/

theorem commonOf_encodeAround (common : Int32) (deltas : List Int32) :
    commonOf (encodeAround common deltas) = common := by
  have hlo := common.le_toInt
  have hhi := common.toInt_lt
  have hread : LittleEndian.signed (LittleEndian.bytes 4 common.toUInt32.toNat) = common.toInt :=
    LittleEndian.signed_bytes_word_of_mem (Nat.le_refl 4)
      (by simp only [LittleEndian.capacity]; omega) (by simp only [LittleEndian.capacity]; omega)
  rw [commonOf, encodeAround, List.take_left' (LittleEndian.length_bytes _ _), commonSize, hread,
    Int32.ofInt_toInt]

theorem tagsOf_encodeAround (common : Int32) (deltas : List Int32) :
    tagsOf deltas.length (encodeAround common deltas) = deltas.map (Tag.classify common) := by
  have hpack := Tag.length_pack (deltas.map (Tag.classify common))
  have hunpack := Tag.unpack_pack (deltas.map (Tag.classify common))
  rw [List.length_map] at hpack hunpack
  rw [tagsOf, encodeAround, List.drop_left' (LittleEndian.length_bytes _ _),
    List.take_left' hpack, hunpack]

/-- **A written stream is exactly as long as its own tags state.** -/
theorem statedSize_encode {words : List UInt32} (h : words ≠ []) :
    statedSize words.length (encode words) = (encode words).length := by
  obtain ⟨common, -, hstream⟩ := exists_encode_eq h
  have htags := tagsOf_encodeAround common (Delta.differences words)
  rw [Delta.length_differences] at htags
  rw [statedSize, hstream, htags, length_encodeAround, Delta.length_differences]

/-! ### Reading back -/

/-- The residuals of differences are read back as these, whatever follows them. -/
theorem readFrom_residuals (common : Int32) (deltas : List Int32) (rest : List UInt8)
    (position : Nat) (done : List Int32) :
    readFrom common (deltas.map (Tag.classify common)) (residuals common deltas ++ rest) position
      done = ⟨done.reverse ++ deltas, none⟩ := by
  induction deltas generalizing position done with
  | nil => simp [readFrom]
  | cons delta deltas ih =>
    have hlen := Tag.length_residual common delta
    have hsplit : residuals common (delta :: deltas) ++ rest =
        Tag.residual common delta ++ (residuals common deltas ++ rest) := by
      rw [residuals, List.flatMap_cons, ← residuals, List.append_assoc]
    rw [List.map_cons, readFrom, hsplit, List.take_left' hlen, List.drop_left' hlen, hlen,
      if_neg (Nat.lt_irrefl _), Tag.delta_residual, ih]
    simp

/-- A stream is read back as the differences it was written from, whatever follows it. -/
theorem read_encodeAround_append (common : Int32) (deltas : List Int32) (rest : List UInt8) :
    read deltas.length (encodeAround common deltas ++ rest) = ⟨deltas, none⟩ := by
  have hlen := length_encodeAround common deltas
  have hheader : (LittleEndian.bytes commonSize common.toUInt32.toNat ++
      Tag.pack (deltas.map (Tag.classify common))).length = headerSize deltas.length := by
    rw [List.length_append, LittleEndian.length_bytes, Tag.length_pack, List.length_map, headerSize]
  have hbody : (encodeAround common deltas ++ rest).drop (headerSize deltas.length) =
      residuals common deltas ++ rest := by
    rw [encodeAround, ← List.append_assoc, List.append_assoc, List.drop_left' hheader]
  rw [read, commonOf_append (by rw [hlen, headerSize]; omega), commonOf_encodeAround,
    tagsOf_append (by omega), tagsOf_encodeAround, hbody, readFrom_residuals]
  rfl

/-- **The words of a stream are read back**, whatever follows it. -/
theorem decodeInto_encode_append {words slice : List UInt32} (h : slice.length = words.length)
    (rest : List UInt8) : decodeInto (encode words ++ rest) slice = .wrote words slice := by
  by_cases hw : words = []
  · have hs : slice = [] := List.eq_nil_of_length_eq_zero (by rw [h, hw]; rfl)
    rw [hw, hs]
    rfl
  · obtain ⟨common, -, hstream⟩ := exists_encode_eq hw
    have hread := read_encodeAround_append common (Delta.differences words) rest
    rw [Delta.length_differences, ← hstream, ← h] at hread
    have hheader : headerSize slice.length ≤ (encode words ++ rest).length := by
      have := headerSize_le_statedSize words.length (encode words)
      rw [statedSize_encode hw] at this
      rw [List.length_append, h]
      omega
    rw [decodeInto_of_header (ne_nil_of_length_eq hw h) hheader]
    simp only [hread, Delta.sums_differences]

/-- **A strict prefix of a stream is refused as truncated.** -/
theorem decodeInto_result_of_isPrefix {words slice : List UInt32} (hw : words ≠ [])
    (h : slice.length = words.length) {stream : List UInt8} (hpre : stream <+: encode words)
    (hne : stream ≠ encode words) :
    ∃ needed, (decodeInto stream slice).result =
      .error (.truncatedStream needed stream.length) := by
  have hlt : stream.length < (encode words).length :=
    Nat.lt_of_le_of_ne hpre.length_le fun heq => hne (hpre.eq_of_length heq)
  refine decodeInto_of_cut (ne_nil_of_length_eq hw h) hpre ?_
  rwa [h, statedSize_encode hw]

/-- **What writing comes to**: no words take no room, and any others the room for the largest
stream of so many. -/
theorem encodeInto_cases (words : List UInt32) (buffer : List UInt8) :
    (words = [] ∧ (encodeInto words buffer).value = .wrote [] buffer) ∨
      (words ≠ [] ∧ buffer.length < maxSize words.length ∧ (encodeInto words buffer).value =
        .refused (.bufferTooSmall (maxSize words.length) buffer.length) buffer) ∨
      (words ≠ [] ∧ maxSize words.length ≤ buffer.length ∧
        (encodeInto words buffer).value = .wrote (encode words) buffer) := by
  rw [encodeInto, encode]
  rcases hmode : Delta.mode words with _ | common
  · exact .inl ⟨Delta.mode_eq_none_iff.1 hmode, rfl⟩
  · have hw : words ≠ [] := by
      rintro rfl
      rw [Delta.mode_eq_none_iff.2 rfl] at hmode
      cases hmode
    rcases Nat.lt_or_ge buffer.length (maxSize words.length) with hshort | hroom
    · exact .inr (.inl ⟨hw, hshort, by simp only [if_pos hshort, Traced.value_pure]⟩)
    · exact .inr (.inr ⟨hw, hroom, by simp only [if_neg (Nat.not_lt.2 hroom)]; rfl⟩)

/-- Words are written into every buffer that has room for the largest stream. -/
theorem encodeInto_value {words : List UInt32} {buffer : List UInt8}
    (h : maxSize words.length ≤ buffer.length) :
    (encodeInto words buffer).value = .wrote (encode words) buffer := by
  obtain ⟨rfl, heq⟩ | ⟨-, hshort, -⟩ | ⟨-, -, heq⟩ := encodeInto_cases words buffer
  · rw [heq, encode_nil]
  · exact absurd h (Nat.not_le.2 hshort)
  · exact heq

/-- What was written, if anything could be: the stream of the words. -/
theorem take_encodeInto_of_ok {words : List UInt32} {buffer : List UInt8} {n : Nat}
    (h : (encodeInto words buffer).value.result = .ok n) :
    n = (encode words).length ∧ (encodeInto words buffer).value.buffer.take n = encode words := by
  obtain ⟨rfl, heq⟩ | ⟨-, -, heq⟩ | ⟨-, -, heq⟩ := encodeInto_cases words buffer
  · rw [heq] at h ⊢
    obtain rfl := Except.ok.inj h
    exact ⟨congrArg List.length encode_nil.symm, encode_nil.symm⟩
  · rw [heq] at h
    cases h
  · rw [heq] at h ⊢
    obtain rfl := Except.ok.inj h
    exact ⟨rfl, List.take_left⟩

/-! ### Self-delimitation -/

/-- **The stream of a list delimits itself for its count.** It is written into every buffer with
room for the largest stream. With the number of words, the bytes written are read back as the
words whatever follows them, and no strict prefix of them is accepted. -/
theorem encodeInto_selfDelimiting {words : List UInt32} {buffer : List UInt8}
    (room : maxSize words.length ≤ buffer.length) :
    ∃ n, (encodeInto words buffer).value.result = .ok n ∧ n ≤ buffer.length ∧
      let stream := (encodeInto words buffer).value.buffer.take n
      (∀ (rest : List UInt8) (slice : List UInt32), slice.length = words.length →
        (decodeInto (stream ++ rest) slice).result = .ok words.length ∧
          (decodeInto (stream ++ rest) slice).buffer = words) ∧
      (words ≠ [] → ∀ (cut : List UInt8) (slice : List UInt32), slice.length = words.length →
        cut <+: stream → cut ≠ stream →
        ∃ needed, (decodeInto cut slice).result = .error (.truncatedStream needed cut.length)) := by
  have hstream : (Filled.overlay (encode words) buffer).take (encode words).length =
      encode words := List.take_left
  rw [encodeInto_value room]
  refine ⟨(encode words).length, rfl, Nat.le_trans (length_encode_le words) room, ?_⟩
  simp only [Filled.wrote, hstream]
  refine ⟨fun rest slice h => ?_, fun hw cut slice h hpre hne => ?_⟩
  · rw [decodeInto_encode_append h rest]
    refine ⟨rfl, ?_⟩
    rw [Filled.wrote, Filled.overlay, ← h, List.drop_length, List.append_nil]
  · exact decodeInto_result_of_isPrefix hw h hpre hne

/-- Three words with residuals of zero, two and four bytes. -/
theorem encodeInto_selfDelimiting_three :
    let outcome := (encodeInto [300, 5, 100000] (List.replicate 17 170)).value
    maxSize 3 ≤ 17 ∧ ∃ n, outcome.result = .ok n ∧
      (decodeInto (outcome.buffer.take n ++ [1, 2]) [9, 9, 9]).buffer = [300, 5, 100000] ∧
      ∃ needed, (decodeInto ((outcome.buffer.take n).take 10) [9, 9, 9]).result =
        .error (.truncatedStream needed 10) := by
  have room : maxSize ([300, 5, 100000] : List UInt32).length ≤
      (List.replicate 17 (170 : UInt8)).length := by decide
  obtain ⟨n, hn, -, hread, hcut⟩ := encodeInto_selfDelimiting room
  have hwritten : (encodeInto [300, 5, 100000] (List.replicate 17 170)).value.result = .ok 11 := rfl
  obtain rfl : n = 11 := Except.ok.inj (hn.symm.trans hwritten)
  exact ⟨by decide, 11, hn, (hread [1, 2] [9, 9, 9] rfl).2,
    hcut (by decide) _ [9, 9, 9] rfl (List.take_prefix 10 _) (by decide)⟩

end DeltaPack.Precoded
