import DeltaPack.Proofs.Lz4.Restored

/-!
# Which refusals are put on record

A refused source gives zero, as does one that restores nothing, so the log is the only place where
the two differ. Most refusals leave one record there: every fault of a block, and a chunk header
that is cut. Two leave none, a source without a first byte and a chunk length that is negative or
runs past the end (`Fault.isRecorded`).

Which refusals are silent can be said without the chunk loop (`Unrecorded`). The chunk loop meets an
impossible length only behind frames that it accepted, so what `Restores` says of accepted frames
says here where the loop stood.
-/

namespace DeltaPack.Lz4

variable {limit room count : Nat} {input : List UInt8}

/-! ### Impossible lengths -/

/-- Bytes that begin with an **impossible length**: four bytes which, as a signed number, are
negative or more than the bytes behind them. -/
def Misstated (input : List UInt8) : Prop :=
  ∃ field rest, input = field ++ rest ∧ field.length = 4 ∧
    (LittleEndian.signed field < 0 ∨ (rest.length : Int) < LittleEndian.signed field)

/-- The length of a chunk is refused exactly if it is impossible. -/
theorem splitChunk_eq_chunkLength_iff :
    splitChunk input = .error .chunkLength ↔ Misstated input := by
  constructor
  · intro h
    rw [splitChunk] at h
    simp only at h
    split_ifs at h with hshort hlength
    · cases h
    have hfield : (input.take chunkLengthSize).length = chunkLengthSize :=
      Nat.le_antisymm (List.length_take_le ..) (Nat.le_of_not_lt hshort)
    have hcapacity : LittleEndian.capacity (input.take chunkLengthSize).length =
        2 * chunkLengthLimit := by
      rw [hfield, capacity_chunkLengthSize]
    refine ⟨_, _, (List.take_append_drop chunkLengthSize input).symm, hfield, ?_⟩
    by_cases hnegative : chunkLengthLimit ≤ LittleEndian.value (input.take chunkLengthSize)
    · exact .inl (LittleEndian.signed_neg_of_le (by omega))
    · have hlong := hlength.resolve_left hnegative
      rw [List.length_take] at hlong
      rw [LittleEndian.signed_of_lt (by omega)]
      right
      omega
  · rintro ⟨field, rest, rfl, hfield, hsigned⟩
    change field.length = chunkLengthSize at hfield
    have hcapacity : LittleEndian.capacity field.length = 2 * chunkLengthLimit := by
      rw [hfield, capacity_chunkLengthSize]
    rw [splitChunk, List.take_left' hfield, List.drop_left' hfield, if_neg (by omega)]
    refine if_pos ?_
    by_cases hnegative : chunkLengthLimit ≤ LittleEndian.value field
    · exact .inl hnegative
    · rw [LittleEndian.signed_of_lt (by omega)] at hsigned
      right
      rw [List.length_take]
      omega

theorem splitChunk_ne_emptySource : splitChunk input ≠ .error .emptySource := by
  intro h
  rw [splitChunk] at h
  simp only at h
  split_ifs at h <;> cases h

theorem decodeChunks_ne_emptySource :
    decodeChunks limit count room input ≠ .error .emptySource := by
  intro h
  obtain ⟨_, rest, _, -, -, -, -, hfault⟩ := exists_restores_chunkProgress limit count room input
  obtain ⟨-, hsplit | ⟨cause, hcause⟩⟩ := hfault _ (Progress.result_eq_error_iff.1 h)
  · exact splitChunk_ne_emptySource hsplit
  · cases hcause

/-- **The chunk loop meets an impossible length** exactly if one stands behind fewer frames than
were asked for, all of which it accepts. -/
theorem decodeChunks_eq_chunkLength_iff :
    decodeChunks limit count room input = .error .chunkLength ↔
      ∃ bytes rest pieces, input = bytes ++ rest ∧ Restores limit room bytes pieces ∧
        pieces.length < count ∧ Misstated rest := by
  constructor
  · intro h
    obtain ⟨bytes, rest, pieces, hinput, hrestores, -, -, hfault⟩ :=
      exists_restores_chunkProgress limit count room input
    obtain ⟨hcount, hsplit | ⟨cause, hcause⟩⟩ := hfault _ (Progress.result_eq_error_iff.1 h)
    · exact ⟨bytes, rest, pieces, hinput, hrestores, hcount, splitChunk_eq_chunkLength_iff.1 hsplit⟩
    · cases hcause
  · rintro ⟨bytes, rest, pieces, rfl, hrestores, hcount, hrest⟩
    obtain ⟨others, rfl⟩ := Nat.exists_eq_add_of_lt hcount
    rw [Nat.add_assoc, decodeChunks_append_of_restores hrestores,
      decodeChunks_of_splitChunk_error (splitChunk_eq_chunkLength_iff.2 hrest)]
    rfl

/-! ### Silent refusals -/

/-- Sources that are refused **without a record**: those without a byte, and those in which an
impossible length stands where the chunk loop looks for one. -/
def Unrecorded (limit room : Nat) (source : List UInt8) : Prop :=
  source = [] ∨ ∃ number bytes rest pieces, source = number :: (bytes ++ rest) ∧
    Restores limit room bytes pieces ∧ pieces.length < number.toNat ∧ Misstated rest

theorem isRecorded_eq_false_iff {fault : Fault} :
    fault.isRecorded = false ↔ fault = .emptySource ∨ fault = .chunkLength := by
  cases fault <;> simp [Fault.isRecorded]

section Decompress

variable {c : Lz4} {source target : List UInt8}

/-- A decoder fails without a record exactly on these sources. -/
theorem exists_decode_eq_unrecorded_iff :
    (∃ fault, c.decode room source = .error fault ∧ fault.isRecorded = false) ↔
      Unrecorded c.chunkLimit room source := by
  constructor
  · rintro ⟨fault, hdecode, hfault⟩
    match source with
    | [] => exact .inl rfl
    | number :: input =>
      right
      by_cases hnumber : number = 0
      · -- the faults of a single block are all recorded
        subst hnumber
        rw [decode_zero] at hdecode
        rcases hblock : decodeBlock room input with cause | restored
        · rw [hblock] at hdecode
          rw [← Except.error.inj hdecode] at hfault
          cases hfault
        · rw [hblock] at hdecode
          cases hdecode
      · rw [decode_count hnumber] at hdecode
        rcases isRecorded_eq_false_iff.1 hfault with rfl | rfl
        · exact absurd hdecode decodeChunks_ne_emptySource
        · obtain ⟨bytes, rest, pieces, rfl, hframes⟩ := decodeChunks_eq_chunkLength_iff.1 hdecode
          exact ⟨number, bytes, rest, pieces, rfl, hframes⟩
  · rintro (rfl | ⟨number, bytes, rest, pieces, rfl, hrestores, hcount, hrest⟩)
    · exact ⟨.emptySource, rfl, rfl⟩
    · have hnumber : number ≠ 0 := by
        rintro rfl
        exact Nat.not_lt_zero _ hcount
      refine ⟨.chunkLength, ?_, rfl⟩
      rw [decode_count hnumber]
      exact decodeChunks_eq_chunkLength_iff.2 ⟨bytes, rest, pieces, rfl, hrestores, hcount, hrest⟩

/-- What is restored leaves no record. -/
theorem events_decompress_of_ok {restored : List UInt8}
    (h : c.decode target.length source = .ok restored) :
    (c.decompress source target).events = [] := by
  rw [decompress, Progress.result_eq_ok_iff.1 h]
  rfl

/-- A refusal leaves one record if its fault is put on record. -/
theorem events_decompress_of_error {fault : Fault}
    (h : c.decode target.length source = .error fault) :
    (c.decompress source target).events =
      if fault.isRecorded then [.lz4Refused fault] else [] := by
  rw [decompress, Progress.result_eq_error_iff.1 h]
  rcases hrecorded : fault.isRecorded <;> simp only [hrecorded] <;> rfl

end Decompress

/-- **A refusal leaves exactly one record, or none if the source is empty or states an impossible
length.** The record is for debugging and names the fault. What is restored is counted, stands at
the front of the target and leaves no record. -/
theorem decompress_recorded (c : Lz4) (source target : List UInt8) :
    let outcome := c.decompress source target
    (∀ restored, c.decode target.length source = .ok restored →
        outcome.value.1 = restored.length ∧ outcome.value.2.take restored.length = restored ∧
          outcome.events = []) ∧
      (Unrecorded c.chunkLimit target.length source →
        outcome.value.1 = 0 ∧ outcome.events = []) ∧
      ∀ fault, c.decode target.length source = .error fault →
        outcome.value.1 = 0 ∧
          (¬Unrecorded c.chunkLimit target.length source → ∃ event, outcome.events = [event] ∧
            event.level = .debug ∧ event.message = "lz4 decompress failed: " ++ fault.message) := by
  intro outcome
  refine ⟨fun restored h => ?_, fun hsilent => ?_, fun fault h => ?_⟩
  · have hvalue : outcome.value = _ := value_decompress_of_ok h
    rw [hvalue]
    exact ⟨rfl, Filled.take_overlay restored target, events_decompress_of_ok h⟩
  · obtain ⟨fault, h, hfault⟩ := exists_decode_eq_unrecorded_iff.2 hsilent
    have hevents : outcome.events = _ := events_decompress_of_error h
    rw [hfault] at hevents
    exact ⟨value_decompress_fst_of_error h, hevents⟩
  · refine ⟨value_decompress_fst_of_error h, fun hloud => ?_⟩
    have hrecorded : fault.isRecorded = true := Bool.of_not_eq_false fun hfault =>
      hloud (exists_decode_eq_unrecorded_iff.1 ⟨fault, h, hfault⟩)
    have hevents : outcome.events = _ := events_decompress_of_error h
    rw [hrecorded] at hevents
    exact ⟨.lz4Refused fault, hevents, rfl, rfl⟩

/-- A header that is cut is recorded. A length that is negative is not, here behind a frame that was
restored. -/
theorem decompress_recorded_three :
    let cut := standard.decompress [3, 1, 2] [9, 9]
    let negative := standard.decompress (2 :: (frames [[7]] ++ [255, 255, 255, 255])) [9, 9]
    let single := standard.decompress (1 :: (frames [[7]] ++ [255, 255, 255, 255])) [9, 9]
    (cut.value.1 = 0 ∧ ∃ event, cut.events = [event] ∧ event.level = .debug ∧
        event.message = "lz4 decompress failed: truncated chunk header") ∧
      (negative.value.1 = 0 ∧ negative.events = []) ∧
      single.value.1 = 1 ∧ single.value.2.take 1 = [7] ∧ single.events = [] := by
  intro cut negative single
  have hcut : standard.decode [9, 9].length [3, 1, 2] = .error .truncatedHeader := rfl
  have hloud : ¬Unrecorded standard.chunkLimit [9, 9].length [3, 1, 2] := by
    intro hsilent
    obtain ⟨fault, hdecode, hfault⟩ := exists_decode_eq_unrecorded_iff.2 hsilent
    obtain rfl : fault = .truncatedHeader := Except.error.inj (hdecode.symm.trans hcut)
    cases hfault
  have hrestores : Restores standard.chunkLimit [9, 9].length (frames (List.replicate 1 [7]))
      (List.replicate 1 [7]) := restores_frames_replicate 7 (by decide) (by decide)
  have hlength : Misstated [255, 255, 255, 255] :=
    ⟨[255, 255, 255, 255], [], rfl, rfl, .inl (by decide)⟩
  obtain ⟨-, -, hrefused⟩ := decompress_recorded standard [3, 1, 2] [9, 9]
  obtain ⟨-, hsilent, -⟩ :=
    decompress_recorded standard (2 :: (frames [[7]] ++ [255, 255, 255, 255])) [9, 9]
  obtain ⟨hrestored, -⟩ :=
    decompress_recorded standard (1 :: (frames [[7]] ++ [255, 255, 255, 255])) [9, 9]
  obtain ⟨hvalue, hrecord⟩ := hrefused _ hcut
  have hdecode := decodeChunks_of_restores hrestores [255, 255, 255, 255]
  exact ⟨⟨hvalue, hrecord hloud⟩,
    hsilent (.inr ⟨2, _, _, [[7]], rfl, hrestores, by decide, hlength⟩), hrestored [7] hdecode⟩

/-- **Some refusals leave no record**: those of a negative length and of a source without a byte. -/
theorem decompress_negativeLength :
    standard.decode 2 [1, 255, 255, 255, 255] = .error .chunkLength ∧
      (standard.decompress [1, 255, 255, 255, 255] [9, 9]).value.1 = 0 ∧
      (standard.decompress [1, 255, 255, 255, 255] [9, 9]).events = [] ∧
      standard.decode 2 [] = .error .emptySource ∧
      (standard.decompress [] [9, 9]).value.1 = 0 ∧
      (standard.decompress [] [9, 9]).events = [] := by
  have hnegative : standard.decode (List.replicate 2 (9 : UInt8)).length
      [1, 255, 255, 255, 255] = .error .chunkLength := rfl
  have hempty : standard.decode (List.replicate 2 (9 : UInt8)).length [] = .error .emptySource :=
    rfl
  have hsilent := events_decompress_of_error hnegative
  have hsilentEmpty := events_decompress_of_error hempty
  exact ⟨hnegative, value_decompress_fst_of_error hnegative, hsilent,
    hempty, value_decompress_fst_of_error hempty, hsilentEmpty⟩

end DeltaPack.Lz4
