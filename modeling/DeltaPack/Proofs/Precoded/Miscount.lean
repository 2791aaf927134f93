import DeltaPack.Proofs.Precoded.Writing

/-!
# Reading with a wrong number of words

The stream of some words does not hold their number, which a reader is told apart from it. A wrong
number moves the residuals unless it takes as many tag bytes as the right one. If it does, nothing
tells the two apart.

* **Fewer words** are read as if the others were not there: the tags are cut, and the residuals of
  the first words stand where they stood.
* **More words** are read from the unused slots of the last tag byte. These hold zeros, which are
  the tag of the common difference and take no residual, so the stream of some differences is also
  that of the same differences with the common one repeated behind them
  (`encodeAround_append_replicate`). The words so added go on from the last word in steps of the
  common difference.
-/

namespace DeltaPack

/-! ### Sums of a repeated difference -/

namespace Delta

/-- The sums of some differences and then others: the others start from the last sum. -/
theorem sumsAfter_append (total : Int32) (first rest : List Int32) :
    sumsAfter total (first ++ rest) = sumsAfter total first ++
      sumsAfter ((sumsAfter total first).getLast?.getD total.toUInt32).toInt32 rest := by
  induction first generalizing total with
  | nil => simp [sumsAfter]
  | cons delta first ih => simp [sumsAfter, ih, List.getLast?_cons]

/-- One difference over and over: its multiples on top of the total. -/
theorem sumsAfter_replicate (total common : Int32) (count : Nat) :
    sumsAfter total (List.replicate count common) =
      (List.range count).map fun i => total.toUInt32 + UInt32.ofNat (i + 1) * common.toUInt32 := by
  induction count generalizing total with
  | zero => rfl
  | succ count ih =>
    have hstep (i : Nat) : (total + common).toUInt32 + UInt32.ofNat (i + 1) * common.toUInt32 =
        total.toUInt32 + UInt32.ofNat (i + 1 + 1) * common.toUInt32 := by
      rw [Int32.toUInt32_add, UInt32.ofNat_add (i + 1) 1, UInt32.add_mul, UInt32.ofNat_one,
        UInt32.one_mul, UInt32.add_assoc, UInt32.add_comm common.toUInt32]
    rw [List.replicate_succ, sumsAfter, ih, List.range_succ_eq_map, List.map_cons, List.map_map]
    refine congrArg₂ _ ?_ (List.map_congr_left fun i _ => hstep i)
    simp

/-- Fewer differences have fewer sums. -/
theorem sums_take (deltas : List Int32) (count : Nat) :
    sums (deltas.take count) = (sums deltas).take count := by
  rw [sums_eq_sumsAfter, sums_eq_sumsAfter]
  generalize (0 : Int32) = total
  induction deltas generalizing total count with
  | nil => simp [sumsAfter]
  | cons delta deltas ih =>
    cases count with
    | zero => rfl
    | succ count => exact congrArg (_ :: ·) (ih count (total + delta))

/-- The words of some differences go on from the last one if a difference is repeated behind
them. -/
theorem sums_differences_append_replicate {words : List UInt32} (hw : words ≠ [])
    (common : Int32) (count : Nat) :
    sums (differences words ++ List.replicate count common) = words ++
      (List.range count).map fun i =>
        words.getLast hw + UInt32.ofNat (i + 1) * common.toUInt32 := by
  have hwords : sumsAfter 0 (differences words) = words := by
    rw [← sums_eq_sumsAfter, sums_differences]
  rw [sums_eq_sumsAfter, sumsAfter_append, hwords, List.getLast?_eq_some_getLast hw,
    Option.getD_some, sumsAfter_replicate, UInt32.toUInt32_toInt32]

end Delta

namespace Precoded

/-! ### Unused slots -/

/-- Tags of the common difference in the unused slots of the last byte change nothing. -/
theorem Tag.pack_append_replicate {tags : List Tag} {count : Nat}
    (h : tagRegionSize (tags.length + count) = tagRegionSize tags.length) :
    pack (tags ++ List.replicate count .common) = pack tags := by
  rw [tagRegionSize, tagRegionSize] at h
  fun_induction pack tags with
  | case1 a b c d rest ih =>
    simp only [List.length_cons] at h
    exact congrArg (packByte a b c d :: ·) (ih (by omega))
  | case2 a b c =>
    rw [List.length_cons, List.length_cons, List.length_singleton] at h
    obtain rfl | rfl : count = 0 ∨ count = 1 := by omega
    · rfl
    · rfl
  | case3 a b =>
    rw [List.length_cons, List.length_singleton] at h
    obtain rfl | rfl | rfl : count = 0 ∨ count = 1 ∨ count = 2 := by omega
    · rfl
    · rfl
    · rfl
  | case4 a =>
    rw [List.length_singleton] at h
    obtain rfl | rfl | rfl | rfl : count = 0 ∨ count = 1 ∨ count = 2 ∨ count = 3 := by omega
    · rfl
    · rfl
    · rfl
    · rfl
  | case5 =>
    rw [List.length_nil] at h
    obtain rfl : count = 0 := by omega
    rfl

/-- **Some differences have the same stream as these with the common one behind them**, as long as
no tag byte is added. -/
theorem encodeAround_append_replicate {common : Int32} {deltas : List Int32} {count : Nat}
    (h : tagRegionSize (deltas.length + count) = tagRegionSize deltas.length) :
    encodeAround common (deltas ++ List.replicate count common) = encodeAround common deltas := by
  have hcommon : Tag.classify common common = .common := Tag.classify_eq_common_iff.2 rfl
  have hnone : residuals common (List.replicate count common) = [] := by
    rw [residuals, List.flatMap_replicate, Tag.residual, hcommon]
    simp [Tag.residualSize, LittleEndian.bytes]
  have htags : Tag.pack ((deltas ++ List.replicate count common).map (Tag.classify common)) =
      Tag.pack (deltas.map (Tag.classify common)) := by
    rw [List.map_append, List.map_replicate, hcommon]
    exact Tag.pack_append_replicate (by rwa [List.length_map])
  rw [encodeAround, htags, residuals_append, hnone, List.append_nil, encodeAround]

/-! ### Another number of words -/

/-- **With a smaller number that takes as many tag bytes**, the first differences are read. -/
theorem read_of_le {stream : List UInt8} {count other : Nat} (hle : other ≤ count)
    (hsize : tagRegionSize other = tagRegionSize count)
    (h : statedSize count stream ≤ stream.length) :
    read other stream = ⟨(read count stream).deltas.take other, none⟩ := by
  have hheader := Nat.le_trans (headerSize_le_statedSize count stream) h
  have hsame : headerSize other = headerSize count := by rw [headerSize, headerSize, hsize]
  have htags : tagsOf other stream = (tagsOf count stream).take other := by
    rw [tagsOf, tagsOf, Tag.unpack, Tag.unpack, List.take_take, Nat.min_eq_left hle, hsize]
  have hdemand : Tag.demand (tagsOf other stream) ≤ (stream.drop (headerSize count)).length := by
    have hfewer := Tag.demand_take_le (tagsOf count stream) other
    rw [statedSize] at h
    rw [List.length_drop, htags]
    omega
  have hlength : (readFrom (commonOf stream) (tagsOf other stream)
      (stream.drop (headerSize count)) 0 []).deltas.length = other := by
    rw [length_deltas_readFrom hdemand, length_tagsOf (by rwa [hsame]), List.length_nil,
      Nat.zero_add]
  have hread : read other stream = readFrom (commonOf stream) (tagsOf other stream)
      (stream.drop (headerSize count)) 0 [] := by
    rw [read, hsame]
  have hall : (read count stream).deltas = (read other stream).deltas ++
      (readFrom (commonOf stream) ((tagsOf count stream).drop other)
        ((stream.drop (headerSize count)).drop (Tag.demand (tagsOf other stream)))
        (0 + Tag.demand (tagsOf other stream)) []).deltas := by
    rw [hread, ← deltas_readFrom_append hdemand, htags, List.take_append_drop, read]
  rw [hall, List.take_left' (by rw [hread, hlength]), hread]
  exact congrArg (Reading.mk _)
    ((missing_readFrom_eq_none_iff (commonOf stream) (tagsOf other stream) _ 0 []).2 hdemand)

/-- **With any number that takes as many tag bytes**, a stream is read as its differences, cut or
with the common one behind them. -/
theorem read_encodeAround_of_tagRegionSize_eq {common : Int32} {deltas : List Int32} {count : Nat}
    (h : tagRegionSize count = tagRegionSize deltas.length) :
    read count (encodeAround common deltas) =
      ⟨(deltas ++ List.replicate (count - deltas.length) common).take count, none⟩ := by
  have hsize : tagRegionSize (deltas.length + (count - deltas.length)) =
      tagRegionSize deltas.length := by
    rcases Nat.le_total deltas.length count with hle | hle
    · rw [Nat.add_sub_cancel' hle, h]
    · rw [Nat.sub_eq_zero_of_le hle, Nat.add_zero]
  rw [← encodeAround_append_replicate hsize]
  generalize hpadded : deltas ++ List.replicate (count - deltas.length) common = padded
  have hlength : padded.length = deltas.length + (count - deltas.length) := by
    rw [← hpadded, List.length_append, List.length_replicate]
  have hread := read_encodeAround_append common padded []
  rw [List.append_nil] at hread
  have hheader : headerSize padded.length ≤ (encodeAround common padded).length := by
    rw [length_encodeAround]
    exact Nat.le_add_right ..
  rw [read_of_le (by omega) (by rw [hlength, hsize, h])
    ((missing_read_eq_none_iff hheader).1 (by rw [hread])), hread]

/-- What is decoded from the stream of some words with any number that takes as many tag bytes as
theirs. -/
theorem decodeInto_encode_of_tagRegionSize_eq {words slice : List UInt32} (hw : words ≠ [])
    {common : Int32} (hmode : Delta.mode words = some common)
    (h : tagRegionSize slice.length = tagRegionSize words.length) :
    decodeInto (encode words) slice =
      ⟨.ok slice.length, (words ++ (List.range (slice.length - words.length)).map fun i =>
        words.getLast hw + UInt32.ofNat (i + 1) * common.toUInt32).take slice.length⟩ := by
  have hs : slice ≠ [] := by
    rintro rfl
    have hpos := List.length_pos_iff.2 hw
    rw [tagRegionSize, tagRegionSize, List.length_nil] at h
    omega
  have hsize : tagRegionSize slice.length = tagRegionSize (Delta.differences words).length := by
    rw [h, Delta.length_differences]
  have hread := @read_encodeAround_of_tagRegionSize_eq common _ _ hsize
  rw [Delta.length_differences] at hread
  have hheader : headerSize slice.length ≤ (encode words).length := by
    rw [headerSize, h, ← headerSize]
    exact headerSize_le_length_encode hw
  rw [decodeInto_of_header hs hheader]
  rw [encode, hmode]
  simp only
  rw [hread]
  simp only
  rw [Delta.sums_take, Delta.sums_differences_append_replicate hw]
  generalize hlonger : (words ++ (List.range (slice.length - words.length)).map fun i =>
    words.getLast hw + UInt32.ofNat (i + 1) * common.toUInt32) = longer
  have hlength : (longer.take slice.length).length = slice.length := by
    rw [List.length_take, ← hlonger, List.length_append, List.length_map, List.length_range]
    omega
  rw [Filled.wrote, Filled.overlay_of_length_eq hlength.symm, hlength]

/-- **A wrong number of words that takes as many tag bytes as the right one is not noticed**, and it
has a meaning. With a smaller number the first words are read. With a larger one all words are read
and then, from the last one on, the multiples of the common difference are added to it. -/
theorem encodeInto_miscounted {words : List UInt32} (hw : words ≠ []) {buffer : List UInt8}
    (room : maxSize words.length ≤ buffer.length) :
    ∃ n common, (encodeInto words buffer).value.result = .ok n ∧
      Delta.mode words = some common ∧
      ∀ slice : List UInt32, tagRegionSize slice.length = tagRegionSize words.length →
        let outcome := decodeInto ((encodeInto words buffer).value.buffer.take n) slice
        outcome.result = .ok slice.length ∧
          (slice.length ≤ words.length → outcome.buffer = words.take slice.length) ∧
          (words.length < slice.length → outcome.buffer = words ++
            (List.range (slice.length - words.length)).map fun i =>
              words.getLast hw + UInt32.ofNat (i + 1) * common.toUInt32) := by
  obtain ⟨common, hmode, -⟩ := exists_encode_eq hw
  have hstream : (Filled.overlay (encode words) buffer).take (encode words).length =
      encode words := Filled.take_overlay _ _
  rw [encodeInto_value room]
  refine ⟨(encode words).length, common, rfl, hmode, fun slice h => ?_⟩
  simp only [Filled.wrote, hstream, decodeInto_encode_of_tagRegionSize_eq hw hmode h]
  refine ⟨trivial, fun hle => List.take_append_of_le_length hle, fun hlt => ?_⟩
  refine List.take_of_length_le ?_
  rw [List.length_append, List.length_map, List.length_range]
  omega

/-- Three words, read as one and as four. The common difference is negative, so the word that was
never written wraps. -/
theorem encodeInto_miscounted_three :
    let outcome := (encodeInto [300, 5, 8] (List.replicate 17 170)).value
    ([300, 5, 8] : List UInt32) ≠ [] ∧ maxSize 3 ≤ 17 ∧ outcome.result = .ok 8 ∧
      (decodeInto (outcome.buffer.take 8) [9]).buffer = [300] ∧
      (decodeInto (outcome.buffer.take 8) [9, 9, 9, 9]).buffer = [300, 5, 8, 4294967009] := by
  have hw : ([300, 5, 8] : List UInt32) ≠ [] := by decide
  have room : maxSize ([300, 5, 8] : List UInt32).length ≤
      (List.replicate 17 (170 : UInt8)).length := by decide
  obtain ⟨n, common, hn, hcommon, hread⟩ := encodeInto_miscounted hw room
  have hwritten : (encodeInto [300, 5, 8] (List.replicate 17 170)).value.result = .ok 8 := rfl
  obtain rfl : n = 8 := Except.ok.inj (hn.symm.trans hwritten)
  have hmode : Delta.mode [300, 5, 8] = some (-295) := rfl
  obtain rfl : common = -295 := Option.some.inj (hcommon.symm.trans hmode)
  have hwrapped : (List.range 1).map (fun i => (8 : UInt32) +
      UInt32.ofNat (i + 1) * (-295 : Int32).toUInt32) = [4294967009] := by decide
  obtain ⟨-, -, hlonger⟩ := hread [9, 9, 9, 9] rfl
  exact ⟨hw, by decide, hwritten, (hread [9] rfl).2.1 (by decide),
    (hlonger (by decide)).trans (congrArg ([300, 5, 8] ++ ·) hwrapped)⟩

end Precoded

end DeltaPack
