import DeltaPack.OneShot
import DeltaPack.Proofs.Pack
import Mathlib.Control.Monad.Basic

/-!
# One-shot calls end to end

Three stages have to agree: the differences and their tags, the framing of chunks, and the matches
of each block. What is handed from one to the next is a list of bytes, so the agreement is that of
their sizes. The working space is sized from the number of words and holds every stream of that
many words, hence the one that was packed; and a stream that is not empty is not mistaken for a
refused source, which gives no bytes.

* `compress_roundTrip`: what was packed is unpacked, as signed or as unsigned values.
* `decompress_of_cut`: no strict prefix of what was packed is unpacked. A cut that the byte
  compressor accepts leaves a strict prefix of the stream, which is shorter than its tags say.
-/

namespace DeltaPack.OneShot

open Compressor (Suffices suffices_none rebuild rebuild_encode)

variable {α β : Type} [Word32 α] [Word32 β]

/-! ### The stages put together -/

/-- Lists of the same length are as long in words. -/
theorem length_toWords_eq {values : List α} {slice : List β} (h : slice.length = values.length) :
    (Word32.toWords slice).length = (Word32.toWords values).length := by
  rw [Word32.length_toWords, Word32.length_toWords, h]

/-- What a list is packed to, if it is. -/
theorem eq_container_of_compress {values : List α} {bytes : List UInt8}
    (h : (compress values).value = .ok bytes) :
    (Precoded.encode (Word32.toWords values)).length ≤ Lz4.standard.maxInputSize ∧
      bytes = Lz4.standard.container (Precoded.encode (Word32.toWords values)) := by
  rw [compress, Compressor.value_packed] at h
  exact Lz4.eq_container_of_taken_compress h

theorem value_decompressInto (compressed : List UInt8) (slice : List β)
    (workspace : Option (List UInt8)) :
    (decompressInto compressed slice workspace).value =
      (compressor.unpack compressed (Word32.toWords slice) workspace).value.map Word32.ofWord := rfl

/-- Nothing was restored, and the slice is as it was. -/
theorem map_wrote_nil (slice : List β) :
    (Filled.wrote [] (Word32.toWords slice)).map Word32.ofWord = Filled.wrote [] slice := by
  have hback : (Word32.toWords slice).map Word32.ofWord = slice := Word32.ofWords_toWords slice
  simp only [Filled.map, Filled.wrote, Filled.overlay, List.nil_append, List.length_nil,
    List.drop_zero, hback]

/-- Words that fill a slice. -/
theorem map_wrote_of_length {words : List UInt32} {slice : List β}
    (h : slice.length = words.length) :
    (Filled.wrote words (Word32.toWords slice)).map Word32.ofWord =
      ⟨.ok words.length, (Word32.ofWords words : List β)⟩ := by
  have hlength : (Word32.toWords slice).length = words.length := by rw [Word32.length_toWords, h]
  rw [Filled.map, Filled.wrote, Filled.overlay_of_length_eq hlength]
  rfl

/-- The working space for a number of values holds the stream of any so many. -/
theorem length_encode_le_workspaceSize {values : List α} {slice : List β}
    (h : slice.length = values.length) :
    (Precoded.encode (Word32.toWords values)).length ≤
      Precoded.workspaceSize (Word32.toWords slice).length := by
  rw [Word32.length_toWords, h, ← Word32.length_toWords values]
  exact Precoded.length_encode_le _

/-- Packed values are unpacked into every slice of their number. -/
theorem value_decompressInto_of_compress {values : List α} {bytes : List UInt8}
    (h : (compress values).value = .ok bytes) {slice : List β} {workspace : Option (List UInt8)}
    (hslice : slice.length = values.length) (hspace : Suffices workspace values.length) :
    (decompressInto bytes slice workspace).value =
      ⟨.ok values.length, Word32.ofWords (Word32.toWords values)⟩ := by
  obtain ⟨hsource, rfl⟩ := eq_container_of_compress h
  have hlength := Word32.length_toWords values
  have hwords := length_toWords_eq hslice
  rw [value_decompressInto, compressor, Lz4.value_unpack_of_ok (by rwa [hwords, hlength])
    (Lz4.decode_container hsource (length_encode_le_workspaceSize hslice)), rebuild_encode hwords,
    map_wrote_of_length (by rw [hlength, hslice]), hlength]

/-- Refused bytes leave every slice alone. -/
theorem value_decompressInto_of_error {compressed : List UInt8} {slice : List β}
    {workspace : Option (List UInt8)} {fault : Lz4.Fault} (hspace : Suffices workspace slice.length)
    (h : Lz4.standard.decode (Precoded.workspaceSize slice.length) compressed = .error fault) :
    (decompressInto compressed slice workspace).value = .wrote [] slice := by
  rw [← Word32.length_toWords slice] at hspace h
  rw [value_decompressInto, compressor, Lz4.value_unpack_of_error hspace h, map_wrote_nil]

/-- A cut source rebuilds no slice of the number of values that were packed. -/
theorem value_decompressInto_of_cut {values : List α} {bytes cut : List UInt8}
    (hvalues : values ≠ []) (h : (compress values).value = .ok bytes) (hcut : cut <+: bytes)
    (hne : cut ≠ bytes) {slice : List β} {workspace : Option (List UInt8)}
    (hslice : slice.length = values.length) (hspace : Suffices workspace values.length) :
    (decompressInto cut slice workspace).value = .wrote [] slice ∨
      ∃ needed actual, (decompressInto cut slice workspace).value.result =
        .error (.truncatedStream needed actual) := by
  obtain ⟨hsource, rfl⟩ := eq_container_of_compress h
  have hwords := length_toWords_eq hslice
  rw [← hslice] at hspace
  rcases hdecode : Lz4.standard.decode (Precoded.workspaceSize slice.length) cut with fault | part
  · exact .inl (value_decompressInto_of_error hspace hdecode)
  · rw [← Word32.length_toWords slice] at hspace hdecode
    obtain ⟨hpre, hlt⟩ :=
      Lz4.decode_of_cut hsource (length_encode_le_workspaceSize hslice) hcut hne hdecode
    rw [value_decompressInto, compressor, Lz4.value_unpack_of_ok hspace hdecode, rebuild]
    split_ifs with hpart
    · left
      exact map_wrote_nil slice
    -- some bytes of the stream are missing, and its tags ask for them
    · right
      have hwordsNe : Word32.toWords values ≠ [] := by
        rw [Word32.toWords, Ne, List.map_eq_nil_iff]
        exact hvalues
      have hpartNe : part ≠ Precoded.encode (Word32.toWords values) := by
        rintro rfl
        exact Nat.lt_irrefl _ hlt
      obtain ⟨needed, hneeded⟩ :=
        Precoded.decodeInto_result_of_isPrefix hwordsNe hwords hpre hpartNe
      exact ⟨needed, part.length, hneeded⟩

/-- A working space that is too short is refused before anything is restored. -/
theorem value_decompressInto_of_not_suffices {compressed : List UInt8} {slice : List β}
    {workspace : Option (List UInt8)} (h : ¬Suffices workspace slice.length) :
    ∃ needed actual, (decompressInto compressed slice workspace).value.result =
      .error (.bufferTooSmall needed actual) := by
  rw [← Word32.length_toWords slice] at h
  obtain ⟨space, -, -, hvalue⟩ :=
    Compressor.value_unpack_of_not_suffices compressor compressed h
  refine ⟨Precoded.workspaceSize (Word32.toWords slice).length, space.length, ?_⟩
  rw [value_decompressInto, hvalue]
  rfl

/-- A slice that was filled is the list. -/
theorem value_decompress_of_ok {compressed : List UInt8} {count : Nat} {filled : List β}
    (h : (decompressInto compressed (List.replicate count (Word32.ofWord 0 : β)) none).value =
      ⟨.ok count, filled⟩) :
    (decompress compressed count : Traced (Except PackError (List β))).value = .ok filled := by
  simp only [decompress, Traced.value_bind, h, if_pos, Traced.value_pure]

/-- A slice for which nothing was restored means that the source was refused, unless nothing was
asked for. -/
theorem value_decompress_of_zero {compressed : List UInt8} {count : Nat} {filled : List β}
    (hcount : count ≠ 0)
    (h : (decompressInto compressed (List.replicate count (Word32.ofWord 0 : β)) none).value =
      ⟨.ok 0, filled⟩) :
    (decompress compressed count : Traced (Except PackError (List β))).value =
      .error (.compressionFailed (.rejected compressed.length count (Word32.name β))) := by
  simp only [decompress, Traced.value_bind, h, if_neg hcount.symm, Traced.value_pure]

theorem value_decompress_of_error {compressed : List UInt8} {count : Nat} {reason : PackError}
    (h : (decompressInto compressed (List.replicate count (Word32.ofWord 0 : β)) none).value.result =
      .error reason) :
    (decompress compressed count : Traced (Except PackError (List β))).value = .error reason := by
  simp only [decompress, Traced.value_bind, h, Traced.value_pure]

/-! ### Unpacking what was packed -/

/-- **Round trip across signedness**: a list is packed to the same bytes whichever way its words
are seen, and these bytes are unpacked as either. -/
theorem compress_roundTrip (values : List α) :
    (compress (Word32.ofWords (Word32.toWords values) : List β)).value = (compress values).value ∧
      ∀ bytes, (compress values).value = .ok bytes →
        (decompress bytes values.length : Traced (Except PackError (List β))).value =
            .ok (Word32.ofWords (Word32.toWords values)) ∧
          ∀ (slice : List β) (workspace : Option (List UInt8)), slice.length = values.length →
            (∀ space, workspace = some space → workingSpaceSize values.length ≤ space.length) →
            (decompressInto bytes slice workspace).value.result = .ok values.length ∧
              (decompressInto bytes slice workspace).value.buffer =
                Word32.ofWords (Word32.toWords values) := by
  refine ⟨?_, fun bytes h => ⟨?_, fun slice workspace hslice hspace => ?_⟩⟩
  · rw [compress, compress, Word32.toWords_ofWords]
  · have hzeros : (List.replicate values.length (Word32.ofWord 0 : β)).length = values.length :=
      List.length_replicate
    exact value_decompress_of_ok
      (value_decompressInto_of_compress h hzeros (suffices_none values.length))
  · rw [value_decompressInto_of_compress h hslice hspace]
    exact ⟨rfl, rfl⟩

/-- Equal negative values, whose stream has a match, unpacked as unsigned values. -/
theorem compress_roundTrip_negative :
    let ints : List Int32 := List.replicate 48 (-1)
    let words : List UInt32 := List.replicate 48 4294967295
    let bytes := [0, 80, 0, 0, 0, 0, 1, 5, 0, 128, 0, 0, 0, 0, 0, 0, 0, 255]
    let outcome :=
      (decompressInto bytes (List.replicate 48 (7 : UInt32)) (some (List.replicate 208 9))).value
    (compress ints).value = .ok bytes ∧ (compress words).value = .ok bytes ∧
      (decompress bytes 48 : Traced (Except PackError (List UInt32))).value = .ok words ∧
      workingSpaceSize 48 ≤ 208 ∧ outcome.result = .ok 48 ∧ outcome.buffer = words := by
  intro ints words bytes outcome
  have hwords : Word32.ofWords (Word32.toWords ints) = words := by decide
  have hpacked : (compress ints).value = .ok bytes := by decide +kernel
  obtain ⟨hsame, hunpack⟩ := @compress_roundTrip Int32 UInt32 _ _ ints
  rw [hwords] at hsame hunpack
  obtain ⟨hlist, hslice⟩ := hunpack bytes hpacked
  have hspace : workingSpaceSize 48 ≤ (List.replicate 208 (9 : UInt8)).length := by
    rw [List.length_replicate]
    decide
  have hlength : (List.replicate 48 (7 : UInt32)).length = ints.length := by decide
  obtain ⟨hcount, hfilled⟩ := hslice _ (some _) hlength (by rintro _ ⟨⟩; exact hspace)
  exact ⟨hpacked, hsame.trans hpacked, hlist, by decide, hcount, hfilled⟩

/-! ### Sources that were cut -/

/-- **A cut is detected**: of a list that is not empty, no strict prefix of the packed bytes is
unpacked to as many values, and a slice is left alone or the stream is reported as too short. -/
theorem decompress_of_cut {values : List α} {bytes cut : List UInt8} (hvalues : values ≠ [])
    (h : (compress values).value = .ok bytes) (hcut : cut <+: bytes) (hne : cut ≠ bytes) :
    ((decompress cut values.length : Traced (Except PackError (List β))).value =
          .error (.compressionFailed (.rejected cut.length values.length (Word32.name β))) ∨
        ∃ needed actual, (decompress cut values.length : Traced (Except PackError (List β))).value =
          .error (.truncatedStream needed actual)) ∧
      ∀ (slice : List β) (workspace : Option (List UInt8)), slice.length = values.length →
        (decompressInto cut slice workspace).value.result ≠ .ok values.length ∧
          ((∀ space, workspace = some space → workingSpaceSize values.length ≤ space.length) →
            ((decompressInto cut slice workspace).value.result = .ok 0 ∧
                (decompressInto cut slice workspace).value.buffer = slice) ∨
              ∃ needed actual, (decompressInto cut slice workspace).value.result =
                .error (.truncatedStream needed actual)) := by
  have hcount : values.length ≠ 0 := mt List.length_eq_zero_iff.1 hvalues
  refine ⟨?_, fun slice workspace hslice => ?_⟩
  · have hzeros : (List.replicate values.length (Word32.ofWord 0 : β)).length = values.length :=
      List.length_replicate
    obtain hnone | ⟨needed, actual, hshort⟩ :=
      value_decompressInto_of_cut hvalues h hcut hne hzeros (suffices_none values.length)
    · exact .inl (value_decompress_of_zero hcount hnone)
    · exact .inr ⟨needed, actual, value_decompress_of_error hshort⟩
  · by_cases hspace : Suffices workspace values.length
    · obtain hnone | ⟨needed, actual, hshort⟩ :=
        value_decompressInto_of_cut hvalues h hcut hne hslice hspace
      · rw [hnone]
        exact ⟨fun heq => hcount (Except.ok.inj heq).symm, fun _ => .inl ⟨rfl, rfl⟩⟩
      · rw [hshort]
        exact ⟨nofun, fun _ => .inr ⟨needed, actual, rfl⟩⟩
    · refine ⟨?_, fun hlarge => absurd hlarge hspace⟩
      rw [← hslice] at hspace
      obtain ⟨needed, actual, hrefused⟩ := value_decompressInto_of_not_suffices hspace
      rw [hrefused]
      exact nofun

/-- A cut after the literals of the first sequence, which the block decoder accepts. -/
theorem decompress_of_cut_literals :
    let ints : List Int32 := List.replicate 48 (-1)
    let bytes := [0, 80, 0, 0, 0, 0, 1, 5, 0, 128, 0, 0, 0, 0, 0, 0, 0, 255]
    let cut := [0, 80, 0, 0, 0, 0, 1]
    let outcome := (decompressInto cut (List.replicate 48 (7 : Int32)) none).value
    ints ≠ [] ∧ (compress ints).value = .ok bytes ∧ cut <+: bytes ∧ cut ≠ bytes ∧
      (decompress cut 48 : Traced (Except PackError (List Int32))).value ≠ .ok ints ∧
      ((outcome.result = .ok 0 ∧ outcome.buffer = List.replicate 48 7) ∨
        ∃ needed actual, outcome.result = .error (.truncatedStream needed actual)) := by
  intro ints bytes cut outcome
  have hints : ints ≠ [] := by decide
  have hpacked : (compress ints).value = .ok bytes := by decide +kernel
  have hcut : cut <+: bytes := by decide
  have hne : cut ≠ bytes := by decide
  obtain ⟨hlist, hslice⟩ := @decompress_of_cut Int32 Int32 _ _ ints bytes cut hints hpacked hcut hne
  refine ⟨hints, hpacked, hcut, hne, ?_, (hslice _ none (by decide)).2 nofun⟩
  have hcount : ints.length = 48 := by decide
  rw [hcount] at hlist
  obtain hrejected | ⟨needed, actual, hshort⟩ := hlist
  · rw [hrejected]
    exact nofun
  · rw [hshort]
    exact nofun

end DeltaPack.OneShot
