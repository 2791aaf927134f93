import DeltaPack.Proofs.OneShot

/-!
# Refused bytes and empty lists

The byte compressor says no by restoring nothing, and unpacking into a slice hands this on as a
count of zero. Unpacking to a new list has to tell refused bytes from those of an empty list, and
does so by comparing the count with the number of values asked for. So refused bytes are an error
for every number of values but zero. There the comparison sees zero either way, and every byte
string is unpacked to the empty list, refused or not (`decompress_of_refused`).

The other direction rests on the length of the slice, which no outcome of unpacking changes
(`length_buffer_decompressInto`): a list that is unpacked has as many values as were asked for.
-/

namespace DeltaPack

/-! ### The slice keeps its length -/

namespace Precoded

/-- A walk reads no more differences than there are tags. -/
theorem length_deltas_readFrom_le (common : Int32) (tags : List Tag) (bytes : List UInt8)
    (position : Nat) (done : List Int32) :
    (readFrom common tags bytes position done).deltas.length ≤ done.length + tags.length := by
  induction tags generalizing bytes position done with
  | nil => simp [readFrom]
  | cons tag tags ih =>
    rw [readFrom]
    split_ifs with hshort
    · rw [List.length_reverse]
      exact Nat.le_add_right ..
    · have hnext := ih (bytes.drop tag.residualSize) (position + tag.residualSize)
        (tag.delta common (bytes.take tag.residualSize) :: done)
      rw [List.length_cons] at hnext ⊢
      omega

/-- **Decoding keeps the length of the slice**, whether the stream is decoded or refused. -/
theorem length_buffer_decodeInto (stream : List UInt8) (slice : List UInt32) :
    (decodeInto stream slice).buffer.length = slice.length := by
  by_cases hs : slice = []
  · subst hs
    rfl
  rcases Nat.lt_or_ge stream.length (headerSize slice.length) with hcut | hheader
  · rw [decodeInto, if_neg (mt List.length_eq_zero_iff.1 hs), if_pos hcut]
    rfl
  · have hwords : (Delta.sums (read slice.length stream).deltas).length ≤ slice.length := by
      have hdeltas := length_deltas_readFrom_le (commonOf stream) (tagsOf slice.length stream)
        (stream.drop (headerSize slice.length)) 0 []
      rwa [length_tagsOf hheader, List.length_nil, Nat.zero_add, ← read,
        ← Delta.length_sums] at hdeltas
    rw [decodeInto_of_header hs hheader]
    rcases (read slice.length stream).missing with _ | stop <;> exact Filled.length_overlay hwords

end Precoded

/-- Unpacking keeps the length of the slice. -/
theorem Compressor.length_buffer_unpack (c : Compressor) (compressed : List UInt8)
    (slice : List UInt32) (workspace : Option (List UInt8)) :
    (c.unpack compressed slice workspace).value.buffer.length = slice.length := by
  by_cases hspace : Suffices workspace slice.length
  · obtain ⟨room, -, hvalue⟩ := value_unpack c compressed hspace
    rw [hvalue]
    simp only
    split_ifs
    · rfl
    · exact Precoded.length_buffer_decodeInto ..
  · obtain ⟨_, -, -, hvalue⟩ := value_unpack_of_not_suffices c compressed hspace
    rw [hvalue]
    rfl

namespace OneShot

variable {β : Type} [Word32 β]

theorem length_buffer_decompressInto (compressed : List UInt8) (slice : List β)
    (workspace : Option (List UInt8)) :
    (decompressInto compressed slice workspace).value.buffer.length = slice.length := by
  rw [value_decompressInto, Filled.map, List.length_map, Compressor.length_buffer_unpack,
    Word32.length_toWords]

/-! ### What a list is unpacked to -/

/-- A list that is unpacked has as many values as were asked for. -/
theorem length_of_decompress_eq_ok {compressed : List UInt8} {count : Nat} {values : List β}
    (h : (decompress compressed count : Traced (Except PackError (List β))).value = .ok values) :
    values.length = count := by
  have hlength := length_buffer_decompressInto compressed
    (List.replicate count (Word32.ofWord 0 : β)) none
  rw [List.length_replicate] at hlength
  simp only [decompress, Traced.value_bind] at h
  split at h
  · cases h
  · split_ifs at h
    rw [← Except.ok.inj h]
    exact hlength

/-- Of no values, every byte string is accepted. -/
theorem value_decompress_zero (compressed : List UInt8) :
    (decompress compressed 0 : Traced (Except PackError (List β))).value = .ok [] := by
  refine value_decompress_of_ok ?_
  rw [value_decompressInto]
  obtain ⟨room, -, hvalue⟩ := Compressor.value_unpack compressor compressed
    (Compressor.suffices_none ([] : List UInt32).length)
  -- an empty slice is complete, whatever was restored
  have hdecode (stream : List UInt8) : Precoded.decodeInto stream [] = .wrote [] [] := rfl
  simp only [hdecode, ite_self] at hvalue
  change ((compressor.unpack compressed [] none).value).map _ = _
  rw [hvalue]
  rfl

/-- Refused bytes are an error if some values were asked for. -/
theorem value_decompress_of_refused {compressed : List UInt8} {count : Nat} {fault : Lz4.Fault}
    (hcount : count ≠ 0)
    (h : Lz4.standard.decode (Precoded.maxSize count) compressed = .error fault) :
    (decompress compressed count : Traced (Except PackError (List β))).value =
      .error (.compressionFailed (.rejected compressed.length count (Word32.name β))) := by
  have hlength : (List.replicate count (Word32.ofWord 0 : β)).length = count :=
    List.length_replicate
  exact value_decompress_of_zero hcount
    (value_decompressInto_of_error (Compressor.suffices_none _) (by rwa [hlength]))

/-- **Refused bytes are an error exactly if some values were asked for.** If none were, they are
unpacked to the empty list, as all bytes are, so that an empty list tells nothing about the bytes it
comes from. -/
theorem decompress_of_refused (compressed : List UInt8) (count : Nat) :
    let outcome := (decompress compressed count : Traced (Except PackError (List β))).value
    (outcome = .ok [] ↔ count = 0) ∧
      ∀ fault, Lz4.standard.decode (Precoded.maxSize count) compressed = .error fault →
        ((∃ reason, outcome = .error reason) ↔ count ≠ 0) ∧
          (count ≠ 0 → outcome =
            .error (.compressionFailed (.rejected compressed.length count (Word32.name β)))) := by
  intro outcome
  have hempty : outcome = .ok [] ↔ count = 0 := by
    constructor
    · intro h
      exact (length_of_decompress_eq_ok h).symm
    · rintro rfl
      exact value_decompress_zero compressed
  refine ⟨hempty, fun fault hrefused => ⟨⟨?_, fun hcount => ?_⟩, fun hcount => ?_⟩⟩
  · rintro ⟨reason, hreason⟩ hcount
    rw [hempty.2 hcount] at hreason
    cases hreason
  · exact ⟨_, value_decompress_of_refused hcount hrefused⟩
  · exact value_decompress_of_refused hcount hrefused

/-- A source that ends in its first field, for three values and for none. -/
theorem decompress_of_refused_garbage :
    (decompress [5, 5] 3 : Traced (Except PackError (List UInt32))).value =
        .error (.compressionFailed (.rejected 2 3 "u32")) ∧
      (decompress [5, 5] 0 : Traced (Except PackError (List UInt32))).value = .ok [] := by
  obtain ⟨-, hthree⟩ := @decompress_of_refused UInt32 _ [5, 5] 3
  obtain ⟨hnone, -⟩ := @decompress_of_refused UInt32 _ [5, 5] 0
  have hrefused : Lz4.standard.decode (Precoded.maxSize 3) [5, 5] = .error .truncatedHeader := rfl
  exact ⟨(hthree _ hrefused).2 (by decide), hnone.2 rfl⟩

/-- **Refused bytes pass for an empty list**: the source is cut in its first field and unpacked all
the same, as no values. -/
theorem decompress_garbage_zero :
    Lz4.standard.decode (Precoded.maxSize 0) [5, 5] = .error .truncatedHeader ∧
      (decompress [5, 5] 0 : Traced (Except PackError (List UInt32))).value = .ok [] :=
  ⟨rfl, value_decompress_zero [5, 5]⟩

end OneShot

end DeltaPack
