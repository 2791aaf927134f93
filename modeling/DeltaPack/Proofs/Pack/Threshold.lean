import DeltaPack.Proofs.Lz4.Bound
import DeltaPack.Proofs.Pack

/-!
# How much room packing needs

The caller reserves a buffer for the number of words. The compressor asks for the bound of the
stream that these words really have. The stream is never longer than the largest one of so many
words, and the bound grows with the length, so the reserved buffer always suffices; any other
buffer does exactly if it holds the bound of the stream. What is written then is the container of
the stream, which neither the length of the buffer nor its contents have a part in
(`pack_threshold`).
-/

namespace DeltaPack.Lz4

/-- Packing words of a stream that is not too long succeeds exactly in the buffers that hold the
bound of the stream. -/
theorem pack_eq_ok_iff {c : Lz4} {words : List UInt32}
    (h : (Precoded.encode words).length ≤ c.maxInputSize) (output : List UInt8) :
    (∃ n, (c.compressor.pack words output).value.result = .ok n) ↔
      c.maxCompressedSize (Precoded.encode words).length ≤ output.length := by
  rw [Compressor.value_pack]
  change (∃ n, (c.compress (Precoded.encode words) output).result = .ok n) ↔ _
  obtain ⟨hlong, -⟩ | ⟨-, hshort, heq⟩ | ⟨-, hroom, heq⟩ :=
    compress_cases c (Precoded.encode words) output
  · exact absurd h (Nat.not_le.2 hlong)
  · rw [heq]
    refine iff_of_false ?_ (Nat.not_le.2 hshort)
    rintro ⟨n, hn⟩
    cases hn
  · rw [heq]
    exact iff_of_true ⟨_, rfl⟩ hroom

/-- What packing writes, if it succeeds. -/
theorem take_pack_of_ok {c : Lz4} {words : List UInt32} {output : List UInt8} {n : Nat}
    (h : (c.compressor.pack words output).value.result = .ok n) :
    n = (c.container (Precoded.encode words)).length ∧
      (c.compressor.pack words output).value.buffer.take n =
        c.container (Precoded.encode words) := by
  rw [Compressor.value_pack] at h ⊢
  change (c.compress (Precoded.encode words) output).result = .ok n at h
  change _ ∧ (c.compress (Precoded.encode words) output).buffer.take n = _
  obtain ⟨-, heq⟩ | ⟨-, -, heq⟩ | ⟨-, -, heq⟩ := compress_cases c (Precoded.encode words) output
  · rw [heq] at h
    cases h
  · rw [heq] at h
    cases h
  · rw [heq] at h ⊢
    obtain rfl := Except.ok.inj h
    exact ⟨rfl, List.take_left⟩

/-- The bound of the stream is at most the room that is reserved for so many words. -/
theorem maxCompressedSize_length_encode_le (c : Lz4) (words : List UInt32) :
    c.maxCompressedSize (Precoded.encode words).length ≤ c.compressor.packedSize words.length :=
  maxCompressedSize_mono c (Precoded.length_encode_le words)

/-- The room that is reserved for words that can be packed fits a word of 64 bits. -/
theorem packedSize_lt {c : Lz4} {words : List UInt32}
    (h : (Precoded.encode words).length ≤ c.maxInputSize) :
    c.compressor.packedSize words.length < 2 ^ 64 := by
  have hsize := Precoded.maxSize_le_mul_length_encode words
  have hchunks : Precoded.maxSize words.length ≤ 17 * 127 * c.chunkLimit := by
    rw [maxInputSize, maxInput, maxChunks] at h
    omega
  exact maxCompressedSize_lt (by omega) hchunks

/-- **The reserved room suffices, and the room there is has no influence.** Words whose stream is
not too long are packed into exactly the buffers that hold the bound of the stream, which the
reserved room does. All buffers receive the same bytes. This rests on the bound: it grows with
the length, and fits a word of 64 bits wherever it is asked for, as does the product that is divided
on the way. -/
theorem pack_threshold (c : Lz4) :
    (∀ words : List UInt32, (Precoded.encode words).length ≤ c.maxInputSize →
      let bound := c.maxCompressedSize (Precoded.encode words).length
      (∀ output : List UInt8,
        (∃ n, (c.compressor.pack words output).value.result = .ok n) ↔ bound ≤ output.length) ∧
      bound ≤ c.compressor.packedSize words.length ∧
      c.compressor.packedSize words.length < 2 ^ 64 ∧
      ∀ (first second : List UInt8) (n m : Nat),
        (c.compressor.pack words first).value.result = .ok n →
        (c.compressor.pack words second).value.result = .ok m →
        n = m ∧ (c.compressor.pack words first).value.buffer.take n =
          (c.compressor.pack words second).value.buffer.take m) ∧
    Monotone c.maxCompressedSize ∧
    (∀ length, length ≤ c.maxInputSize → c.maxCompressedSize length < 2 ^ 64) ∧
    ∀ part, part ≤ c.chunkLimit → part * 110 < 2 ^ 64 := by
  have hlimit := c.chunkLimit_le
  rw [maxBlockInput] at hlimit
  refine ⟨fun words h => ⟨pack_eq_ok_iff h, maxCompressedSize_length_encode_le c words,
    packedSize_lt h, ?_⟩, maxCompressedSize_mono c, fun length h => ?_, fun part h => by omega⟩
  · intro first second n m hfirst hsecond
    obtain ⟨hn, hfirstBytes⟩ := take_pack_of_ok hfirst
    obtain ⟨hm, hsecondBytes⟩ := take_pack_of_ok hsecond
    exact ⟨hn.trans hm.symm, hfirstBytes.trans hsecondBytes.symm⟩
  · have hchunks : length ≤ maxChunks * c.chunkLimit := h
    exact maxCompressedSize_lt (by decide) hchunks

/-- Three words with a stream of eleven bytes, which is cut in two: a buffer of exactly the bound,
the reserved one, and one a byte too short. -/
theorem pack_threshold_three :
    let c := ofChunkLimit 7
    let words : List UInt32 := [300, 5, 100000]
    let exactly := (c.compressor.pack words (List.replicate 60 0)).value
    let reserved := (c.compressor.pack words (List.replicate 90 9)).value
    (Precoded.encode words).length ≤ c.maxInputSize ∧ c.compressor.packedSize 3 = 90 ∧
      (¬∃ n, (c.compressor.pack words (List.replicate 59 0)).value.result = .ok n) ∧
      ∃ n, exactly.result = .ok n ∧ reserved.result = .ok n ∧
        exactly.buffer.take n = reserved.buffer.take n := by
  intro c words exactly reserved
  have hlength : (Precoded.encode words).length = 11 := rfl
  have hsource : (Precoded.encode words).length ≤ c.maxInputSize := by
    rw [hlength]
    decide
  have hbound : c.maxCompressedSize (Precoded.encode words).length = 60 := by
    rw [hlength]
    decide
  obtain ⟨hroom, -, -, hsame⟩ := (pack_threshold c).1 words hsource
  rw [hbound] at hroom
  have hshort : ¬60 ≤ (List.replicate 59 (0 : UInt8)).length := by decide
  obtain ⟨n, hn⟩ := (hroom (List.replicate 60 0)).2 (by decide)
  obtain ⟨m, hm⟩ := (hroom (List.replicate 90 9)).2 (by decide)
  obtain ⟨rfl, hbytes⟩ := hsame _ _ n m hn hm
  exact ⟨hsource, by decide, mt (hroom _).1 hshort, n, hn, hm, hbytes⟩

end DeltaPack.Lz4
