import DeltaPack.OneShot
import DeltaPack.Proofs.Lz4.Machine
import DeltaPack.Proofs.Precoded.Machine

/-!
# No size overflows

The sizes of all stages, computed in words of 64 bits with every sum and product checked, are those
of the library. For the pre-coded stream this is so for as many words as one object can hold, whose
bound is at most `2 ^ 63 + 2 ^ 59`. The standard compressor reserves a tenth more than this, which
fits a word by a wide margin. For a compression it is so without any condition, as it looks at the
length of its source first.
-/

namespace DeltaPack

open Machine

namespace Lz4

variable {count length : Nat}

/-- The room that packing `count` words asks for. -/
def packedSize? (c : Lz4) (count : Nat) : Option Nat := do
  let stream ← Precoded.maxSize? count
  c.maxCompressedSize? stream

/-- The standard compressor reserves 1.1 bytes for one, and some for each chunk. -/
theorem maxCompressedSize_standard_lt (h : length ≤ 2 ^ 63 + 2 ^ 59) :
    standard.maxCompressedSize length < 2 ^ 64 := by
  have hbound : standard.maxCompressedSize length ≤
      1 + (length / maxBlockInput + 1) * chunkBound maxBlockInput :=
    maxFramedSize_le standard.chunkLimit_pos
  have hchunk : chunkBound maxBlockInput = 2325322161 := by decide
  rw [hchunk, maxBlockInput] at hbound
  omega

theorem packedSize?_standard (h : count ≤ 2 ^ 61 - 1) :
    standard.packedSize? count = some (OneShot.compressedBufferSize count) := by
  have hmax := Precoded.maxSize_le h
  rw [packedSize?, Precoded.maxSize?_eq (by omega), Option.bind_eq_bind, fit_bind_of_lt (by omega),
    maxCompressedSize?_eq, fit_of_lt (maxCompressedSize_standard_lt hmax)]
  rfl

end Lz4

/-- **No size overflows** for lists that can exist. The bounds for as many words as one object can
hold are computed in machine words, and so are the results of encoding and decoding so many, those of
refusals included. A compression never overflows, whatever its chunk limit and its source, although
its bound alone does, for lengths that fit a word: they are refused before. -/
theorem Machine.sizes_fit :
    (∀ count, count ≤ 2 ^ 61 - 1 →
        Precoded.tagRegionSize? count = some (Precoded.tagRegionSize count) ∧
          Precoded.maxSize? count = some (Precoded.maxSize count) ∧
          Precoded.workspaceSize? count = some (OneShot.workingSpaceSize count) ∧
          Lz4.standard.packedSize? count = some (OneShot.compressedBufferSize count)) ∧
      (∀ (words : List UInt32) (buffer : List UInt8), words.length ≤ 2 ^ 61 - 1 →
        Precoded.encodeResult? words buffer =
          some (Precoded.encodeInto words buffer).value.result) ∧
      (∀ (stream : List UInt8) (slice : List UInt32), slice.length ≤ 2 ^ 61 - 1 →
        Precoded.decodeResult? stream slice = some (Precoded.decodeInto stream slice).result) ∧
      (∀ (c : Lz4) (source target : List UInt8),
        c.compressResult? source target = some (c.compress source target).result) ∧
      ∃ (c : Lz4) (length : Nat), length < 2 ^ 64 ∧ c.maxInputSize < length ∧
        c.maxCompressedSize? length = none := by
  refine ⟨fun count h => ?_, fun words buffer h => Precoded.encodeResult?_eq h buffer,
    fun stream slice h => Precoded.decodeResult?_eq h stream, Lz4.compressResult?_eq,
    .ofChunkLimit 1, 2 ^ 60, by decide, by decide, Lz4.maxCompressedSize?_ofChunkLimit_one⟩
  have hmax := Precoded.maxSize_le h
  have hsize : Precoded.maxSize? count = some (Precoded.maxSize count) := by
    rw [Precoded.maxSize?_eq (by omega), fit_of_lt (by omega)]
  exact ⟨Precoded.tagRegionSize?_eq (by omega), hsize, hsize, Lz4.packedSize?_standard h⟩

/-- The longest list, two words and a stream of them that is cut, and a source of too many chunks. -/
theorem Machine.sizes_fit_longest :
    Precoded.maxSize? (2 ^ 61 - 1) = some (2 ^ 63 + 2 ^ 59) ∧
      Lz4.standard.packedSize? (2 ^ 61 - 1) = some 10779816176552621805 ∧
      Precoded.encodeResult? [5, 6] (List.replicate 13 0) = some (.ok 6) ∧
      Precoded.decodeResult? [1, 0, 0, 0, 13, 9] [0, 0] = some (.error (.truncatedStream 10 6)) ∧
      (Lz4.ofChunkLimit 1).compressResult? (List.replicate 200 0) [] =
        some (.error (.inputTooLarge 200 127)) := by
  obtain ⟨hsizes, hencode, hdecode, hcompress, -⟩ := sizes_fit
  obtain ⟨-, hmax, -, hpacked⟩ := hsizes (2 ^ 61 - 1) (by decide)
  refine ⟨hmax, hpacked, (hencode [5, 6] _ (by decide)).trans ?_,
    (hdecode [1, 0, 0, 0, 13, 9] [0, 0] (by decide)).trans ?_, (hcompress _ _ _).trans ?_⟩
  · decide +kernel
  · rfl
  · decide +kernel

end DeltaPack
