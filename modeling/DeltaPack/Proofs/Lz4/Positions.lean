import DeltaPack.Proofs.Lz4.Decompress
import DeltaPack.Proofs.Window

/-!
# Decompressing by position

A container is decompressed here the way a program in buffers does it. The length of a chunk is read
as a signed number, each chunk is decoded into a window of the target that starts behind what was
written before, and the number of bytes written is carried along. Every access is checked: `none`
is an access out of range.

There is none, whatever the source is (`decompressAt_eq`). Negative lengths and lengths that are
too large are refused before anything is split off, and the number of bytes written stays within
the target, because a block never restores more than its window holds.
-/

namespace DeltaPack.Lz4

/-! ### Decompression by position -/

/-- Splits off the chunk behind its length field, by position. -/
def splitChunkAt (input : List UInt8) : Option (Except Fault (List UInt8 × List UInt8)) :=
  if input.length < chunkLengthSize then some (.error .truncatedHeader)
  else do
    let field ← window? input 0 chunkLengthSize
    let tail ← window? input chunkLengthSize input.length
    let length := LittleEndian.signed field
    if length < 0 ∨ (tail.length : Int) < length then some (.error .chunkLength)
    else do
      let chunk ← window? tail 0 length.toNat
      let rest ← window? tail length.toNat tail.length
      some (.ok (chunk, rest))

/-- Decodes a number of chunks into a target that was written up to some position. The outcome is
the position behind the last chunk, or the fault of the first that is refused, with the target as
it was written until then. -/
def decodeChunksAt (limit : Nat) : (count written : Nat) → (input target : List UInt8) →
    Option (Except Fault Nat × List UInt8)
  | 0, written, _, target => some (.ok written, target)
  | count + 1, written, input, target => do
    match ← splitChunkAt input with
    | .error fault => some (.error fault, target)
    | .ok (chunk, input) => do
      let stop := min target.length (written + limit)
      let window ← window? target written stop
      match decodeBlock window.length chunk with
      | .error cause => some (.error (.block cause), target)
      | .ok restored => do
        let target ← fill? restored written stop target
        decodeChunksAt limit count (written + restored.length) input target

/-- Decompresses a source into a target, by position. -/
def decompressAt (c : Lz4) (source target : List UInt8) : Option (Nat × List UInt8) :=
  match source with
  | [] => some (0, target)
  | count :: input =>
    if count = 0 then
      match decodeBlock target.length input with
      | .error _ => some (0, target)
      | .ok restored => do
        let target ← fill? restored 0 target.length target
        some (restored.length, target)
    else do
      let (outcome, target) ← decodeChunksAt c.chunkLimit count.toNat 0 input target
      match outcome with
      | .error _ => some (0, target)
      | .ok written => some (written, target)

/-! ### No access out of range -/

variable {written : Nat} {target : List UInt8}

/-- **A chunk is split off within the input.** Read as a signed number, a length above the limit
is negative. -/
theorem splitChunkAt_eq (input : List UInt8) : splitChunkAt input = some (splitChunk input) := by
  rw [splitChunkAt, splitChunk]
  rcases Nat.lt_or_ge input.length chunkLengthSize with hshort | hlong
  · rw [if_pos hshort, if_pos (Nat.lt_of_le_of_lt (List.length_take_le' ..) hshort)]
  have hfield : (input.take chunkLengthSize).length = chunkLengthSize :=
    List.length_take_of_le hlong
  rw [if_neg (Nat.not_lt.2 hlong), if_neg (Nat.not_lt.2 (Nat.le_of_eq hfield.symm)),
    window?_zero hlong, window?_length hlong]
  simp only [Option.bind_eq_bind, Option.bind_some]
  -- the limit is where the upper half of the field begins, which holds the negative lengths
  have hcapacity : LittleEndian.capacity (input.take chunkLengthSize).length =
      2 * chunkLengthLimit := by
    rw [hfield, capacity_chunkLengthSize]
  rcases Nat.lt_or_ge (LittleEndian.value (input.take chunkLengthSize)) chunkLengthLimit with
    hsmall | hlarge
  · have hsigned : LittleEndian.signed (input.take chunkLengthSize) =
        LittleEndian.value (input.take chunkLengthSize) := LittleEndian.signed_of_lt (by omega)
    rw [hsigned, Int.toNat_natCast]
    rcases Nat.lt_or_ge (input.drop chunkLengthSize).length
      (LittleEndian.value (input.take chunkLengthSize)) with hmissing | hall
    · rw [if_pos (.inr (Int.ofNat_lt.2 hmissing)),
        if_pos (.inr (Nat.lt_of_le_of_lt (List.length_take_le' ..) hmissing))]
    · rw [if_neg (by omega), if_neg (by rw [List.length_take_of_le hall]; omega),
        window?_zero hall, window?_length hall]
      rfl
  · have hnegative : LittleEndian.signed (input.take chunkLengthSize) < 0 :=
      LittleEndian.signed_neg_of_le (by omega)
    rw [if_pos (.inl hnegative), if_pos (.inl hlarge)]

/-- **The invariant of the chunk loop**: what was written stays within the target, and the next
chunks find the room that is left. Where the loop ends early, the chunks before are in place. -/
theorem decodeChunksAt_eq (limit count : Nat) (input : List UInt8) (h : written ≤ target.length) :
    decodeChunksAt limit count written input target =
      some ((decodeChunks limit count (target.length - written) input).map (written + ·.length),
        writeAt (chunkProgress limit count (target.length - written) input).restored written
          target) := by
  induction count generalizing written input target with
  | zero =>
    rw [decodeChunksAt, decodeChunks_zero, Except.map, chunkProgress, writeAt_nil]
    rfl
  | succ count ih =>
    rw [decodeChunksAt, splitChunkAt_eq]
    simp only [Option.bind_eq_bind, Option.bind_some]
    rcases hsplit : splitChunk input with fault | ⟨chunk, rest⟩
    · rw [decodeChunks_of_splitChunk_error hsplit, chunkProgress_of_splitChunk_error hsplit,
        writeAt_nil]
      rfl
    -- the window is what is left of the target, up to the chunk limit
    have hwindow : ((target.drop written).take
        (min target.length (written + limit) - written)).length =
          min (target.length - written) limit := by
      rw [List.length_take, List.length_drop]
      omega
    rw [decodeChunks_succ hsplit]
    simp only
    rw [window?_of_le (by omega) (by omega), Option.bind_some, hwindow]
    rcases hblock : decodeBlock (min (target.length - written) limit) chunk with cause | first
    · rw [chunkProgress_of_decodeBlock_error hsplit hblock, writeAt_nil]
      rfl
    have hfirst : first.length ≤ min (target.length - written) limit :=
      length_le_of_decodeFrom hblock
    have hlength : (writeAt first written target).length = target.length :=
      length_writeAt (by omega)
    rw [chunkProgress_of_decodeBlock_ok hsplit hblock, Progress.prepend]
    simp only
    rw [fill?_of_le (by omega) (by omega), Option.bind_some, ih _ (by omega), hlength,
      Nat.sub_add_eq, writeAt_writeAt h]
    rcases decodeChunks limit count (target.length - written - first.length) rest with
      fault | others
    · rfl
    · simp only [Except.map]
      rw [List.length_append, Nat.add_assoc]

/-- **Decompressing by position never leaves its buffers**, and comes to the same. -/
theorem decompressAt_eq (c : Lz4) (source target : List UInt8) :
    c.decompressAt source target = some (c.decompress source target).value := by
  match source with
  | [] => rfl
  | count :: input =>
    by_cases hcount : count = 0
    · subst hcount
      rw [decompressAt, if_pos rfl]
      rcases hblock : decodeBlock target.length input with cause | restored
      · have hdecode : c.decode target.length (0 :: input) = .error (.block cause) := by
          rw [decode_zero, hblock]
          rfl
        rw [value_decompress_of_error hdecode, progress_zero, hblock]
        rfl
      · have hdecode : c.decode target.length (0 :: input) = .ok restored := by
          rw [decode_zero, hblock]
          rfl
        have hlength : restored.length ≤ target.length := length_le_of_decodeFrom hblock
        rw [value_decompress_of_ok hdecode]
        simp only
        rw [fill?_of_le (by omega) (Nat.le_refl _), writeAt_zero]
        rfl
    · have hdecode := decode_count (c := c) hcount target.length input
      rw [decompressAt, if_neg hcount, decodeChunksAt_eq _ _ _ (Nat.zero_le _), Nat.sub_zero,
        writeAt_zero, ← progress_count hcount]
      rcases hchunks : decodeChunks c.chunkLimit count.toNat target.length input with
        fault | restored
      · rw [value_decompress_of_error (hdecode.trans hchunks)]
        rfl
      · rw [value_decompress_of_ok (hdecode.trans hchunks),
          Progress.result_eq_ok_iff.1 (hdecode.trans hchunks)]
        simp only [Except.map, Option.bind_eq_bind, Option.bind_some]
        rw [Nat.zero_add]

end DeltaPack.Lz4
