import DeltaPack.Proofs.Lz4.Bound
import DeltaPack.Proofs.Machine

/-!
# LZ4 sizes in machine words

The bound on a container multiplies the length of its source by 110, or the room for a chunk by the
number of chunks. With a small chunk limit it is 25 times as large as the source, so it overflows
for lengths that fit a word (`maxCompressedSize?_eq_none_iff`). A compression never computes such
a bound. A source that is too long is refused by its length alone, with nothing but the largest
source computed before, and the bound of one that is not is small (`compressResult?_eq`). The room
for a block is only ever computed for one chunk, for which its product is small as well
(`maxBlockSize?_eq`).
-/

namespace DeltaPack.Lz4

open Machine

variable {length : Nat}

/-! ### The bound -/

/-- The room that is reserved for the block of a source of the given length. -/
def maxBlockSize? (length : Nat) : Option Nat := do
  let scaled ← fit (length * 110)
  fit (20 + scaled / 100)

/-- A bound on the compressed size of a source of the given length. -/
def maxCompressedSize? (c : Lz4) (length : Nat) : Option Nat :=
  if length ≤ c.chunkLimit then do
    let block ← maxBlockSize? length
    fit (1 + block)
  else do
    let block ← maxBlockSize? c.chunkLimit
    let chunk ← fit (chunkLengthSize + block)
    let chunks ← fit (length / c.chunkLimit * chunk)
    let whole ← fit (1 + chunks)
    let part := length % c.chunkLimit
    if part = 0 then some whole
    else do
      let block ← maxBlockSize? part
      let chunk ← fit (chunkLengthSize + block)
      fit (whole + chunk)

theorem maxBlockSize_lt (h : length ≤ maxBlockInput) : maxBlockSize length < 2400000000 := by
  rw [maxBlockInput] at h
  rw [maxBlockSize]
  omega

/-- The room for a block of the largest source and of smaller ones is computed without overflow. -/
theorem maxBlockSize?_eq (h : length ≤ maxBlockInput) :
    maxBlockSize? length = some (maxBlockSize length) := by
  have hblock := maxBlockSize_lt h
  rw [maxBlockInput] at h
  rw [maxBlockSize?, Option.bind_eq_bind, fit_bind_of_lt (by omega)]
  exact fit_of_lt (by rw [maxBlockSize] at hblock; omega)

/-- **The bound is computed without overflow if it fits.** No step of it is larger than the
outcome, and the products of the blocks are those of single chunks. -/
theorem maxCompressedSize?_eq (c : Lz4) (length : Nat) :
    c.maxCompressedSize? length = fit (c.maxCompressedSize length) := by
  have hlimit := c.chunkLimit_le
  rcases Nat.lt_or_ge c.chunkLimit length with hlt | hle
  · have hchunk := maxBlockSize_lt hlimit
    rw [maxCompressedSize?, if_neg (Nat.not_le.2 hlt), maxBlockSize?_eq hlimit, maxCompressedSize,
      maxFramedSize_of_lt hlt]
    simp only [Option.bind_eq_bind, Option.bind_some]
    rw [fit_bind_of_lt (by rw [chunkLengthSize]; omega), ← chunkBound]
    refine fit_bind (by omega) fun _ => fit_bind (by omega) fun hwhole => ?_
    rw [partBound]
    split_ifs with hpart
    · rw [Nat.add_zero, fit_of_lt hwhole]
    · have hrest : length % c.chunkLimit ≤ maxBlockInput :=
        Nat.le_trans (Nat.le_of_lt (Nat.mod_lt _ c.chunkLimit_pos)) hlimit
      rw [maxBlockSize?_eq hrest, Option.bind_some, ← Nat.add_assoc]
      exact fit_bind (Nat.le_add_left ..) fun _ => rfl
  · rw [maxCompressedSize?, if_pos hle, maxBlockSize?_eq (Nat.le_trans hle hlimit),
      maxCompressedSize, maxFramedSize_of_le hle]
    rfl

/-- The bound overflows where it does not fit, which the length of the source may well do. -/
theorem maxCompressedSize?_eq_none_iff {c : Lz4} :
    c.maxCompressedSize? length = none ↔ 2 ^ 64 ≤ c.maxCompressedSize length := by
  rw [maxCompressedSize?_eq, fit_eq_none_iff]

/-- Chunks of one byte reserve 25 bytes each. -/
theorem maxCompressedSize?_ofChunkLimit_one :
    (ofChunkLimit 1).maxCompressedSize? (2 ^ 60) = none := by
  rw [maxCompressedSize?_eq_none_iff]
  decide +kernel

/-! ### Compression -/

/-- The block of a source, if the room is not below the bound for its length. -/
def blockInto? (room : Nat) (source : List UInt8) : Option (Except PackError (List UInt8)) := do
  let bound ← maxBlockSize? source.length
  if room < bound then some (.error (.compressionFailed .blockOverflow))
  else some (.ok (encodeBlock source))

theorem blockInto?_eq {source : List UInt8} (h : source.length ≤ maxBlockInput) (room : Nat) :
    blockInto? room source = some (blockInto room source) := by
  rw [blockInto?, maxBlockSize?_eq h, blockInto]
  simp only [Option.bind_eq_bind, Option.bind_some]
  split_ifs <;> rfl

/-- Writes chunks with their lengths into a target of the given size, from a position on. The
outcome is the position behind the last one. -/
def chunksResult? (size : Nat) :
    List (List UInt8) → (position : Nat) → Option (Except PackError Nat)
  | [], position => some (.ok position)
  | chunk :: rest, position => do
    let body ← fit (position + chunkLengthSize)
    match ← blockInto? (size - body) chunk with
    | .error reason => some (.error reason)
    | .ok block =>
      if chunkLengthLimit ≤ block.length then
        some (.error (.compressionFailed (.chunkTooLong block.length)))
      else do
        let position ← fit (body + block.length)
        chunksResult? size rest position

/-- **The invariant of the chunk loop**: behind the position there is the room that is reserved for
the chunks that are left, and its end fits a word. -/
theorem chunksResult?_eq {size position : Nat} {pieces : List (List UInt8)}
    (hroom : position + (pieces.map fun chunk => chunkBound chunk.length).sum ≤ size)
    (hfit : position + (pieces.map fun chunk => chunkBound chunk.length).sum < 2 ^ 64)
    (h : ∀ chunk ∈ pieces, chunk.length ≤ maxBlockInput) :
    chunksResult? size pieces position = some (.ok (position + (frames pieces).length)) := by
  induction pieces generalizing position with
  | nil => rfl
  | cons chunk rest ih =>
    obtain ⟨hchunk, hrest⟩ := List.forall_mem_cons.1 h
    have hblock := length_encodeBlock_le_maxBlockSize chunk
    have hlength := length_encodeBlock_lt_chunkLengthLimit hchunk
    rw [List.map_cons, List.sum_cons, chunkBound] at hroom hfit
    rw [chunksResult?, Option.bind_eq_bind, fit_bind_of_lt (by omega), blockInto?_eq hchunk,
      blockInto_eq_ok (by omega)]
    simp only [Option.bind_eq_bind, Option.bind_some]
    rw [if_neg (Nat.not_le.2 hlength), fit_bind_of_lt (by omega),
      ih (by omega) (by omega) hrest, frames_cons, List.length_append, length_frame,
      ← Nat.add_assoc, ← Nat.add_assoc]

/-- The result of compressing a source into a target: the largest source, and then the bound, the
number of chunks and the position behind each, or the reason for the refusal. -/
def compressResult? (c : Lz4) (source target : List UInt8) : Option (Except PackError Nat) := do
  let longest ← fit (maxChunks * c.chunkLimit)
  if longest < source.length then some (.error (.inputTooLarge source.length longest))
  else do
    let needed ← c.maxCompressedSize? source.length
    if target.length < needed then some (.error (.bufferTooSmall needed target.length))
    else if source.length ≤ c.chunkLimit then do
      match ← blockInto? (target.length - 1) source with
      | .error reason => some (.error reason)
      | .ok block => do
        let written ← fit (block.length + 1)
        some (.ok written)
    else do
      let _count ← ceilDiv? source.length c.chunkLimit
      chunksResult? target.length (c.pieces source) 1

theorem maxInputSize_lt (c : Lz4) : c.maxInputSize < 2 ^ 64 := by
  have hlimit := c.chunkLimit_le
  rw [maxBlockInput] at hlimit
  rw [maxInputSize, maxInput, maxChunks]
  omega

/-- The bound for a source that is not too long fits a word. -/
theorem maxCompressedSize_lt_of_le {c : Lz4} (h : length ≤ c.maxInputSize) :
    c.maxCompressedSize length < 2 ^ 64 := maxCompressedSize_lt (by decide) h

/-- **Compressing never overflows**, and comes to the same, whatever the source is. -/
theorem compressResult?_eq (c : Lz4) (source target : List UInt8) :
    c.compressResult? source target = some (c.compress source target).result := by
  have hlongest := c.maxInputSize_lt
  rw [compressResult?, ← maxInput, ← maxInputSize, Option.bind_eq_bind, fit_bind_of_lt hlongest]
  obtain ⟨hlong, hvalue⟩ | ⟨hsource, hshort, hvalue⟩ | ⟨hsource, htarget, hvalue⟩ :=
    compress_cases c source target
  · rw [if_pos hlong, hvalue]
    rfl
  · have hbound := maxCompressedSize_lt_of_le hsource
    rw [if_neg (Nat.not_lt.2 hsource), maxCompressedSize?_eq, Option.bind_eq_bind,
      fit_bind_of_lt hbound, if_pos hshort, hvalue]
    rfl
  · have hbound := maxCompressedSize_lt_of_le hsource
    have hlength := length_container_le c source
    rw [if_neg (Nat.not_lt.2 hsource), maxCompressedSize?_eq, Option.bind_eq_bind,
      fit_bind_of_lt hbound, if_neg (Nat.not_lt.2 htarget), hvalue, Filled.wrote]
    rcases Nat.lt_or_ge c.chunkLimit source.length with hlt | hle
    · rw [maxCompressedSize_eq hlt] at htarget hbound
      rw [if_neg (Nat.not_le.2 hlt), ceilDiv?_eq c.chunkLimit_pos (by omega),
        Option.bind_some, chunksResult?_eq htarget hbound fun _ => length_le_maxBlockInput,
        container_of_lt hlt, List.length_cons, Nat.add_comm]
    · rw [maxCompressedSize, maxFramedSize_of_le hle] at htarget
      rw [container_of_le hle, List.length_cons] at hlength ⊢
      rw [if_pos hle, blockInto?_eq (Nat.le_trans hle c.chunkLimit_le), blockInto_eq_ok (by omega)]
      simp only [Option.bind_some]
      rw [fit_bind_of_lt (by omega)]

end DeltaPack.Lz4
