import DeltaPack.Compressor
import DeltaPack.Lz4.Block
import DeltaPack.Lz4.Size

/-!
# LZ4 with chunk framing

The container frames raw LZ4 blocks with one byte that counts chunks, so that sources longer than
a block can hold may be stored:

* one block: a zero byte and the block;
* several: their number, then for each the length of its block as a signed 32-bit integer and the
  block.

The compressor refuses a source of more than `Lz4.maxChunks` chunks. The decoder takes the count
as it is, gives each chunk a window of one chunk limit, and shares nothing between chunks. It writes
the chunks one after the other, so a source that is refused at one of them has changed the target by
those before (`Lz4.Progress`).
-/

namespace DeltaPack

/-- The LZ4 compressor with a chunk limit. -/
structure Lz4 where
  /-- The largest source of one block. -/
  chunkLimit : Nat := Lz4.maxBlockInput
  chunkLimit_pos : 0 < chunkLimit := by decide
  chunkLimit_le : chunkLimit ≤ Lz4.maxBlockInput := by decide
  deriving DecidableEq

namespace Lz4

/-- The compressor that cuts only where a block ends. -/
def standard : Lz4 := {}

/-- The compressor that cuts at the given length, or at the nearest one that is allowed. -/
def ofChunkLimit (length : Nat) : Lz4 where
  chunkLimit := max 1 (min length maxBlockInput)
  chunkLimit_pos := by omega
  chunkLimit_le := by simp only [maxBlockInput]; omega

/-- The largest source the compressor accepts. -/
def maxInputSize (c : Lz4) : Nat := maxInput c.chunkLimit

/-- A bound on the compressed size of a source of the given length. -/
def maxCompressedSize (c : Lz4) (length : Nat) : Nat := maxFramedSize c.chunkLimit length

/-! ### Compression -/

/-- The chunks of a source, each of `limit` bytes but for the last. -/
def chunks (limit : Nat) (h : 0 < limit) (source : List UInt8) : List (List UInt8) :=
  if _hs : source = [] then [] else source.take limit :: chunks limit h (source.drop limit)
termination_by source.length
decreasing_by
  have := List.length_pos_iff.2 _hs
  simp only [List.length_drop]
  omega

/-- The block of a source, if the room is not below the bound for its length. -/
def blockInto (room : Nat) (source : List UInt8) : Except PackError (List UInt8) :=
  if room < maxBlockSize source.length then .error (.compressionFailed .blockOverflow)
  else .ok (encodeBlock source)

/-- A chunk with its length in front, if the room suffices. -/
def chunkInto (room : Nat) (chunk : List UInt8) : Except PackError (List UInt8) := do
  let block ← blockInto (room - chunkLengthSize) chunk
  if chunkLengthLimit ≤ block.length then .error (.compressionFailed (.chunkTooLong block.length))
  else .ok (LittleEndian.bytes chunkLengthSize block.length ++ block)

/-- Several chunks one after the other, in a room that shrinks as they are written. -/
def chunksInto (room : Nat) : List (List UInt8) → Except PackError (List UInt8)
  | [] => .ok []
  | chunk :: rest => do
    let first ← chunkInto room chunk
    let others ← chunksInto (room - first.length) rest
    .ok (first ++ others)

/-- The container of a source, in a room that is at least its bound. -/
def encodeInto (c : Lz4) (room : Nat) (source : List UInt8) : Except PackError (List UInt8) :=
  if source.length ≤ c.chunkLimit then do
    let block ← blockInto (room - 1) source
    .ok (0 :: block)
  else do
    let pieces := chunks c.chunkLimit c.chunkLimit_pos source
    let framed ← chunksInto (room - 1) pieces
    .ok (UInt8.ofNat pieces.length :: framed)

/-- Compresses a source into a target, which must have room for the bound. A source that is too
long is refused before its bound is considered. -/
def compress (c : Lz4) (source target : List UInt8) : Filled UInt8 :=
  if c.maxInputSize < source.length then
    .refused (.inputTooLarge source.length c.maxInputSize) target
  else if target.length < c.maxCompressedSize source.length then
    .refused (.bufferTooSmall (c.maxCompressedSize source.length) target.length) target
  else
    match c.encodeInto target.length source with
    | .ok framed => .wrote framed target
    | .error reason => .refused reason target

/-! ### Decompression -/

/-- Splits off the chunk behind its length field. -/
def splitChunk (input : List UInt8) : Except Fault (List UInt8 × List UInt8) :=
  let field := input.take chunkLengthSize
  if field.length < chunkLengthSize then .error .truncatedHeader
  else
    let length := LittleEndian.value field
    let chunk := (input.drop chunkLengthSize).take length
    if chunkLengthLimit ≤ length ∨ chunk.length < length then .error .chunkLength
    else .ok (chunk, (input.drop chunkLengthSize).drop length)

/-- How far a decoding came: the bytes it restored, and the fault that ended it early, if one did. -/
structure Progress where
  /-- The bytes of all blocks that were decoded, one after the other. -/
  restored : List UInt8
  fault : Option Fault
  deriving DecidableEq, Repr

/-- A decoding that came to an end, or failed at once. -/
def Progress.ofExcept : Except Fault (List UInt8) → Progress
  | .ok restored => ⟨restored, none⟩
  | .error fault => ⟨[], some fault⟩

/-- The same with bytes that were restored before. -/
def Progress.prepend (first : List UInt8) (p : Progress) : Progress :=
  ⟨first ++ p.restored, p.fault⟩

/-- All bytes, or the fault that ended the decoding. -/
def Progress.result (p : Progress) : Except Fault (List UInt8) :=
  match p.fault with
  | none => .ok p.restored
  | some fault => .error fault

/-- Decodes a number of chunks, each into a window of at most `limit` bytes of the room, up to the
first that is refused. Bytes after the last chunk are ignored. -/
def chunkProgress (limit : Nat) : (count room : Nat) → List UInt8 → Progress
  | 0, _, _ => ⟨[], none⟩
  | count + 1, room, input =>
    match splitChunk input with
    | .error fault => ⟨[], some fault⟩
    | .ok (chunk, input) =>
      match decodeBlock (min room limit) chunk with
      | .error cause => ⟨[], some (.block cause)⟩
      | .ok first => (chunkProgress limit count (room - first.length) input).prepend first

/-- Decodes a number of chunks, or none of them if one is refused. -/
def decodeChunks (limit count room : Nat) (input : List UInt8) : Except Fault (List UInt8) :=
  (chunkProgress limit count room input).result

/-- Decodes a container into a limited room, as far as it can be. -/
def progress (c : Lz4) (room : Nat) : List UInt8 → Progress
  | [] => ⟨[], some .emptySource⟩
  | count :: input =>
    if count = 0 then .ofExcept ((decodeBlock room input).mapError .block)
    else chunkProgress c.chunkLimit count.toNat room input

/-- Decodes a container into a limited room. -/
def decode (c : Lz4) (room : Nat) (source : List UInt8) : Except Fault (List UInt8) :=
  (c.progress room source).result

/-- Decompresses a source into a target. A refused source gives zero and is put on record if its
fault is; the chunks before the fault stand in the target then, uncounted. What a block decoder may
write besides, into the window of a block it refuses or behind the bytes it restores, is no part of
the format and left out. -/
def decompress (c : Lz4) (source target : List UInt8) : Traced (Nat × List UInt8) :=
  let p := c.progress target.length source
  let target := Filled.overlay p.restored target
  match p.fault with
  | none => pure (p.restored.length, target)
  | some fault => do
    if fault.isRecorded then Traced.emit (.lz4Refused fault)
    pure (0, target)

/-- LZ4 as a byte compressor. -/
def compressor (c : Lz4) : Compressor where
  maxCompressedSize := c.maxCompressedSize
  compress := c.compress
  decompress := c.decompress

end Lz4

end DeltaPack
