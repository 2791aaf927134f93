/-!
# Malformed LZ4 data

A block or a frame of blocks is refused for one cause. Not every refusal leaves a record in the
log: those of the block decoder and a chunk header cut short do, an empty source and an
impossible chunk length do not (`Lz4.Fault.isRecorded`).
-/

namespace DeltaPack.Lz4

/-- Why a block cannot be decoded. -/
inductive BlockFault where
  /-- A token, a length or an offset is expected where the block ends. -/
  | inputExhausted
  /-- A literal run is longer than the rest of the block. -/
  | literalOutOfBounds
  /-- The decoded bytes do not fit: the room there is and the room needed so far. -/
  | outputTooSmall (actual expected : Nat)
  /-- A match refers to itself. -/
  | zeroOffset
  /-- A match refers to bytes before the start of the output. -/
  | offsetOutOfBounds
  deriving DecidableEq, Repr

/-- The wording of a block's fault. -/
def BlockFault.message : BlockFault → String
  | .inputExhausted => "expected another byte, found none"
  | .literalOutOfBounds => "literal is out of bounds of the input"
  | .outputTooSmall actual expected =>
    "provided output is too small for the decompressed data, " ++
      s!"actual {actual}, expected {expected}"
  | .zeroOffset => "0 is not a valid match offset"
  | .offsetOutOfBounds => "the offset to copy is not contained in the decompressed buffer"

/-- Why a source cannot be decoded. -/
inductive Fault where
  /-- There is no byte that counts the chunks. -/
  | emptySource
  /-- Fewer than four bytes are left for the length of a chunk. -/
  | truncatedHeader
  /-- The length of a chunk is negative or runs past the end. -/
  | chunkLength
  /-- A block is malformed or too long for its room. -/
  | block (cause : BlockFault)
  deriving DecidableEq, Repr

/-- The wording of a fault. -/
def Fault.message : Fault → String
  | .emptySource => "empty source"
  | .truncatedHeader => "truncated chunk header"
  | .chunkLength => "chunk length out of bounds"
  | .block cause => cause.message

/-- Whether a refusal for this cause leaves a record in the log. -/
def Fault.isRecorded : Fault → Bool
  | .emptySource | .chunkLength => false
  | .truncatedHeader | .block _ => true

end DeltaPack.Lz4
