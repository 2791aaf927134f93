/-!
# Size bounds of the LZ4 container

A source of at most `limit` bytes is stored as one block behind a zero byte. A longer one is cut
into chunks of `limit` bytes, at most `Lz4.maxChunks` of them, and stored behind their number
with a four-byte length in front of each block.
-/

namespace DeltaPack.Lz4

/-- The largest source of a single block. -/
def maxBlockInput : Nat := 0x7E000000

/-- The largest number of chunks: it takes one byte and stays positive as a signed one. -/
def maxChunks : Nat := 127

/-- Bytes of the length in front of a chunk. -/
def chunkLengthSize : Nat := 4

/-- The first length that a signed 32-bit integer cannot hold. -/
def chunkLengthLimit : Nat := 0x80000000

/-- The room that is reserved for the block of a source of the given length. -/
def maxBlockSize (length : Nat) : Nat := 20 + length * 110 / 100

/-- A bound on the container of a source of the given length, cut at `limit` bytes. -/
def maxFramedSize (limit length : Nat) : Nat :=
  if length ≤ limit then 1 + maxBlockSize length
  else
    let whole := 1 + length / limit * (chunkLengthSize + maxBlockSize limit)
    let part := length % limit
    if part = 0 then whole else whole + (chunkLengthSize + maxBlockSize part)

/-- The largest source that chunks of `limit` bytes can hold. -/
def maxInput (limit : Nat) : Nat := maxChunks * limit

end DeltaPack.Lz4
