import DeltaPack.Buffer
import DeltaPack.Event

/-!
# Byte compressors

The pre-coded stream is handed to a general byte compressor. `Compressor` is what the codec
asks of one: a bound on the compressed size that depends on the length alone, a compressing
function into a buffer of that size, and a decompressing function that answers with the number
of bytes it restored, where zero means that the source was refused.
-/

namespace DeltaPack

/-- A general byte compressor. -/
structure Compressor where
  /-- A bound on the compressed size of a source of the given length. -/
  maxCompressedSize : Nat → Nat
  /-- Compresses a source into a target buffer. -/
  compress : (source target : List UInt8) → Filled UInt8
  /-- Restores a source into a target buffer: the number of bytes restored, or zero, and the
  buffer after the call. -/
  decompress : (source target : List UInt8) → Traced (Nat × List UInt8)

namespace Compressor

/-- The bytes that decompressing a source restores into a target. -/
def restored (c : Compressor) (source target : List UInt8) : List UInt8 :=
  let outcome := (c.decompress source target).value
  outcome.2.take outcome.1

end Compressor

end DeltaPack
