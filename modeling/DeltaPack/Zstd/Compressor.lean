import DeltaPack.Compressor
import DeltaPack.Zstd.Frame

/-!
# Zstandard as a byte compressor

Zstandard itself is a library of its own. `Zstd.Library` is what the byte compressor asks of it, and
everything that goes by way of a Zstandard backend is defined over any such library.

`Zstd.storing` is the library there is. It stores its source in one frame that its decoder and every
other one can read; stored frames are the same at every level.
-/

namespace DeltaPack

namespace Zstd

/-- **A Zstandard library.** Its functions answer with the number of bytes that they wrote into the
target, or with an error in their own words, and return the target after the call. -/
class Library where
  /-- A bound on the compressed size of a source of the given length. -/
  compressBound : Nat → Nat
  /-- Compresses a source into a target at a level. -/
  compressInto : (level : Int32) → (source target : List UInt8) → Except String Nat × List UInt8
  /-- Decompresses a source into a target. -/
  decompressInto : (source target : List UInt8) → Except String Nat × List UInt8
  /-- A target is a buffer: its bytes may change, but not how many they are. -/
  length_decompressInto : ∀ source target, (decompressInto source target).2.length = target.length

/-- Decodes a source of stored frames, all of them or none. -/
def restoreInto (source target : List UInt8) : Except String Nat × List UInt8 :=
  match decode target.length source with
  | .ok restored => (.ok restored.length, Filled.overlay restored target)
  | .error fault => (.error fault.message, target)

theorem length_restoreInto (source target : List UInt8) :
    (restoreInto source target).2.length = target.length := by
  rw [restoreInto]
  rcases hdecode : decode target.length source with fault | restored
  · rfl
  · exact Filled.length_overlay (decode_length hdecode)

/-- The library of stored frames. -/
instance storing : Library where
  compressBound := maxCompressedSize
  compressInto _ source target :=
    (.ok (encodeFrame source).length, Filled.overlay (encodeFrame source) target)
  decompressInto := restoreInto
  length_decompressInto := length_restoreInto

end Zstd

/-- The Zstandard compressor at a level. -/
structure Zstd where
  /-- The compression level. -/
  level : Int32 := BackendChoice.defaultLevel
  deriving DecidableEq

namespace Zstd

/-- Compresses a source into a target, which must have room for the bound. -/
def compress [Library] (z : Zstd) (source target : List UInt8) : Filled UInt8 :=
  let needed := Library.compressBound source.length
  if target.length < needed then .refused (.bufferTooSmall needed target.length) target
  else
    let (result, buffer) := Library.compressInto z.level source target
    let failed (text : String) := PackError.compressionFailed (.reported ("zstd: " ++ text))
    ⟨result.mapError failed, buffer⟩

/-- Decompresses a source into a target. A refused source gives zero and is put on record. -/
def decompress [Library] (source target : List UInt8) : Traced (Nat × List UInt8) :=
  match Library.decompressInto source target with
  | (.ok restored, buffer) => pure (restored, buffer)
  | (.error reason, buffer) => do
    Traced.emit (.zstdRefused reason)
    pure (0, buffer)

/-- Zstandard as a byte compressor. -/
def compressor [Library] (z : Zstd) : Compressor where
  maxCompressedSize := Library.compressBound
  compress := z.compress
  decompress := decompress

end Zstd

end DeltaPack
