import DeltaPack.Lz4.Frame
import DeltaPack.Zstd.Compressor

/-!
# The byte compressors of a session

A configuration names a byte compressor; `Backend` is that compressor with its parameters.
-/

namespace DeltaPack

/-- One of the library's byte compressors. -/
inductive Backend where
  /-- LZ4 with chunk framing. -/
  | lz4 (compressor : Lz4)
  /-- Zstandard at a level. -/
  | zstd (compressor : Zstd)
  deriving DecidableEq

/-- The compressor that a choice stands for. -/
def Backend.ofChoice : BackendChoice → Backend
  | .lz4 => .lz4 Lz4.standard
  | .zstd level => .zstd { level }

/-- The backend as a byte compressor. -/
def Backend.compressor [Zstd.Library] : Backend → Compressor
  | .lz4 c => c.compressor
  | .zstd c => c.compressor

end DeltaPack
