/-!
# Configuration of a session

A session is configured by the byte compressor behind its pre-coder. LZ4 is the default;
Zstandard takes a compression level, which may be any 32-bit integer.
-/

namespace DeltaPack

/-- Which byte compressor the pre-coded stream is handed to. -/
inductive BackendChoice where
  /-- LZ4 blocks with chunk framing. -/
  | lz4
  /-- Zstandard frames at a compression level. -/
  | zstd (level : Int32)
  deriving DecidableEq, Repr

/-- The level of Zstandard when none is named. -/
def BackendChoice.defaultLevel : Int32 := 3

/-- The choice as a diagnostic shows it. -/
def BackendChoice.inspect : BackendChoice → String
  | .lz4 => "Lz4"
  | .zstd level => "Zstd \x7b level: " ++ toString level.toInt ++ " \x7d"

/-- The configuration of a session. -/
structure Config where
  /-- The byte compressor. -/
  backend : BackendChoice := .lz4
  deriving DecidableEq, Repr

instance : Inhabited Config := ⟨{}⟩

end DeltaPack
