import DeltaPack.Text.Quoted

/-!
# Errors of the codec

Packing and unpacking a list fails for one of four reasons, each with the sizes or the
backend's own report that explain it. `PackError.message` is the sentence shown to a user and
`PackError.inspect` the constructor with its fields, as a diagnostic shows it.
-/

namespace DeltaPack

/-- What a byte compressor reports when it cannot do its work. -/
inductive BackendFailure where
  /-- The room left for an LZ4 block is below the bound for its length. -/
  | blockOverflow
  /-- An LZ4 block is too long for its signed 32-bit length field. -/
  | chunkTooLong (length : Nat)
  /-- A packed list was refused while values of the named element type were expected. -/
  | rejected (length count : Nat) (element : String)
  /-- Any other backend, in its own words. -/
  | reported (text : String)
  deriving DecidableEq, Repr

/-- The wording of a backend's failure. -/
def BackendFailure.message : BackendFailure → String
  | .blockOverflow =>
    "lz4: output is too small for the compressed data, " ++
      "use get_maximum_output_size to reserve enough space"
  | .chunkTooLong length => s!"lz4 chunk of {length} bytes overflows i32"
  | .rejected length count element =>
    s!"lz4 rejected {length} compressed bytes while decoding {count} {element} values"
  | .reported text => text

/-- Why a list could not be packed or unpacked. -/
inductive PackError where
  /-- The caller's buffer or working space is shorter than the size function demands. -/
  | bufferTooSmall (needed actual : Nat)
  /-- The pre-coded stream ends before its own tags do. -/
  | truncatedStream (needed actual : Nat)
  /-- The source is longer than the compressor accepts. -/
  | inputTooLarge (length limit : Nat)
  /-- The byte compressor failed. -/
  | compressionFailed (cause : BackendFailure)
  deriving DecidableEq, Repr

/-- The sentence shown to a user. -/
def PackError.message : PackError → String
  | .bufferTooSmall needed actual => s!"Buffer too small: needed {needed} bytes, got {actual}"
  | .truncatedStream needed actual =>
    s!"Pre-coded stream truncated: tags require {needed} bytes, stream has {actual}"
  | .inputTooLarge length limit =>
    s!"Input of {length} bytes exceeds the compressor limit of {limit} bytes"
  | .compressionFailed cause => "Compression backend failed: " ++ cause.message

/-- The constructor with its fields, as a diagnostic shows it. -/
def PackError.inspect : PackError → String
  | .bufferTooSmall needed actual =>
    s!"BufferTooSmall \x7b needed: {needed}, actual: {actual} \x7d"
  | .truncatedStream needed actual =>
    s!"TruncatedStream \x7b needed: {needed}, actual: {actual} \x7d"
  | .inputTooLarge length limit => s!"InputTooLarge \x7b len: {length}, max: {limit} \x7d"
  | .compressionFailed cause => "CompressionFailed(" ++ Text.quoted cause.message ++ ")"

end DeltaPack
