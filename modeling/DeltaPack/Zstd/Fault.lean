/-!
# Malformed Zstandard data

The causes for which a source of concatenated frames is refused, with the names under which
they are put on record.
-/

namespace DeltaPack.Zstd

/-- Why a source cannot be decoded. -/
inductive Fault where
  /-- The source ends inside a frame, or bytes that make no frame follow one. -/
  | wrongSourceSize
  /-- The source does not begin with a frame. -/
  | unknownFrame
  /-- The decoded bytes do not fit. -/
  | targetTooSmall
  /-- A block or the content size of a frame is inconsistent. -/
  | corrupted
  /-- A reserved bit of the frame header is set. -/
  | unsupportedParameter
  /-- The frame asks for too large a window. -/
  | windowTooLarge
  /-- The frame asks for a dictionary. -/
  | wrongDictionary
  /-- The frame announces a checksum and does not end in a matching one. -/
  | wrongChecksum
  deriving DecidableEq, Repr

/-- The name of a fault. -/
def Fault.message : Fault → String
  | .wrongSourceSize => "Src size is incorrect"
  | .unknownFrame => "Unknown frame descriptor"
  | .targetTooSmall => "Destination buffer is too small"
  | .corrupted => "Data corruption detected"
  | .unsupportedParameter => "Unsupported frame parameter"
  | .windowTooLarge => "Frame requires too much memory for decoding"
  | .wrongDictionary => "Dictionary mismatch"
  | .wrongChecksum => "Restored data doesn't match checksum"

end DeltaPack.Zstd
