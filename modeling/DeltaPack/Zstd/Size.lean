/-!
# Size bound of Zstandard

The bound on a compressed source grows with its length by one part in 256, and by up to 64 bytes
more for a source shorter than a block. It is defined up to the longest source that 64-bit sizes
can bound; from there on it is a value that no buffer reaches.
-/

namespace DeltaPack.Zstd

/-- The largest block. -/
def blockLimit : Nat := 131072

/-- The length from which on no bound exists. -/
def inputLimit : Nat := 0xFF00FF00FF00FF00

/-- A bound on the compressed size of a source of the given length. -/
def maxCompressedSize (length : Nat) : Nat :=
  if inputLimit ≤ length then 0xFFFFFFFFFFFFFFB8
  else length + length / 256 + (blockLimit - length) / 2048

end DeltaPack.Zstd
