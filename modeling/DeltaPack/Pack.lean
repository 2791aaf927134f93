import DeltaPack.Compressor
import DeltaPack.Precoded.Decode
import DeltaPack.Precoded.Encode

/-!
# Packing words with a byte compressor

A list of words is packed by compressing its pre-coded stream, and unpacked by restoring the
stream into a working space and rebuilding the words from there. Both directions work over any
`Compressor`.

The caller's slice says how many words to rebuild, and the working space has room for every
stream of that many words. A working space may hold anything beforehand, since only bytes that
were just restored are read. An unpacking that ends in zero words leaves the slice untouched: the
compressor refused the source, or there was nothing to restore.
-/

namespace DeltaPack.Compressor

/-- The room that packing `count` words asks for. -/
def packedSize (c : Compressor) (count : Nat) : Nat :=
  c.maxCompressedSize (Precoded.maxSize count)

/-! ### Packing -/

/-- **Packs words** into a buffer. The outcome is that of the compressor on the pre-coded
stream. -/
def pack (c : Compressor) (words : List UInt32) (output : List UInt8) :
    Traced (Filled UInt8) := do
  let scratch := List.replicate (Precoded.maxSize words.length) 0
  let stream ← Precoded.encodeInto words scratch
  match stream.taken with
  | .error reason => pure (.refused reason output)
  | .ok stream => do
    let packed := c.compress stream output
    if let .ok written := packed.result then
      Traced.emit (.packed words.length stream.length written)
    pure packed

/-- Packs words into a buffer of its own, cut to the bytes written. -/
def packed (c : Compressor) (words : List UInt32) :
    Traced (Except PackError (List UInt8)) := do
  let filled ← c.pack words (List.replicate (c.packedSize words.length) 0)
  return filled.taken

/-! ### Unpacking -/

/-- Unpacks into a slice by way of a working space, which is returned as well. A working space
that is too short is refused; of a longer one only the needed part is used. -/
def unpackWithin (c : Compressor) (compressed : List UInt8) (slice : List UInt32)
    (workspace : List UInt8) : Traced (Filled UInt32 × List UInt8) :=
  let needed := Precoded.workspaceSize slice.length
  if workspace.length < needed then
    pure (.refused (.bufferTooSmall needed workspace.length) slice, workspace)
  else do
    let (restored, used) ← c.decompress compressed (workspace.take needed)
    let workspace := used ++ workspace.drop needed
    if restored = 0 then
      Traced.emit (.gaveNothing compressed.length)
      return (.wrote [] slice, workspace)
    else return (Precoded.decodeInto (used.take restored) slice, workspace)

/-- **Unpacks into a slice**, by way of the working space given or one of its own. -/
def unpack (c : Compressor) (compressed : List UInt8) (slice : List UInt32)
    (workspace : Option (List UInt8)) : Traced (Filled UInt32) := do
  let own := List.replicate (Precoded.workspaceSize slice.length) 0
  let (filled, _) ← c.unpackWithin compressed slice (workspace.getD own)
  return filled

end DeltaPack.Compressor
