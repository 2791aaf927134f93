import DeltaPack.Lz4.Frame
import DeltaPack.Pack
import DeltaPack.Word

/-!
# Packing lists in one call

The functions of this module keep nothing between calls and always use LZ4. They work on lists
of any 32-bit element type: a list of signed values and the list of unsigned values with the same
bits are packed to the same bytes, and packed bytes may be unpacked as either.
-/

namespace DeltaPack.OneShot

variable {α : Type} [Word32 α]

/-- The compressor of all one-shot calls. -/
def compressor : Compressor := Lz4.standard.compressor

/-- The room that `compressInto` asks for. -/
def compressedBufferSize (count : Nat) : Nat := compressor.packedSize count

/-- The working space that `decompressInto` asks for. -/
def workingSpaceSize (count : Nat) : Nat := Precoded.workspaceSize count

/-- Packs a list into a buffer. -/
def compressInto (values : List α) (output : List UInt8) : Traced (Filled UInt8) :=
  compressor.pack (Word32.toWords values) output

/-- **Packs a list.** -/
def compress (values : List α) : Traced (Except PackError (List UInt8)) :=
  compressor.packed (Word32.toWords values)

/-- Unpacks into a slice, by way of a working space if one is given. -/
def decompressInto (compressed : List UInt8) (slice : List α) (workspace : Option (List UInt8)) :
    Traced (Filled α) := do
  let filled ← compressor.unpack compressed (Word32.toWords slice) workspace
  return filled.map Word32.ofWord

/-- **Unpacks a list** whose length is known. Bytes that give another number of values were
refused by the compressor. -/
def decompress (compressed : List UInt8) (count : Nat) :
    Traced (Except PackError (List α)) := do
  let zeros : List α := List.replicate count (Word32.ofWord 0)
  let filled ← decompressInto compressed zeros none
  match filled.result with
  | .error reason => return .error reason
  | .ok restored =>
    if restored = count then return .ok filled.buffer
    else
      let element := Word32.name α
      return .error (.compressionFailed (.rejected compressed.length count element))

end DeltaPack.OneShot
