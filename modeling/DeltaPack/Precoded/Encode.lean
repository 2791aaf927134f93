import DeltaPack.Buffer
import DeltaPack.Delta.Mode
import DeltaPack.Event
import DeltaPack.Precoded.Size
import DeltaPack.Precoded.Tag

/-!
# Writing the pre-coded stream

`Precoded.encode` is the stream of a word list as a value: the common difference, the tags and
the residuals, in this order. `Precoded.encodeInto` writes it to the front of a caller's buffer
of at least `Precoded.maxSize` bytes and reports what it chose.
-/

namespace DeltaPack.Precoded

/-- The residuals of a list of differences, one after the other. -/
def residuals (common : Int32) (deltas : List Int32) : List UInt8 :=
  deltas.flatMap (Tag.residual common)

/-- The stream of differences around a given common one. -/
def encodeAround (common : Int32) (deltas : List Int32) : List UInt8 :=
  LittleEndian.bytes commonSize common.toUInt32.toNat ++
    (Tag.pack (deltas.map (Tag.classify common)) ++ residuals common deltas)

/-- **The pre-coded stream** of a word list: nothing for no words, otherwise the stream of its
differences around their mode. -/
def encode (words : List UInt32) : List UInt8 :=
  match Delta.mode words with
  | none => []
  | some common => encodeAround common (Delta.differences words)

/-- Writes the pre-coded stream to the front of a buffer. Words into a buffer shorter than
their worst case are refused, whatever their stream would take. -/
def encodeInto (words : List UInt32) (buffer : List UInt8) : Traced (Filled UInt8) :=
  match Delta.mode words with
  | none => pure (.wrote [] buffer)
  | some common =>
    if buffer.length < maxSize words.length then
      pure (.refused (.bufferTooSmall (maxSize words.length) buffer.length) buffer)
    else do
      let deltas := Delta.differences words
      Traced.emit (.encoded words.length common (residuals common deltas).length)
      pure (.wrote (encodeAround common deltas) buffer)

end DeltaPack.Precoded
