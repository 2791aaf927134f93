import DeltaPack.Error
import DeltaPack.Precoded.Decode

/-!
# Inspecting a pre-coded stream

`Precoded.summarize` walks the tags of a stream without rebuilding a word and reports the
common difference, how many elements carry each tag and how long the stream is. It accepts
exactly the streams that decode, but it adds up all residuals before it compares, so that the
size it demands of a short stream is the whole stream's.
-/

namespace DeltaPack.Precoded

/-- One number per tag. -/
structure TagCounts where
  common : Nat
  one : Nat
  two : Nat
  four : Nat
  deriving DecidableEq, Repr

/-- The number that stands for a tag. -/
def TagCounts.count (counts : TagCounts) : Tag → Nat
  | .common => counts.common
  | .one => counts.one
  | .two => counts.two
  | .four => counts.four

/-- How often each tag occurs. -/
def TagCounts.ofTags (tags : List Tag) : TagCounts where
  common := tags.count .common
  one := tags.count .one
  two := tags.count .two
  four := tags.count .four

/-- Bytes that the residuals of so many tags take. -/
def TagCounts.residualBytes (counts : TagCounts) : Nat :=
  counts.one * Tag.one.residualSize + counts.two * Tag.two.residualSize +
    counts.four * Tag.four.residualSize

/-- What a pre-coded stream holds, short of its words. -/
structure Summary where
  /-- The number of elements. -/
  count : Nat
  /-- The common difference. -/
  common : Int32
  /-- Elements per tag. -/
  tagCounts : TagCounts
  /-- Bytes of the tag region. -/
  tagBytes : Nat
  /-- Bytes of all residuals. -/
  residualBytes : Nat
  /-- Bytes of the whole stream. -/
  totalSize : Nat
  deriving DecidableEq, Repr

/-- The summary of a stream of no elements. -/
def Summary.empty : Summary := ⟨0, 0, ⟨0, 0, 0, 0⟩, 0, 0, 0⟩

/-- Inspects a stream of `count` elements. -/
def summarize (stream : List UInt8) (count : Nat) : Except PackError Summary :=
  if count = 0 then .ok Summary.empty
  else if stream.length < headerSize count then
    .error (.truncatedStream (headerSize count) stream.length)
  else
    let tagCounts := TagCounts.ofTags (tagsOf count stream)
    let size := headerSize count + tagCounts.residualBytes
    if stream.length < size then .error (.truncatedStream size stream.length)
    else
      .ok {
        count
        common := commonOf stream
        tagCounts
        tagBytes := tagRegionSize count
        residualBytes := tagCounts.residualBytes
        totalSize := size }

end DeltaPack.Precoded
