import DeltaPack.Buffer
import DeltaPack.Delta.Basic
import DeltaPack.Precoded.Size
import DeltaPack.Precoded.Tag

/-!
# Reading the pre-coded stream

The stream does not hold its own element count: the caller's slice says how many words to
rebuild. `Precoded.decodeInto` refuses a stream whose header is short before it writes
anything, and stops at the first missing residual, with the words before it already written.
-/

namespace DeltaPack.Precoded

/-- What a walk over the tags finds among the residuals. -/
structure Reading where
  /-- The differences read, in order. -/
  deltas : List Int32
  /-- Where the first missing residual would have ended, if one is missing. -/
  missing : Option Nat

/-- Walks the tags with the residuals that remain, from a position among the residuals and
behind the differences already read, which stand last first. -/
def readFrom (common : Int32) :
    List Tag → List UInt8 → (position : Nat) → (done : List Int32) → Reading
  | [], _, _, done => ⟨done.reverse, none⟩
  | tag :: tags, bytes, position, done =>
    let field := bytes.take tag.residualSize
    if field.length < tag.residualSize then
      ⟨done.reverse, some (position + tag.residualSize)⟩
    else
      readFrom common tags (bytes.drop tag.residualSize) (position + tag.residualSize)
        (tag.delta common field :: done)

/-- The common difference at the head of a stream. -/
def commonOf (stream : List UInt8) : Int32 :=
  Int32.ofInt (LittleEndian.signed (stream.take commonSize))

/-- The tags of a stream of `count` elements. -/
def tagsOf (count : Nat) (stream : List UInt8) : List Tag :=
  Tag.unpack count ((stream.drop commonSize).take (tagRegionSize count))

/-- The reading of a stream of `count` elements whose header is complete. -/
def read (count : Nat) (stream : List UInt8) : Reading :=
  readFrom (commonOf stream) (tagsOf count stream) (stream.drop (headerSize count)) 0 []

/-- Rebuilds as many words as the slice has places. A stream shorter than its own tags demand
is refused; the words before the first missing residual are then already in place. -/
def decodeInto (stream : List UInt8) (slice : List UInt32) : Filled UInt32 :=
  let count := slice.length
  if count = 0 then .wrote [] slice
  else if stream.length < headerSize count then
    .refused (.truncatedStream (headerSize count) stream.length) slice
  else
    let reading := read count stream
    let words := Delta.sums reading.deltas
    match reading.missing with
    | none => .wrote words slice
    | some stop =>
      .refused (.truncatedStream (headerSize count + stop) stream.length)
        (Filled.overlay words slice)

end DeltaPack.Precoded
