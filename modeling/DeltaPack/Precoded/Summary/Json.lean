import DeltaPack.Json.Skim
import DeltaPack.Json.Value
import DeltaPack.Precoded.Summary
import DeltaPack.Text.Ascii

/-!
# Summaries as documents

A summary is written as an object with six members, the tag counts among them as a list of four. It
is read from such an object with its members in any order, or from a list of their values. No member
may be left out or given twice, and members with other names are passed over.
-/

namespace DeltaPack.Precoded

open Json

/-- The members of a summary. -/
inductive Field where
  | count
  | common
  | tagCounts
  | tagBytes
  | residualBytes
  | totalSize
  deriving DecidableEq, Repr

namespace Field

/-- The key of a member. -/
def name : Field → String
  | count => "num_ints"
  | common => "common_value"
  | tagCounts => "tag_counts"
  | tagBytes => "tag_bytes"
  | residualBytes => "residual_bytes"
  | totalSize => "total_size"

/-- All members in the order in which they are written. -/
def all : List Field := [count, common, tagCounts, tagBytes, residualBytes, totalSize]

/-- The member with the given key. -/
def ofKey? (key : List UInt8) : Option Field :=
  all.find? fun field => Text.ascii field.name == key

end Field

/-! ### Writing -/

/-- Tag counts as a document. -/
def TagCounts.toJson (counts : TagCounts) : List UInt8 :=
  Text.ascii "[" ++ Text.decimal counts.common ++ Text.ascii "," ++ Text.decimal counts.one ++
    Text.ascii "," ++ Text.decimal counts.two ++ Text.ascii "," ++ Text.decimal counts.four ++
    Text.ascii "]"

/-- The value of a member as a document. -/
def Summary.fieldJson (summary : Summary) : Field → List UInt8
  | .count => Text.decimal summary.count
  | .common => Text.signedDecimal summary.common.toInt
  | .tagCounts => summary.tagCounts.toJson
  | .tagBytes => Text.decimal summary.tagBytes
  | .residualBytes => Text.decimal summary.residualBytes
  | .totalSize => Text.decimal summary.totalSize

/-- A member with its key. -/
def Summary.memberJson (summary : Summary) (field : Field) : List UInt8 :=
  Text.ascii "\"" ++ Text.ascii field.name ++ Text.ascii "\":" ++ summary.fieldJson field

/-- A summary as a document. -/
def Summary.toJson (summary : Summary) : List UInt8 :=
  Text.ascii "\x7b" ++ (Text.ascii ",").intercalate (Field.all.map summary.memberJson) ++
    Text.ascii "\x7d"

/-! ### Reading -/

/-- The members of a summary that were read so far. -/
structure Draft where
  count : Option Nat := none
  common : Option Int32 := none
  tagCounts : Option TagCounts := none
  tagBytes : Option Nat := none
  residualBytes : Option Nat := none
  totalSize : Option Nat := none

/-- The summary of a draft in which nothing is missing. -/
def Draft.complete (draft : Draft) : Except Cause Summary := do
  let count ← Reader.required Field.count.name draft.count
  let common ← Reader.required Field.common.name draft.common
  let tagCounts ← Reader.required Field.tagCounts.name draft.tagCounts
  let tagBytes ← Reader.required Field.tagBytes.name draft.tagBytes
  let residualBytes ← Reader.required Field.residualBytes.name draft.residualBytes
  let totalSize ← Reader.required Field.totalSize.name draft.totalSize
  return { count, common, tagCounts, tagBytes, residualBytes, totalSize }

/-- Reads tag counts. -/
def TagCounts.read (levels : Nat) : Reader TagCounts := Reader.placed do
  let expected := "an array of length 4"
  match ← Reader.found with
  | .sequence =>
    Reader.list levels fun _ => do
      let common ← Reader.elementAt 0 expected Reader.size
      let one ← Reader.elementAt 1 expected Reader.size
      let two ← Reader.elementAt 2 expected Reader.size
      let four ← Reader.elementAt 3 expected Reader.size
      return { common, one, two, four }
  | other => Reader.failUnplaced (.invalidType other expected)

/-- Reads the value of a member into a draft. -/
def Draft.readField (levels : Nat) (draft : Draft) (field : Field) : Reader Draft := do
  match field with
  | .count => return { draft with count := ← Reader.once field.name draft.count Reader.size }
  | .common => return { draft with common := ← Reader.once field.name draft.common Reader.int32 }
  | .tagCounts =>
    let tagCounts ← Reader.once field.name draft.tagCounts (TagCounts.read levels)
    return { draft with tagCounts }
  | .tagBytes =>
    return { draft with tagBytes := ← Reader.once field.name draft.tagBytes Reader.size }
  | .residualBytes =>
    let residualBytes ← Reader.once field.name draft.residualBytes Reader.size
    return { draft with residualBytes }
  | .totalSize =>
    return { draft with totalSize := ← Reader.once field.name draft.totalSize Reader.size }

/-- Reads one member of a summary. -/
def Draft.readMember (levels : Nat) (draft : Draft) : Reader Draft := do
  let key ← Reader.key
  match Field.ofKey? key with
  | some field => draft.readField levels field
  | none => do
    Reader.colon
    Reader.skim
    return draft

/-- Reads a summary from the values of its members. -/
def Summary.readElements (levels : Nat) : Reader Summary := do
  let expected := "struct PrecodeStats with 6 elements"
  let count ← Reader.elementAt 0 expected Reader.size
  let common ← Reader.elementAt 1 expected Reader.int32
  let tagCounts ← Reader.elementAt 2 expected (TagCounts.read levels)
  let tagBytes ← Reader.elementAt 3 expected Reader.size
  let residualBytes ← Reader.elementAt 4 expected Reader.size
  let totalSize ← Reader.elementAt 5 expected Reader.size
  return { count, common, tagCounts, tagBytes, residualBytes, totalSize }

/-- Reads a summary from its members. -/
def Summary.readMembers (levels : Nat) : Reader Summary := do
  let draft ← Reader.members (Draft.readMember levels) {}
  Reader.lift draft.complete

/-- **The summary that a document describes.** -/
def Summary.ofJson (document : List UInt8) : Except Refusal Summary :=
  Reader.readAll
    (Reader.record maxLevels "struct PrecodeStats" Summary.readElements Summary.readMembers)
    document

end DeltaPack.Precoded
