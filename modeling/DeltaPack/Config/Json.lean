import DeltaPack.Config
import DeltaPack.Json.Skim
import DeltaPack.Json.Value
import DeltaPack.Text.Ascii

/-!
# Configurations as documents

A configuration is written as an object with the member `backend`, whose value is in turn an object
with a tag of the same name:

    {"backend":{"backend":"zstd","level":3}}

All members may be left out, but for the tag, and come in any order. The tag may stand anywhere
among its siblings, so these are kept until the tag is known. Members with other names are passed
over. Both objects may also be given as lists of their members' values, the tag first.
-/

namespace DeltaPack

open Json

/-! ### Writing -/

/-- A choice as a document. -/
def BackendChoice.toJson : BackendChoice → List UInt8
  | .lz4 => Text.ascii "\x7b\"backend\":\"lz4\"\x7d"
  | .zstd level =>
    Text.ascii "\x7b\"backend\":\"zstd\",\"level\":" ++ Text.signedDecimal level.toInt ++
      Text.ascii "\x7d"

/-- A configuration as a document. -/
def Config.toJson (config : Config) : List UInt8 :=
  Text.ascii "\x7b\"backend\":" ++ config.backend.toJson ++ Text.ascii "\x7d"

/-! ### Reading -/

/-- The tag of a choice. -/
inductive BackendTag where
  | lz4
  | zstd
  deriving DecidableEq, Repr

/-- The tag that a text names. -/
def BackendTag.ofText (text : List UInt8) : Except Cause BackendTag :=
  if text = Text.ascii "lz4" then .ok lz4
  else if text = Text.ascii "zstd" then .ok zstd
  else .error (.unknownVariant text ["lz4", "zstd"])

/-- Reads a tag. -/
def BackendTag.read : Reader BackendTag := Reader.placed do
  match ← Reader.found with
  | .string text => Reader.lift (ofText text)
  | other => Reader.failUnplaced (.invalidType other "variant identifier")

/-- What stands beside a tag. -/
inductive Siblings where
  /-- The elements of a list behind the tag. -/
  | elements (values : List Found)
  /-- The members of an object without the tag. -/
  | members (values : List (List UInt8 × Found))

/-- The level among the members of an object, if there is one. -/
def levelOfMembers : Option Int32 → List (List UInt8 × Found) → Except Cause (Option Int32)
  | level, [] => .ok level
  | level, (key, value) :: rest =>
    if key = Text.ascii "level" then
      if level.isSome then .error (.duplicateField "level")
      else do
        let level ← value.toInt32
        levelOfMembers (some level) rest
    else levelOfMembers level rest

/-- The choice that a tag makes with what stands beside it. -/
def BackendChoice.ofTag : BackendTag → Siblings → Except Cause BackendChoice
  | .lz4, .members _ => .ok .lz4
  | .lz4, .elements [] => .ok .lz4
  | .lz4, .elements values =>
    .error (.invalidLength values.length "0 elements in sequence")
  | .zstd, .members values => do
    let level ← levelOfMembers none values
    return .zstd (level.getD BackendChoice.defaultLevel)
  | .zstd, .elements [] => .ok (.zstd BackendChoice.defaultLevel)
  | .zstd, .elements [value] => do
    let level ← value.toInt32
    return .zstd level
  | .zstd, .elements (value :: rest) => do
    let _ ← value.toInt32
    .error (.invalidLength (rest.length + 1) "1 element in sequence")

/-- Reads a tag at the head of a list, and the elements behind it, last first. -/
def BackendTag.readElements (levels : Nat) : Reader (BackendTag × Siblings) := do
  if ← Reader.nextElement true then
    let tag ← BackendTag.read
    let values ←
      Reader.elements (fun values => do return (← Reader.anyValue levels) :: values) false []
    return (tag, .elements values.reverse)
  else Reader.failUnplaced (.missingField "backend")

/-- Reads one member of an object with a tag, behind the members read before. -/
def BackendTag.readMember (levels : Nat)
    (before : Option BackendTag × List (List UInt8 × Found)) :
    Reader (Option BackendTag × List (List UInt8 × Found)) := do
  let key ← Reader.key
  if key = Text.ascii "backend" then
    return (← Reader.once "backend" before.1 BackendTag.read, before.2)
  else
    Reader.colon
    let value ← Reader.anyValue levels
    return (before.1, (key, value) :: before.2)

/-- Reads the members of an object, one of which is a tag. -/
def BackendTag.readMembers (levels : Nat) : Reader (BackendTag × Siblings) := do
  let (tag, values) ← Reader.members (BackendTag.readMember levels) (none, [])
  let tag ← Reader.lift (Reader.required "backend" tag)
  return (tag, .members values.reverse)

/-- Reads a choice. What stands beside the tag is looked at when the whole value was read, so a
fault in it has no place of its own. -/
def BackendChoice.read (levels : Nat) : Reader BackendChoice := do
  let (tag, siblings) ←
    Reader.record levels "internally tagged enum BackendConfig" BackendTag.readElements
      BackendTag.readMembers
  Reader.lift (BackendChoice.ofTag tag siblings)

/-- Reads one member of a configuration. -/
def Config.readMember (levels : Nat) (backend : Option BackendChoice) :
    Reader (Option BackendChoice) := do
  let key ← Reader.key
  if key = Text.ascii "backend" then
    Reader.once "backend" backend (BackendChoice.read levels)
  else
    Reader.colon
    Reader.skim
    return backend

/-- A configuration with a backend that may have been left out. -/
def Config.ofBackend? : Option BackendChoice → Config
  | none => {}
  | some backend => { backend }

/-- Reads a configuration. -/
def Config.read : Reader Config :=
  Reader.record maxLevels "struct CodecConfig"
    (fun levels => do
      if ← Reader.nextElement true then return { backend := ← BackendChoice.read levels }
      else return {})
    (fun levels => do
      return Config.ofBackend? (← Reader.members (Config.readMember levels) none))

/-- **The configuration that a document describes.** -/
def Config.ofJson (document : List UInt8) : Except Refusal Config :=
  Reader.readAll Config.read document

end DeltaPack
