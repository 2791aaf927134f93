import DeltaPack.Config.Json

/-!
# Configuration files

A configuration may be kept in a file. What is found under the file's name is a value here, so
that reading it is a function.
-/

namespace DeltaPack

open Json

/-- What is found under the name of a file. -/
inductive FileEntry where
  /-- Nothing. -/
  | missing
  /-- A directory. -/
  | directory
  /-- A file with its content. -/
  | file (content : List UInt8)
  deriving DecidableEq, Repr

/-- Why a file gives no text. -/
inductive FileFault where
  | notFound
  | isDirectory
  | notText
  deriving DecidableEq, Repr

/-- The wording of a file's fault. -/
def FileFault.message : FileFault → String
  | .notFound => "No such file or directory (os error 2)"
  | .isDirectory => "Is a directory (os error 21)"
  | .notText => "stream did not contain valid UTF-8"

/-- Why there is no configuration. -/
inductive ConfigError where
  /-- The document is refused. -/
  | document (refusal : Refusal)
  /-- The file cannot be read as text. -/
  | file (fault : FileFault)

/-- The sentence shown to a user. -/
def ConfigError.message : ConfigError → String
  | .document refusal => "Config parse error: " ++ refusal.message
  | .file fault => "I/O error: " ++ fault.message

/-- The text of a file. -/
def FileEntry.text : FileEntry → Except FileFault (List UInt8)
  | .missing => .error .notFound
  | .directory => .error .isDirectory
  | .file content =>
    if (ByteArray.mk content.toArray).validateUTF8 then .ok content else .error .notText

/-- The configuration in a document, with its error among those of configurations. -/
def Config.load (document : List UInt8) : Except ConfigError Config :=
  (Config.ofJson document).mapError .document

/-- The configuration in a file. -/
def Config.ofFile (entry : FileEntry) : Except ConfigError Config := do
  let document ← entry.text.mapError .file
  Config.load document

end DeltaPack
