import DeltaPack.Backend
import DeltaPack.Pack
import DeltaPack.Word

/-!
# Sessions

A session fixes a configuration and owns a working space, which `decompressPooled` reuses from
call to call and lets grow to the largest size that was needed. Nothing else is kept: what a call
answers depends on the configuration and on what the call is given.

`Session.step` answers one `Request` and `Session.run` a list of them, each on the session that the
one before left behind.
-/

namespace DeltaPack

/-- A configured codec with its working space. -/
structure Session where
  /-- The configuration. -/
  config : Config := {}
  /-- The byte compressor with its parameters. -/
  backend : Backend := .ofChoice config.backend
  /-- The working space of `decompressPooled`. -/
  workspace : List UInt8 := []

namespace Session

/-- Opens a session. -/
def start (config : Config) : Traced Session := do
  Traced.emit (.opened config.backend)
  return { config }

/-- The size of the working space. -/
def workspaceCapacity (s : Session) : Nat := s.workspace.length

variable [Zstd.Library] {α : Type} [Word32 α]

/-- The room that `compressInto` asks for. -/
def compressedBufferSize (s : Session) (count : Nat) : Nat :=
  s.backend.compressor.packedSize count

/-- Packs a list into a buffer. -/
def compressInto (s : Session) (values : List α) (output : List UInt8) :
    Traced (Filled UInt8) :=
  s.backend.compressor.pack (Word32.toWords values) output

/-- Packs a list. -/
def compress (s : Session) (values : List α) : Traced (Except PackError (List UInt8)) :=
  s.backend.compressor.packed (Word32.toWords values)

/-- Unpacks into a slice, by way of a working space if one is given. The session's own is not
used. -/
def decompressInto (s : Session) (compressed : List UInt8) (slice : List α)
    (workspace : Option (List UInt8)) : Traced (Filled α) := do
  let filled ← s.backend.compressor.unpack compressed (Word32.toWords slice) workspace
  return filled.map Word32.ofWord

/-- The session with a working space of at least the given size; new bytes are zero. -/
def grow (s : Session) (size : Nat) : Session :=
  { s with workspace := s.workspace ++ List.replicate (size - s.workspace.length) 0 }

/-- Unpacks into a slice by way of the session's own working space. -/
def decompressPooled (s : Session) (compressed : List UInt8) (slice : List α) :
    Traced (Filled α × Session) := do
  let grown := s.grow (Precoded.workspaceSize slice.length)
  let (filled, workspace) ←
    s.backend.compressor.unpackWithin compressed (Word32.toWords slice) grown.workspace
  return (filled.map Word32.ofWord, { s with workspace })

end Session

/-! ### Requests -/

/-- What may be asked of a session. -/
inductive Request where
  /-- The room for packing so many words. -/
  | size (count : Nat)
  /-- Pack words. -/
  | compress (words : List UInt32)
  /-- Pack words into a buffer. -/
  | compressInto (words : List UInt32) (output : List UInt8)
  /-- Unpack into a slice, perhaps by way of a given working space. -/
  | decompressInto (compressed : List UInt8) (slice : List UInt32) (workspace : Option (List UInt8))
  /-- Unpack into a slice by way of the session's working space. -/
  | decompressPooled (compressed : List UInt8) (slice : List UInt32)
  /-- Go on with a copy of the session. -/
  | clone

/-- What a session answers. -/
inductive Reply where
  /-- A size. -/
  | size (room : Nat)
  /-- The packed bytes. -/
  | packed (bytes : Except PackError (List UInt8))
  /-- The buffer that was packed into. -/
  | filled (output : Filled UInt8)
  /-- The slice that was unpacked into. -/
  | restored (slice : Filled UInt32)
  /-- The session was copied. -/
  | cloned

namespace Session

variable [Zstd.Library]

/-- Answers a request, and the session that is left behind. -/
def step (s : Session) : Request → Traced (Reply × Session)
  | .size count => return (.size (s.compressedBufferSize count), s)
  | .compress words => return (.packed (← s.compress words), s)
  | .compressInto words output => return (.filled (← s.compressInto words output), s)
  | .decompressInto compressed slice workspace =>
    return (.restored (← s.decompressInto compressed slice workspace), s)
  | .decompressPooled compressed slice => do
    let (filled, s) ← s.decompressPooled compressed slice
    return (.restored filled, s)
  | .clone => return (.cloned, s)

/-- Answers requests one after the other. -/
def run (s : Session) : List Request → Traced (List Reply × Session)
  | [] => return ([], s)
  | request :: rest => do
    let (reply, s) ← s.step request
    let (replies, s) ← s.run rest
    return (reply :: replies, s)

end Session

end DeltaPack
