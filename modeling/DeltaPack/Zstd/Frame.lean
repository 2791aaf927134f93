import DeltaPack.Bytes.LittleEndian
import DeltaPack.Zstd.Fault
import DeltaPack.Zstd.Size

/-!
# Zstandard frames of stored blocks

A frame is a header and a list of blocks, of which the last is marked. This module knows two
kinds of block: raw bytes, and one byte repeated. Frames with blocks of the entropy-coded kind
are refused as corrupted.

* `Zstd.encodeFrame` writes a source as one frame that announces its content size. Each block of
  it is a run if all its bytes are equal, and raw otherwise.
* `Zstd.readFrame` reads one frame, with any header, and `Zstd.decode` a concatenation of frames
  and skippable frames.
-/

namespace DeltaPack.Zstd

/-- The magic number of a frame. -/
def frameMagic : Nat := 0xFD2FB528

/-- The first of the sixteen magic numbers of skippable frames. -/
def skippableMagic : Nat := 0x184D2A50

/-- Bytes of a block header. -/
def blockHeaderSize : Nat := 3

/-- The content of a block. -/
inductive Block where
  /-- Bytes as they are. -/
  | raw (bytes : List UInt8)
  /-- One byte repeated. -/
  | run (byte : UInt8) (count : Nat)
  deriving DecidableEq, Repr

/-- The bytes a block stands for. -/
def Block.content : Block → List UInt8
  | .raw bytes => bytes
  | .run byte count => List.replicate count byte

/-! ### Writing -/

/-- The block of a piece of the source. -/
def Block.ofContent : List UInt8 → Block
  | [] => .raw []
  | byte :: rest =>
    if rest.all (· == byte) then .run byte (rest.length + 1) else .raw (byte :: rest)

/-- The number of the block's kind in its header. -/
def Block.kind : Block → Nat
  | .raw _ => 0
  | .run _ _ => 1

/-- The length that a block announces. -/
def Block.size : Block → Nat
  | .raw bytes => bytes.length
  | .run _ count => count

/-- The bytes that follow the block's header. -/
def Block.payload : Block → List UInt8
  | .raw bytes => bytes
  | .run byte _ => [byte]

/-- A block with its header. -/
def Block.encode (block : Block) (isLast : Bool) : List UInt8 :=
  LittleEndian.bytes blockHeaderSize
    ((if isLast then 1 else 0) + 2 * block.kind + 8 * block.size) ++ block.payload

/-- The blocks of a source: full ones as long as more than one block's worth is left. -/
def encodeBlocks (source : List UInt8) : List UInt8 :=
  if _h : blockLimit < source.length then
    (Block.ofContent (source.take blockLimit)).encode false ++
      encodeBlocks (source.drop blockLimit)
  else (Block.ofContent source).encode true
termination_by source.length
decreasing_by simp only [blockLimit, List.length_drop] at *; omega

/-- **A source as one frame**, a single segment with an eight-byte content size. -/
def encodeFrame (source : List UInt8) : List UInt8 :=
  LittleEndian.bytes 4 frameMagic ++
    (0xE0 :: (LittleEndian.bytes 8 source.length ++ encodeBlocks source))

/-! ### Reading headers -/

/-- What the descriptor byte of a frame says. -/
structure Descriptor where
  /-- Bytes of the dictionary number. -/
  dictionarySize : Nat
  /-- A checksum follows the last block. -/
  hasChecksum : Bool
  /-- The reserved bit is set. -/
  reserved : Bool
  /-- The frame is one segment and has no window. -/
  singleSegment : Bool
  /-- Bytes of the content size. -/
  contentFieldSize : Nat

/-- Reads a descriptor byte. -/
def Descriptor.ofByte (byte : UInt8) : Descriptor :=
  let bits := byte.toNat
  let single := bits / 32 % 2 == 1
  { dictionarySize := [0, 1, 2, 4].getD (bits % 4) 0
    hasChecksum := bits / 4 % 2 == 1
    reserved := bits / 8 % 2 == 1
    singleSegment := single
    contentFieldSize := [if single then 1 else 0, 2, 4, 8].getD (bits / 64) 0 }

/-- Bytes of the window field. -/
def Descriptor.windowFieldSize (d : Descriptor) : Nat := if d.singleSegment then 0 else 1

/-- Bytes of a frame header with its magic number and descriptor. -/
def Descriptor.headerSize (d : Descriptor) : Nat :=
  5 + d.windowFieldSize + d.dictionarySize + d.contentFieldSize

/-- The content size that a field announces, if it announces one. The two-byte field starts at
256, and the largest eight-byte value means that the size is unknown. -/
def contentSize? (field : List UInt8) : Option Nat :=
  let size := LittleEndian.value field
  match field.length with
  | 0 => none
  | 2 => some (size + 256)
  | 8 => if size = 0xFFFFFFFFFFFFFFFF then none else some size
  | _ => some size

/-- What a frame header says about the blocks after it. -/
structure Header where
  /-- Bytes of the header. -/
  size : Nat
  /-- The announced size of the content. -/
  contentSize : Option Nat
  /-- A checksum follows the last block. -/
  hasChecksum : Bool

/-- Reads a frame header. There must be room for a block header behind it. -/
def readHeader (source : List UInt8) : Except Fault Header :=
  if (source.take 9).length < 9 then .error .wrongSourceSize
  else
    let d := Descriptor.ofByte (source.getD 4 0)
    let needed := d.headerSize + blockHeaderSize
    let window := (source.getD 5 0).toNat
    let dictionary := (source.drop (5 + d.windowFieldSize)).take d.dictionarySize
    let content :=
      (source.drop (5 + d.windowFieldSize + d.dictionarySize)).take d.contentFieldSize
    if (source.take needed).length < needed then .error .wrongSourceSize
    else if LittleEndian.value (source.take 4) ≠ frameMagic then .error .unknownFrame
    else if d.reserved then .error .unsupportedParameter
    else if !d.singleSegment && 31 < window / 8 + 10 then .error .windowTooLarge
    else if LittleEndian.value dictionary ≠ 0 then .error .wrongDictionary
    else .ok ⟨d.headerSize, contentSize? content, d.hasChecksum⟩

/-! ### Reading blocks and frames -/

/-- Reads one block: whether it is the last, its content, and the input after it. -/
def readBlock (room : Nat) (input : List UInt8) :
    Except Fault (Bool × List UInt8 × List UInt8) :=
  let field := input.take blockHeaderSize
  let header := LittleEndian.value field
  let rest := input.drop blockHeaderSize
  let isLast := header % 2 == 1
  let size := header / 8
  if field.length < blockHeaderSize then .error .wrongSourceSize
  else
    match header / 2 % 4 with
    | 0 =>
      let bytes := rest.take size
      if bytes.length < size then .error .wrongSourceSize
      else if room < size then .error .targetTooSmall
      else .ok (isLast, bytes, rest.drop size)
    | 1 =>
      match rest with
      | [] => .error .wrongSourceSize
      | byte :: rest =>
        if room < size then .error .targetTooSmall
        else .ok (isLast, List.replicate size byte, rest)
    | 2 => if (rest.take size).length < size then .error .wrongSourceSize else .error .corrupted
    | _ => .error .corrupted

theorem readBlock_length {room : Nat} {input content rest : List UInt8} {isLast : Bool}
    (h : readBlock room input = .ok (isLast, content, rest)) : rest.length < input.length := by
  have hdrop : (input.drop blockHeaderSize).length = input.length - blockHeaderSize :=
    List.length_drop
  unfold readBlock at h
  grind [blockHeaderSize]

/-- Reads blocks up to the last one, behind the content so far: all content and the input
after the blocks. -/
def readBlocks (room : Nat) (input : List UInt8) (output : Array UInt8) :
    Except Fault (Array UInt8 × List UInt8) :=
  match _h : readBlock (room - output.size) input with
  | .error fault => .error fault
  | .ok (true, content, rest) => .ok (output ++ content, rest)
  | .ok (false, content, rest) => readBlocks room rest (output ++ content)
termination_by input.length
decreasing_by exact readBlock_length _h

/-- Reads one frame: its content and the input after it. Frames with a checksum are refused. -/
def readFrame (room : Nat) (source : List UInt8) : Except Fault (List UInt8 × List UInt8) := do
  let header ← readHeader source
  let (content, rest) ← readBlocks room (source.drop header.size) #[]
  if header.contentSize.any (· != content.size) then .error .corrupted
  else if header.hasChecksum then .error .wrongChecksum
  else .ok (content.toList, rest)

/-- The input after a skippable frame. -/
def skipFrame (source : List UInt8) : Except Fault (List UInt8) :=
  let size := LittleEndian.value ((source.drop 4).take 4)
  let content := (source.drop 8).take size
  if (source.take 8).length < 8 then .error .wrongSourceSize
  else if 0x100000000 ≤ size + 8 then .error .unsupportedParameter
  else if content.length < size then .error .wrongSourceSize
  else .ok ((source.drop 8).drop size)

/-- Whether a source begins with a skippable frame. -/
def startsSkippable (source : List UInt8) : Bool :=
  LittleEndian.value (source.take 4) / 16 == skippableMagic / 16

/-- Decodes the frames that are left, behind the content so far. `later` says that a frame was
read before, after which bytes that begin no frame are surplus. A frame takes at least one byte,
so as many frames as there are bytes are enough. -/
def decodeFrames (room : Nat) : (frames : Nat) → (later : Bool) → (source : List UInt8) →
    (output : Array UInt8) → Except Fault (List UInt8)
  | 0, _, source, output =>
    if source = [] then .ok output.toList else .error .wrongSourceSize
  | frames + 1, later, source, output =>
    if (source.take 5).length < 5 then
      if source = [] then .ok output.toList else .error .wrongSourceSize
    else if startsSkippable source then
      match skipFrame source with
      | .error fault => .error fault
      | .ok rest => decodeFrames room frames later rest output
    else
      match readFrame (room - output.size) source with
      | .error .unknownFrame =>
        .error (if later then .wrongSourceSize else .unknownFrame)
      | .error fault => .error fault
      | .ok (content, rest) => decodeFrames room frames true rest (output ++ content)

/-- **Decodes a source** of concatenated frames into a limited room. No bytes are no frames. -/
def decode (room : Nat) (source : List UInt8) : Except Fault (List UInt8) :=
  decodeFrames room source.length false source #[]

/-! ### Room

The room that is left shrinks as content is put behind what there is, so whatever is decoded fits
the room at the start. -/

theorem readBlock_content {room : Nat} {input content rest : List UInt8} {isLast : Bool}
    (h : readBlock room input = .ok (isLast, content, rest)) : content.length ≤ room := by
  unfold readBlock at h
  grind

theorem size_append_le {room : Nat} {output : Array UInt8} {content : List UInt8}
    (houtput : output.size ≤ room) (hcontent : content.length ≤ room - output.size) :
    (output ++ content).size ≤ room := by
  rw [← Array.length_toList, Array.toList_appendList, List.length_append, Array.length_toList]
  omega

theorem readBlocks_size {room : Nat} {input rest : List UInt8} {output content : Array UInt8}
    (h : readBlocks room input output = .ok (content, rest)) (houtput : output.size ≤ room) :
    content.size ≤ room := by
  induction input, output using readBlocks.induct room with
  | case1 input output fault hblock =>
    rw [readBlocks] at h
    grind
  | case2 input output piece rest' hblock =>
    have hsize := size_append_le houtput (readBlock_content hblock)
    rw [readBlocks] at h
    grind
  | case3 input output piece rest' hblock ih =>
    have hsize := size_append_le houtput (readBlock_content hblock)
    rw [readBlocks] at h
    grind

theorem readFrame_content {room : Nat} {source content rest : List UInt8}
    (h : readFrame room source = .ok (content, rest)) : content.length ≤ room := by
  rw [readFrame] at h
  rcases hheader : readHeader source with fault | header
  · rw [hheader] at h
    cases h
  · rcases hblocks : readBlocks room (source.drop header.size) #[] with fault | ⟨bytes, rest'⟩
    · simp [hheader, hblocks, bind, Except.bind] at h
    · have hsize := readBlocks_size hblocks (Nat.zero_le room)
      simp only [hheader, hblocks, bind, Except.bind] at h
      grind

theorem decodeFrames_length {room frames : Nat} {later : Bool} {source restored : List UInt8}
    {output : Array UInt8} (h : decodeFrames room frames later source output = .ok restored)
    (houtput : output.size ≤ room) : restored.length ≤ room := by
  induction frames generalizing later source output with
  | zero =>
    rw [decodeFrames] at h
    grind
  | succ frames ih =>
    rw [decodeFrames] at h
    rcases hframe : readFrame (room - output.size) source with fault | ⟨content, rest⟩
    · grind
    · have hsize := size_append_le houtput (readFrame_content hframe)
      grind

/-- **What is decoded fits the room.** -/
theorem decode_length {room : Nat} {source restored : List UInt8}
    (h : decode room source = .ok restored) : restored.length ≤ room :=
  decodeFrames_length h (Nat.zero_le room)

end DeltaPack.Zstd
