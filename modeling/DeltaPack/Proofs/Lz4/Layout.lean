import DeltaPack.Proofs.Lz4.Decompress
import Mathlib.Data.List.Forall2

/-!
# What compression can come to

Compression has three outcomes, and the lengths alone say which one it is: the source is too long,
or the target is too short, or the container is written. The checks before each block and behind
it are never the ones that fail.

What a container looks like is said in terms of its bytes. `Framed` splits a run of bytes into
blocks, each behind four bytes that are its length as a signed integer, which is positive;
nothing is left over. `Holds` says that a block decodes to a part of the source and is hardly longer
than it. A source that fits one block is stored in one behind a zero byte; any other is stored in
as many frames as its first byte says, one for each of its pieces (`compress_outcome`).
-/

namespace DeltaPack.Lz4

/-! ### Blocks and frames -/

/-- A block **holds** a part of a source: it decodes to that part, in no more room than the part
takes, and it is at most sixteen bytes and one byte in 255 longer. -/
structure Holds (block part : List UInt8) : Prop where
  decodes : decodeBlock part.length block = .ok part
  length_le : block.length ≤ part.length + part.length / 255 + 16

theorem holds_encodeBlock (part : List UInt8) : Holds (encodeBlock part) part where
  decodes := decodeBlock_encodeBlock (Nat.le_refl part.length)
  length_le := Nat.le_trans (length_encodeBlock_le part) (by omega)

/-- Bytes that are the **frames** of some blocks, one after the other: in front of each block
stands its length, a positive number in four bytes. -/
inductive Framed : List UInt8 → List (List UInt8) → Prop
  | nil : Framed [] []
  | cons {field block rest : List UInt8} {blocks : List (List UInt8)}
      (length_field : field.length = chunkLengthSize)
      (positive : 0 < LittleEndian.signed field)
      (signed_field : LittleEndian.signed field = block.length)
      (tail : Framed rest blocks) : Framed (field ++ (block ++ rest)) (block :: blocks)

/-- Frames take the bytes of their blocks and four more for each. -/
theorem Framed.length_eq {bytes : List UInt8} {blocks : List (List UInt8)}
    (h : Framed bytes blocks) :
    bytes.length = (blocks.map fun block => 4 + block.length).sum := by
  induction h with
  | nil => rfl
  | cons length_field positive signed_field tail ih =>
    rw [List.length_append, List.length_append, length_field, ih, List.map_cons, List.sum_cons,
      chunkLengthSize]
    omega

/-- A block has a token at least. -/
theorem length_encodeBlock_pos (source : List UInt8) : 0 < (encodeBlock source).length := by
  rw [encodeBlock, Parse.encode, List.length_append, length_encodeLast]
  omega

/-- The length of a chunk, read back as a signed number. -/
theorem signed_chunkLength {length : Nat} (h : length < chunkLengthLimit) :
    LittleEndian.signed (LittleEndian.bytes chunkLengthSize length) = length := by
  have hvalue := value_chunkLength h
  have hlower : 2 * LittleEndian.value (LittleEndian.bytes chunkLengthSize length) <
      LittleEndian.capacity (LittleEndian.bytes chunkLengthSize length).length := by
    rw [hvalue, LittleEndian.length_bytes, capacity_chunkLengthSize]
    omega
  rw [LittleEndian.signed_of_lt hlower, hvalue]

theorem framed_frames {pieces : List (List UInt8)}
    (h : ∀ chunk ∈ pieces, chunk.length ≤ maxBlockInput) :
    Framed (frames pieces) (pieces.map encodeBlock) := by
  induction pieces with
  | nil => exact .nil
  | cons chunk rest ih =>
    obtain ⟨hchunk, hrest⟩ := List.forall_mem_cons.1 h
    have hsigned := signed_chunkLength (length_encodeBlock_lt_chunkLengthLimit hchunk)
    have hpos := length_encodeBlock_pos chunk
    rw [frames_cons, frame, List.append_assoc, List.map_cons]
    refine .cons (LittleEndian.length_bytes ..) ?_ hsigned (ih hrest)
    rw [hsigned]
    exact Int.natCast_pos.2 hpos

/-! ### Containers -/

/-- How the bytes of a container are **laid out** for a source. -/
inductive Layout (c : Lz4) (source : List UInt8) : List UInt8 → Prop
  /-- A source that fits one block is stored in one, behind a zero byte. -/
  | single {block : List UInt8} (fits : source.length ≤ c.chunkLimit)
      (holds : Holds block source) : Layout c source (0 :: block)
  /-- Any other source is stored in as many frames as the first byte says, one for each piece. -/
  | several {count : UInt8} {bytes : List UInt8} {blocks : List (List UInt8)}
      (exceeds : c.chunkLimit < source.length)
      (count_eq : count.toNat = (source.length + c.chunkLimit - 1) / c.chunkLimit)
      (two_le : 2 ≤ count.toNat) (le_maxChunks : count.toNat ≤ 127)
      (framed : Framed bytes blocks) (length_blocks : blocks.length = count.toNat)
      (length_bytes : bytes.length = (blocks.map fun block => 4 + block.length).sum)
      (holds : List.Forall₂ Holds blocks (c.pieces source)) : Layout c source (count :: bytes)

theorem layout_container {c : Lz4} {source : List UInt8} (h : source.length ≤ c.maxInputSize) :
    Layout c source (c.container source) := by
  rcases Nat.lt_or_ge c.chunkLimit source.length with hlt | hle
  · obtain ⟨htoNat, -⟩ := toNat_length_pieces hlt h
    have hframed : Framed (frames (c.pieces source)) ((c.pieces source).map encodeBlock) :=
      framed_frames fun _ => length_le_maxBlockInput
    rw [container_of_lt hlt]
    refine .several hlt ?_ ?_ ?_ hframed ?_ hframed.length_eq ?_
    · rw [htoNat, length_pieces]
    · rw [htoNat]
      exact two_le_length_pieces hlt
    · rw [htoNat]
      exact length_pieces_le h
    · rw [htoNat, List.length_map]
    · rw [List.forall₂_map_left_iff]
      exact List.forall₂_same.2 fun piece _ => holds_encodeBlock piece
  · rw [container_of_le hle]
    exact .single hle (holds_encodeBlock source)

/-- **Compression fails only for the lengths it is given.** A source of more than 127 chunks is
refused, and so is a target below the bound for the source. In every other case a container is
written that keeps to the bound: one block behind a zero byte, or the frames that its first byte
counts, of which nothing is left over. -/
theorem compress_outcome (c : Lz4) (source target : List UInt8) :
    let outcome := c.compress source target
    (outcome.result = .error (.inputTooLarge source.length (127 * c.chunkLimit)) ↔
        127 * c.chunkLimit < source.length) ∧
      (outcome.result = .error (.bufferTooSmall (c.maxCompressedSize source.length) target.length) ↔
        source.length ≤ 127 * c.chunkLimit ∧ target.length < c.maxCompressedSize source.length) ∧
      ((∃ n, outcome.result = .ok n) ↔
        source.length ≤ 127 * c.chunkLimit ∧ c.maxCompressedSize source.length ≤ target.length) ∧
      (∀ cause, outcome.result ≠ .error (.compressionFailed cause)) ∧
      ∀ n, outcome.result = .ok n → n ≤ c.maxCompressedSize source.length ∧
        (outcome.buffer.take n).length = n ∧ Layout c source (outcome.buffer.take n) := by
  intro outcome
  have hmax : c.maxInputSize = 127 * c.chunkLimit := rfl
  obtain ⟨hlong, heq⟩ | ⟨hsource, hshort, heq⟩ | ⟨hsource, htarget, heq⟩ :=
    compress_cases c source target
  · have hresult : outcome.result = .error (.inputTooLarge source.length c.maxInputSize) :=
      congrArg Filled.result heq
    rw [hresult, ← hmax]
    refine ⟨iff_of_true rfl hlong, iff_of_false ?_ ?_, iff_of_false ?_ ?_, ?_, ?_⟩
    · rintro ⟨⟩
    · exact fun h => Nat.not_le.2 hlong h.1
    · rintro ⟨n, ⟨⟩⟩
    · exact fun h => Nat.not_le.2 hlong h.1
    · rintro cause ⟨⟩
    · rintro n ⟨⟩
  · have hresult : outcome.result =
        .error (.bufferTooSmall (c.maxCompressedSize source.length) target.length) :=
      congrArg Filled.result heq
    rw [hresult, ← hmax]
    refine ⟨iff_of_false ?_ (Nat.not_lt.2 hsource), iff_of_true rfl ⟨hsource, hshort⟩,
      iff_of_false ?_ ?_, ?_, ?_⟩
    · rintro ⟨⟩
    · rintro ⟨n, ⟨⟩⟩
    · exact fun h => Nat.not_le.2 hshort h.2
    · rintro cause ⟨⟩
    · rintro n ⟨⟩
  · have hresult : outcome.result = .ok (c.container source).length := congrArg Filled.result heq
    have hbuffer : outcome.buffer = Filled.overlay (c.container source) target :=
      congrArg Filled.buffer heq
    have hwritten : outcome.buffer.take (c.container source).length = c.container source := by
      rw [hbuffer, Filled.overlay, List.take_left]
    rw [hresult, ← hmax]
    refine ⟨iff_of_false ?_ (Nat.not_lt.2 hsource), iff_of_false ?_ ?_,
      iff_of_true ⟨_, rfl⟩ ⟨hsource, htarget⟩, ?_, fun n hn => ?_⟩
    · rintro ⟨⟩
    · rintro ⟨⟩
    · exact fun h => Nat.not_lt.2 htarget h.2
    · rintro cause ⟨⟩
    · obtain rfl := Except.ok.inj hn
      rw [hwritten]
      exact ⟨length_container_le c source, rfl, layout_container hsource⟩

/-- Forty bytes in chunks of sixteen: into a target of exactly the bound, into one a byte shorter,
and with a limit that makes them too long. -/
theorem compress_outcome_forty :
    let c := ofChunkLimit 16
    let source := List.replicate 40 7
    let outcome := c.compress source (List.replicate 115 9)
    (∃ n, outcome.result = .ok n ∧ n ≤ 115 ∧ Layout c source (outcome.buffer.take n)) ∧
      (c.compress source (List.replicate 114 9)).result = .error (.bufferTooSmall 115 114) ∧
      ((ofChunkLimit 0).compress (List.replicate 128 7) []).result =
        .error (.inputTooLarge 128 127) := by
  intro c source outcome
  have hbound : c.maxCompressedSize source.length = 115 := by decide
  obtain ⟨-, -, hok, -, hlayout⟩ := compress_outcome c source (List.replicate 115 9)
  obtain ⟨n, hn⟩ := hok.2 (by decide)
  obtain ⟨hle, -, hlaid⟩ := hlayout n hn
  obtain ⟨-, hshort, -⟩ := compress_outcome c source (List.replicate 114 9)
  obtain ⟨hlong, -⟩ := compress_outcome (ofChunkLimit 0) (List.replicate 128 7) []
  rw [hbound] at hle hshort
  exact ⟨⟨n, hn, hle, hlaid⟩, hshort.2 (by decide), hlong.2 (by decide)⟩

end DeltaPack.Lz4
