import DeltaPack.Lz4.Frame
import DeltaPack.Proofs.Lz4.Size
import Mathlib.Algebra.GroupWithZero.Nat

/-!
# Compression fails only for want of room

`Lz4.container` is the container of a source as a value: a zero byte and its block, or the number
of its chunks and then each chunk's block behind its length. `compress_eq_wrote` says that a source
that is not too long, given a target that is not too short, is compressed to exactly this,
whatever the target held and however long it is.

The compressor checks the room again before each block and the length of each block behind it. It
never fails there. The bound on the container is the sum of what is reserved for its chunks
(`maxCompressedSize_eq`), a chunk takes no more than what is reserved for it, so what is left after
some chunks is enough for the others (`chunksInto_eq_ok`).
-/

namespace DeltaPack.Lz4

/-! ### Chunks -/

section Chunks

variable {limit : Nat} {h : 0 < limit}

/-- Chunks lose nothing. -/
@[simp]
theorem flatten_chunks (source : List UInt8) : (chunks limit h source).flatten = source := by
  fun_induction chunks limit h source with
  | case1 => rfl
  | case2 source hs ih => rw [List.flatten_cons, ih, List.take_append_drop]

theorem length_le_of_mem_chunks {source chunk : List UInt8} (hc : chunk ∈ chunks limit h source) :
    chunk.length ≤ limit := by
  fun_induction chunks limit h source with
  | case1 => exact absurd hc List.not_mem_nil
  | case2 source hs ih =>
    rcases List.mem_cons.1 hc with rfl | hrest
    · exact List.length_take_le ..
    · exact ih hrest

/-- There are as many chunks as the length holds limits, rounded up. -/
theorem length_chunks (source : List UInt8) :
    (chunks limit h source).length = (source.length + limit - 1) / limit := by
  fun_induction chunks limit h source with
  | case1 => simp [Nat.div_eq_of_lt (Nat.sub_lt h Nat.one_pos)]
  | case2 source hs ih =>
    have hpos := List.length_pos_iff.2 hs
    rw [List.length_cons, ih, List.length_drop]
    rcases Nat.lt_or_ge source.length limit with hlt | hge
    · rw [Nat.sub_eq_zero_of_le (Nat.le_of_lt hlt), Nat.zero_add,
        Nat.div_eq_of_lt (Nat.sub_lt h Nat.one_pos),
        show source.length + limit - 1 = source.length - 1 + limit by omega,
        Nat.add_div_right _ h, Nat.div_eq_of_lt (by omega)]
    · rw [← Nat.add_div_right _ h]
      congr 1
      omega

/-- A quantity that depends on lengths, summed over chunks: all but the last are full. -/
theorem sum_map_length_chunks (f : Nat → Nat) (source : List UInt8) :
    ((chunks limit h source).map fun chunk => f chunk.length).sum =
      source.length / limit * f limit +
        if source.length % limit = 0 then 0 else f (source.length % limit) := by
  fun_induction chunks limit h source with
  | case1 => simp
  | case2 source hs ih =>
    have hpos := List.length_pos_iff.2 hs
    rw [List.map_cons, List.sum_cons, ih, List.length_drop, List.length_take]
    -- a chunk that is not full is the last one, and then the only one
    rcases Nat.lt_or_ge source.length limit with hlt | hge
    · rw [Nat.sub_eq_zero_of_le (Nat.le_of_lt hlt), Nat.min_eq_right (Nat.le_of_lt hlt),
        Nat.div_eq_of_lt hlt, Nat.mod_eq_of_lt hlt, Nat.zero_div, Nat.zero_mod, if_pos rfl,
        if_neg (Nat.ne_of_gt hpos), Nat.zero_mul, Nat.add_zero, Nat.zero_add]
    · have hdiv : source.length / limit = (source.length - limit) / limit + 1 := by
        rw [← Nat.add_div_right _ h, Nat.sub_add_cancel hge]
      rw [Nat.min_eq_left hge, hdiv, Nat.mod_eq_sub_mod hge, Nat.add_mul, Nat.one_mul]
      omega

end Chunks

/-! ### The container of a source -/

/-- The chunks that a compressor cuts a source into. -/
def pieces (c : Lz4) (source : List UInt8) : List (List UInt8) :=
  chunks c.chunkLimit c.chunkLimit_pos source

@[simp]
theorem flatten_pieces (c : Lz4) (source : List UInt8) : (c.pieces source).flatten = source :=
  flatten_chunks source

theorem length_le_of_mem_pieces {c : Lz4} {source chunk : List UInt8}
    (h : chunk ∈ c.pieces source) : chunk.length ≤ c.chunkLimit :=
  length_le_of_mem_chunks h

theorem length_le_maxBlockInput {c : Lz4} {source chunk : List UInt8}
    (h : chunk ∈ c.pieces source) : chunk.length ≤ maxBlockInput :=
  Nat.le_trans (length_le_of_mem_pieces h) c.chunkLimit_le

/-- There are as many pieces as the length holds limits, rounded up. -/
theorem length_pieces (c : Lz4) (source : List UInt8) :
    (c.pieces source).length = (source.length + c.chunkLimit - 1) / c.chunkLimit :=
  length_chunks source

/-- A source that is longer than the limit has a piece of just that length. -/
theorem exists_full_piece {c : Lz4} {source : List UInt8} (h : c.chunkLimit < source.length) :
    ∃ piece ∈ c.pieces source, piece.length = c.chunkLimit := by
  have hs : source ≠ [] := by
    rintro rfl
    exact Nat.not_lt_zero _ h
  rw [pieces, chunks, dif_neg hs]
  exact ⟨_, List.mem_cons_self, List.length_take_of_le (Nat.le_of_lt h)⟩

theorem two_le_length_pieces {c : Lz4} {source : List UInt8} (h : c.chunkLimit < source.length) :
    2 ≤ (c.pieces source).length := by
  rw [length_pieces, Nat.le_div_iff_mul_le c.chunkLimit_pos]
  omega

/-- A source that is not too long is cut into as many pieces as a container may have. -/
theorem length_pieces_le {c : Lz4} {source : List UInt8} (h : source.length ≤ c.maxInputSize) :
    (c.pieces source).length ≤ maxChunks := by
  have hpos := c.chunkLimit_pos
  rw [maxInputSize, maxInput] at h
  refine Nat.le_of_lt_succ ?_
  rw [length_pieces, Nat.div_lt_iff_lt_mul hpos, Nat.succ_mul]
  omega

/-- A block behind its length. -/
def frame (block : List UInt8) : List UInt8 :=
  LittleEndian.bytes chunkLengthSize block.length ++ block

/-- The frames of chunks, one after the other. -/
def frames (pieces : List (List UInt8)) : List UInt8 :=
  pieces.flatMap fun chunk => frame (encodeBlock chunk)

/-- The container of a source. -/
def container (c : Lz4) (source : List UInt8) : List UInt8 :=
  if source.length ≤ c.chunkLimit then 0 :: encodeBlock source
  else UInt8.ofNat (c.pieces source).length :: frames (c.pieces source)

/-- The room that is reserved for a chunk of the given length and its length field. -/
def chunkBound (length : Nat) : Nat := chunkLengthSize + maxBlockSize length

theorem container_of_le {c : Lz4} {source : List UInt8} (h : source.length ≤ c.chunkLimit) :
    c.container source = 0 :: encodeBlock source := if_pos h

theorem container_of_lt {c : Lz4} {source : List UInt8} (h : c.chunkLimit < source.length) :
    c.container source = UInt8.ofNat (c.pieces source).length :: frames (c.pieces source) :=
  if_neg (Nat.not_le.2 h)

theorem frames_cons (chunk : List UInt8) (rest : List (List UInt8)) :
    frames (chunk :: rest) = frame (encodeBlock chunk) ++ frames rest := rfl

theorem length_frame (block : List UInt8) :
    (frame block).length = chunkLengthSize + block.length := by
  rw [frame, List.length_append, LittleEndian.length_bytes]

/-! ### Room -/

theorem blockInto_eq_ok {room : Nat} {source : List UInt8} (h : maxBlockSize source.length ≤ room) :
    blockInto room source = .ok (encodeBlock source) := by
  rw [blockInto, if_neg (Nat.not_lt.2 h)]

theorem chunkInto_eq_ok {room : Nat} {chunk : List UInt8} (hroom : chunkBound chunk.length ≤ room)
    (h : chunk.length ≤ maxBlockInput) : chunkInto room chunk = .ok (frame (encodeBlock chunk)) := by
  rw [chunkBound] at hroom
  rw [chunkInto, blockInto_eq_ok (by omega)]
  exact if_neg (Nat.not_le.2 (length_encodeBlock_lt_chunkLengthLimit h))

/-- Chunks are written into every room that holds what is reserved for them. -/
theorem chunksInto_eq_ok {room : Nat} {pieces : List (List UInt8)}
    (hroom : (pieces.map fun chunk => chunkBound chunk.length).sum ≤ room)
    (h : ∀ chunk ∈ pieces, chunk.length ≤ maxBlockInput) :
    chunksInto room pieces = .ok (frames pieces) := by
  induction pieces generalizing room with
  | nil => rfl
  | cons chunk rest ih =>
    rw [List.map_cons, List.sum_cons] at hroom
    have hfirst : (frame (encodeBlock chunk)).length ≤ chunkBound chunk.length := by
      rw [length_frame, chunkBound]
      exact Nat.add_le_add_left (length_encodeBlock_le_maxBlockSize chunk) _
    -- the chunk takes no more than is reserved for it, which leaves enough for the others
    rw [chunksInto, chunkInto_eq_ok (by omega) (h chunk List.mem_cons_self)]
    change (do
      let others ← chunksInto (room - (frame (encodeBlock chunk)).length) rest
      .ok (frame (encodeBlock chunk) ++ others)) = _
    rw [ih (by omega) fun piece hp => h piece (List.mem_cons_of_mem _ hp)]
    rfl

/-- The bound on a container of several chunks is what is reserved for them, and their number. -/
theorem maxCompressedSize_eq {c : Lz4} {source : List UInt8} (h : c.chunkLimit < source.length) :
    c.maxCompressedSize source.length =
      1 + ((c.pieces source).map fun chunk => chunkBound chunk.length).sum := by
  rw [maxCompressedSize, maxFramedSize, if_neg (Nat.not_le.2 h), pieces, sum_map_length_chunks]
  simp only [chunkBound]
  split_ifs <;> omega

/-- Frames take no more than what is reserved for their chunks. -/
theorem length_frames_le (pieces : List (List UInt8)) :
    (frames pieces).length ≤ (pieces.map fun chunk => chunkBound chunk.length).sum := by
  induction pieces with
  | nil => exact Nat.le_refl 0
  | cons chunk rest ih =>
    have := length_encodeBlock_le_maxBlockSize chunk
    rw [frames_cons, List.length_append, length_frame, List.map_cons, List.sum_cons, chunkBound]
    omega

/-- A container takes no more than its bound. -/
theorem length_container_le (c : Lz4) (source : List UInt8) :
    (c.container source).length ≤ c.maxCompressedSize source.length := by
  rcases Nat.lt_or_ge c.chunkLimit source.length with hlt | hle
  · have := length_frames_le (c.pieces source)
    rw [container_of_lt hlt, maxCompressedSize_eq hlt, List.length_cons]
    omega
  · have := length_encodeBlock_le_maxBlockSize source
    rw [container_of_le hle, maxCompressedSize, maxFramedSize, if_pos hle, List.length_cons]
    omega

/-! ### Compression -/

theorem encodeInto_eq_ok {c : Lz4} {room : Nat} {source : List UInt8}
    (h : c.maxCompressedSize source.length ≤ room) :
    c.encodeInto room source = .ok (c.container source) := by
  rcases Nat.lt_or_ge c.chunkLimit source.length with hlt | hle
  · rw [maxCompressedSize_eq hlt] at h
    have hchunks : chunksInto (room - 1) (c.pieces source) = .ok (frames (c.pieces source)) :=
      chunksInto_eq_ok (by omega) fun _ => length_le_maxBlockInput
    rw [encodeInto, if_neg (Nat.not_le.2 hlt), container_of_lt hlt]
    change (chunksInto (room - 1) (c.pieces source) >>= _) = _
    rw [hchunks]
    rfl
  · rw [maxCompressedSize, maxFramedSize, if_pos hle] at h
    rw [encodeInto, if_pos hle, container_of_le hle, blockInto_eq_ok (by omega)]
    rfl

/-- **A source that is not too long is compressed into every target that is not too short.** What
is written depends neither on the target's length nor on what it held. -/
theorem compress_eq_wrote {c : Lz4} {source target : List UInt8}
    (hsource : source.length ≤ c.maxInputSize)
    (htarget : c.maxCompressedSize source.length ≤ target.length) :
    c.compress source target = .wrote (c.container source) target := by
  rw [compress, if_neg (Nat.not_lt.2 hsource), if_neg (Nat.not_lt.2 htarget),
    encodeInto_eq_ok htarget]

/-- **The lengths decide** between the three outcomes of a compression. -/
theorem compress_cases (c : Lz4) (source target : List UInt8) :
    (c.maxInputSize < source.length ∧
        c.compress source target = .refused (.inputTooLarge source.length c.maxInputSize) target) ∨
      (source.length ≤ c.maxInputSize ∧ target.length < c.maxCompressedSize source.length ∧
        c.compress source target =
          .refused (.bufferTooSmall (c.maxCompressedSize source.length) target.length) target) ∨
      (source.length ≤ c.maxInputSize ∧ c.maxCompressedSize source.length ≤ target.length ∧
        c.compress source target = .wrote (c.container source) target) := by
  rcases Nat.lt_or_ge c.maxInputSize source.length with hlong | hsource
  · exact .inl ⟨hlong, if_pos hlong⟩
  rcases Nat.lt_or_ge target.length (c.maxCompressedSize source.length) with hshort | htarget
  · exact .inr (.inl ⟨hsource, hshort, (if_neg (Nat.not_lt.2 hsource)).trans (if_pos hshort)⟩)
  · exact .inr (.inr ⟨hsource, htarget, compress_eq_wrote hsource htarget⟩)

/-- A compression that succeeds wrote the container of a source that is not too long. -/
theorem eq_container_of_taken_compress {c : Lz4} {source target written : List UInt8}
    (h : (c.compress source target).taken = .ok written) :
    source.length ≤ c.maxInputSize ∧ written = c.container source := by
  obtain ⟨-, heq⟩ | ⟨-, -, heq⟩ | ⟨hsource, -, heq⟩ := compress_cases c source target
  · rw [heq, Filled.taken_refused] at h
    exact absurd h (by simp)
  · rw [heq, Filled.taken_refused] at h
    exact absurd h (by simp)
  · rw [heq, Filled.taken_wrote] at h
    exact ⟨hsource, (Except.ok.inj h).symm⟩

end DeltaPack.Lz4
