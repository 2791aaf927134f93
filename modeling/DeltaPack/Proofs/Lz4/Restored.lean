import DeltaPack.Proofs.Lz4.Chunks
import DeltaPack.Proofs.Lz4.Layout

/-!
# What a container is read as

The chunk loop was shown to read back what was written. Here it is said which bytes it accepts at
all: those that begin with as many complete frames as were asked for, each with a block that decodes
within its window (`Restores`, `decodeChunks_eq_ok_iff`). What follows the frames is not looked at.

This follows from the contract of the loop (`exists_restores_chunkProgress`). It goes by induction on
the rounds and says of every source which frames were accepted, that exactly their pieces were
restored, also where the source is refused in the end, and where the fault lies then.

The first byte of a container is the number of its frames. A compressor never writes more than
`maxChunks`, but the loop has no such limit, and a larger number is not refused for itself. It only
makes acceptance less likely: every frame takes five bytes at least, so a source has to be long
before it can hold so many (`decompress_of_maxChunks_lt`).
-/

namespace DeltaPack.Lz4

variable {limit room count : Nat} {input bytes : List UInt8} {pieces : List (List UInt8)}

/-! ### Frames that are accepted -/

/-- A frame is split off exactly if four bytes in front of it are its length, read as a signed
number. -/
theorem splitChunk_eq_ok_iff {chunk rest : List UInt8} :
    splitChunk input = .ok (chunk, rest) ↔
      ∃ field, field.length = chunkLengthSize ∧ LittleEndian.signed field = chunk.length ∧
        input = field ++ (chunk ++ rest) := by
  constructor
  · intro h
    rw [splitChunk] at h
    simp only at h
    split_ifs at h with hshort hlength
    have hfield : (input.take chunkLengthSize).length = chunkLengthSize :=
      Nat.le_antisymm (List.length_take_le ..) (Nat.le_of_not_lt hshort)
    obtain ⟨hlimit, hlong⟩ := not_or.1 hlength
    simp only [Except.ok.injEq, Prod.mk.injEq] at h
    obtain ⟨rfl, rfl⟩ := h
    have hchunk : ((input.drop chunkLengthSize).take
        (LittleEndian.value (input.take chunkLengthSize))).length =
          LittleEndian.value (input.take chunkLengthSize) :=
      Nat.le_antisymm (List.length_take_le ..) (Nat.le_of_not_lt hlong)
    refine ⟨input.take chunkLengthSize, hfield, ?_, ?_⟩
    · rw [hchunk]
      refine LittleEndian.signed_of_lt ?_
      rw [hfield, capacity_chunkLengthSize]
      omega
    · rw [List.take_append_drop, List.take_append_drop]
  · rintro ⟨field, hlength, hsigned, rfl⟩
    exact splitChunk_append hlength hsigned rest

/-- Bytes that are complete frames, from which the given pieces are **restored** one after the
other: each block decodes to its piece, in a window of at most `limit` bytes of the room that the
pieces before leave. -/
inductive Restores (limit : Nat) : (room : Nat) → List UInt8 → List (List UInt8) → Prop
  | nil {room : Nat} : Restores limit room [] []
  | cons {room : Nat} {field block rest piece : List UInt8} {pieces : List (List UInt8)}
      (length_field : field.length = 4) (signed_field : LittleEndian.signed field = block.length)
      (decodes : decodeBlock (min room limit) block = .ok piece)
      (tail : Restores limit (room - piece.length) rest pieces) :
      Restores limit room (field ++ (block ++ rest)) (piece :: pieces)

/-- Accepted frames are decoded to their pieces, and what follows them in the room that is left. -/
theorem decodeChunks_append_of_restores (h : Restores limit room bytes pieces) (others : Nat)
    (rest : List UInt8) :
    decodeChunks limit (pieces.length + others) room (bytes ++ rest) =
      (decodeChunks limit others (room - pieces.flatten.length) rest).map (pieces.flatten ++ ·) := by
  induction h with
  | @nil room =>
    rw [List.length_nil, Nat.zero_add, List.nil_append, List.flatten_nil, List.length_nil,
      Nat.sub_zero]
    rcases decodeChunks limit others room rest with fault | restored <;> rfl
  | @cons room field block frames piece pieces length_field signed_field decodes _ ih =>
    have hsplit := splitChunk_append_append length_field signed_field frames rest
    rw [List.length_cons, Nat.add_right_comm, decodeChunks_succ hsplit, decodes]
    simp only
    rw [ih, List.flatten_cons, List.length_append, ← Nat.sub_sub]
    rcases decodeChunks limit others (room - piece.length - pieces.flatten.length) rest with
      fault | more
    · rfl
    · simp only [Except.map, List.append_assoc]

theorem decodeChunks_of_restores (h : Restores limit room bytes pieces) (rest : List UInt8) :
    decodeChunks limit pieces.length room (bytes ++ rest) = .ok pieces.flatten := by
  have hwhole := decodeChunks_append_of_restores h 0 rest
  rwa [decodeChunks_zero, Except.map, List.append_nil] at hwhole

/-- **The contract of the chunk loop.** What it restores are the pieces of frames that it accepted
one after the other. They are as many as were asked for if it came to its end; if not, the fault lies
in what follows them, where either no chunk can be split off or its block is refused. -/
theorem exists_restores_chunkProgress (limit count room : Nat) (input : List UInt8) :
    let p := chunkProgress limit count room input
    ∃ bytes rest pieces, input = bytes ++ rest ∧ Restores limit room bytes pieces ∧
      p.restored = pieces.flatten ∧ (p.fault = none → pieces.length = count) ∧
      ∀ fault, p.fault = some fault → pieces.length < count ∧
        (splitChunk rest = .error fault ∨ ∃ cause, fault = .block cause) := by
  fun_induction chunkProgress limit count room input with
  | case1 room input =>
    refine ⟨[], input, [], rfl, .nil, rfl, fun _ => rfl, ?_⟩
    intro fault h
    cases h
  | case2 count room input fault hsplit =>
    refine ⟨[], input, [], rfl, .nil, rfl, ?_, ?_⟩
    · intro h
      cases h
    · intro reason h
      obtain rfl := Option.some.inj h
      exact ⟨Nat.succ_pos count, .inl hsplit⟩
  | case3 count room input chunk rest hsplit cause hblock =>
    refine ⟨[], input, [], rfl, .nil, rfl, ?_, ?_⟩
    · intro h
      cases h
    · intro reason h
      obtain rfl := Option.some.inj h
      exact ⟨Nat.succ_pos count, .inr ⟨cause, rfl⟩⟩
  | case4 count room input chunk tail hsplit first hblock ih =>
    obtain ⟨field, hlength, hsigned, rfl⟩ := splitChunk_eq_ok_iff.1 hsplit
    obtain ⟨bytes, rest, pieces, rfl, hrestores, hflatten, hend, hfault⟩ := ih
    refine ⟨field ++ (chunk ++ bytes), rest, first :: pieces, ?_,
      .cons hlength hsigned hblock hrestores, ?_, fun h => congrArg Nat.succ (hend h), ?_⟩
    · rw [List.append_assoc, List.append_assoc]
    · rw [Progress.prepend, hflatten, List.flatten_cons]
    · intro fault h
      obtain ⟨hcount, hrest⟩ := hfault fault h
      exact ⟨Nat.succ_lt_succ hcount, hrest⟩

/-- **The chunk loop accepts exactly the sources that begin with so many frames** whose blocks decode
within their windows. -/
theorem decodeChunks_eq_ok_iff {restored : List UInt8} :
    decodeChunks limit count room input = .ok restored ↔
      ∃ bytes rest pieces, input = bytes ++ rest ∧ Restores limit room bytes pieces ∧
        pieces.length = count ∧ pieces.flatten = restored := by
  constructor
  · intro h
    obtain ⟨bytes, rest, pieces, hinput, hrestores, hflatten, hend, -⟩ :=
      exists_restores_chunkProgress limit count room input
    rw [Progress.result_eq_ok_iff.1 h] at hflatten hend
    exact ⟨bytes, rest, pieces, hinput, hrestores, hend rfl, hflatten.symm⟩
  · rintro ⟨bytes, rest, pieces, rfl, hrestores, rfl, rfl⟩
    exact decodeChunks_of_restores hrestores rest

/-- The frames of a compressor restore its chunks in every room that holds them. -/
theorem restores_frames (hblock : ∀ chunk ∈ pieces, chunk.length ≤ maxBlockInput)
    (hlimit : ∀ chunk ∈ pieces, chunk.length ≤ limit) (hroom : pieces.flatten.length ≤ room) :
    Restores limit room (frames pieces) pieces := by
  induction pieces generalizing room with
  | nil => exact .nil
  | cons chunk others ih =>
    obtain ⟨hfirst, hothers⟩ := List.forall_mem_cons.1 hblock
    obtain ⟨hfirstLimit, hothersLimit⟩ := List.forall_mem_cons.1 hlimit
    rw [List.flatten_cons, List.length_append] at hroom
    rw [frames_cons, frame, List.append_assoc]
    exact .cons (LittleEndian.length_bytes ..)
      (signed_chunkLength (length_encodeBlock_lt_chunkLengthLimit hfirst))
      (decodeBlock_encodeBlock (by omega)) (ih hothers hothersLimit (by omega))

/-- Frames of one byte each restore so many bytes. -/
theorem restores_frames_replicate (byte : UInt8) (hlimit : 0 < limit) (hroom : count ≤ room) :
    Restores limit room (frames (List.replicate count [byte])) (List.replicate count [byte]) := by
  refine restores_frames (fun chunk hchunk => ?_) (fun chunk hchunk => ?_) ?_
  · rw [List.eq_of_mem_replicate hchunk, List.length_singleton]
    decide
  · rwa [List.eq_of_mem_replicate hchunk]
  · rwa [List.flatten_replicate_singleton, List.length_replicate]

/-- There is no block of no bytes. -/
theorem decodeBlock_nil (room : Nat) : decodeBlock room [] = .error .inputExhausted := by
  rw [decodeBlock, decodeFrom]
  rfl

/-- A frame takes four bytes for its length and one at least for its block. -/
theorem Restores.length_le (h : Restores limit room bytes pieces) :
    5 * pieces.length ≤ bytes.length := by
  induction h with
  | nil => exact Nat.le_refl 0
  | @cons room field block rest piece pieces length_field _ decodes _ ih =>
    have hblock : block ≠ [] := by
      rintro rfl
      rw [decodeBlock_nil] at decodes
      cases decodes
    have hpos := List.length_pos_iff.2 hblock
    simp only [List.length_append, List.length_cons]
    omega

/-! ### Counts above the limit -/

section Decompress

variable {c : Lz4} {number : UInt8} {target : List UInt8}

/-- Frames behind their number are restored into the target. -/
theorem value_decompress_of_restores (hnumber : number ≠ 0)
    (h : Restores c.chunkLimit target.length bytes pieces) (hcount : pieces.length = number.toNat)
    (rest : List UInt8) :
    (c.decompress (number :: (bytes ++ rest)) target).value =
      (pieces.flatten.length, Filled.overlay pieces.flatten target) := by
  refine value_decompress_of_ok ?_
  rw [decode_count hnumber, ← hcount]
  exact decodeChunks_of_restores h rest

/-- Several chunks give nothing exactly if they are no frames that restore something. -/
theorem value_decompress_fst_ne_zero_iff (hnumber : number ≠ 0) :
    (c.decompress (number :: input) target).value.1 ≠ 0 ↔
      ∃ bytes rest pieces, input = bytes ++ rest ∧
        Restores c.chunkLimit target.length bytes pieces ∧ pieces.length = number.toNat ∧
        pieces.flatten ≠ [] := by
  constructor
  · intro h
    rcases hdecode : c.decode target.length (number :: input) with fault | restored
    · exact absurd (value_decompress_fst_of_error hdecode) h
    · rw [value_decompress_of_ok hdecode] at h
      rw [decode_count hnumber] at hdecode
      obtain ⟨bytes, rest, pieces, hinput, hrestores, hcount, rfl⟩ :=
        decodeChunks_eq_ok_iff.1 hdecode
      exact ⟨bytes, rest, pieces, hinput, hrestores, hcount, mt List.length_eq_zero_iff.2 h⟩
  · rintro ⟨bytes, rest, pieces, rfl, hrestores, hcount, hne⟩
    rw [value_decompress_of_restores hnumber hrestores hcount]
    exact mt List.length_eq_zero_iff.1 hne

/-- A source that is too short for its number of frames gives nothing. -/
theorem value_decompress_fst_of_length_lt (hnumber : number ≠ 0)
    (h : input.length < 5 * number.toNat) :
    (c.decompress (number :: input) target).value.1 = 0 := by
  refine Decidable.byContradiction fun hsome => ?_
  obtain ⟨bytes, rest, pieces, rfl, hrestores, hcount, -⟩ :=
    (value_decompress_fst_ne_zero_iff hnumber).1 hsome
  have hlength := hrestores.length_le
  rw [List.length_append] at h
  omega

end Decompress

/-- **A number of chunks above the limit is not refused for itself.** Such a source gives zero
exactly if it does not begin with as many complete frames that restore some bytes. If it does, these
bytes are restored and counted as those of any other container. A source in which so many frames
have no place always gives zero. -/
theorem decompress_of_maxChunks_lt (c : Lz4) {number : UInt8} (h : maxChunks < number.toNat)
    (input target : List UInt8) :
    let outcome := (c.decompress (number :: input) target).value
    (outcome.1 = 0 ↔ ¬∃ bytes rest pieces, input = bytes ++ rest ∧
        Restores c.chunkLimit target.length bytes pieces ∧ pieces.length = number.toNat ∧
        pieces.flatten ≠ []) ∧
      (∀ bytes rest pieces, input = bytes ++ rest →
        Restores c.chunkLimit target.length bytes pieces → pieces.length = number.toNat →
        outcome.1 = pieces.flatten.length ∧ outcome.2.take outcome.1 = pieces.flatten) ∧
      (input.length < 5 * number.toNat → outcome.1 = 0) := by
  have hnumber : number ≠ 0 := by
    rintro rfl
    exact Nat.not_lt_zero _ h
  intro outcome
  refine ⟨?_, ?_, value_decompress_fst_of_length_lt hnumber⟩
  · rw [← value_decompress_fst_ne_zero_iff hnumber, Decidable.not_not]
  · rintro bytes rest pieces rfl hrestores hcount
    have houtcome : outcome = _ := value_decompress_of_restores hnumber hrestores hcount rest
    rw [houtcome]
    exact ⟨rfl, Filled.take_overlay ..⟩

/-- A run of 128 frames of one byte each, which is restored whole, and a source of as many frames
that has no place for them. -/
theorem decompress_of_maxChunks_lt_frames :
    let pieces := List.replicate 128 [7]
    let outcome := (standard.decompress (128 :: frames pieces) (List.replicate 130 9)).value
    maxChunks < (128 : UInt8).toNat ∧
      outcome.1 = 128 ∧ outcome.2.take 128 = List.replicate 128 7 ∧
      (standard.decompress [128, 2, 0, 0, 0, 16, 7] [9, 9]).value.1 = 0 := by
  intro pieces outcome
  have hmany : maxChunks < (128 : UInt8).toNat := by decide
  have hrestores : Restores standard.chunkLimit (List.replicate 130 (9 : UInt8)).length
      (frames pieces) pieces := restores_frames_replicate 7 (by decide) (by simp)
  obtain ⟨-, hframes, -⟩ :=
    decompress_of_maxChunks_lt standard hmany (frames pieces) (List.replicate 130 9)
  obtain ⟨-, -, hshort⟩ := decompress_of_maxChunks_lt standard hmany [2, 0, 0, 0, 16, 7] [9, 9]
  obtain ⟨hcount, htaken⟩ := hframes (frames pieces) [] pieces (List.append_nil _).symm hrestores
    List.length_replicate
  rw [List.flatten_replicate_singleton] at hcount htaken
  rw [hcount, List.length_replicate] at htaken
  rw [List.length_replicate] at hcount
  exact ⟨hmany, hcount, htaken, hshort (by decide)⟩

/-- **One frame too many is accepted**: 128 frames behind their number, each with one byte, are
restored, although no container may have so many. -/
theorem decompress_frames_oneTwentyEight :
    maxChunks < (128 : UInt8).toNat ∧
      (standard.decompress (128 :: (List.replicate 128 [2, 0, 0, 0, 16, 7]).flatten)
        (List.replicate 128 0)).value = (128, List.replicate 128 7) := by
  have hframe : frame (encodeBlock [7]) = [2, 0, 0, 0, 16, 7] := by decide +kernel
  have hframes : frames (List.replicate 128 [7]) =
      (List.replicate 128 [2, 0, 0, 0, 16, 7]).flatten := by
    rw [frames, List.flatMap_replicate, hframe]
  have hrestores : Restores standard.chunkLimit (List.replicate 128 (0 : UInt8)).length
      (frames (List.replicate 128 [7])) (List.replicate 128 [7]) :=
    restores_frames_replicate 7 (by decide) (by simp)
  have hnumber : (128 : UInt8) ≠ 0 := by decide
  have hvalue := value_decompress_of_restores hnumber hrestores List.length_replicate []
  rw [List.append_nil, hframes, List.flatten_replicate_singleton, List.length_replicate,
    Filled.overlay_of_length_eq (by simp)] at hvalue
  exact ⟨by decide, hvalue⟩

end DeltaPack.Lz4
