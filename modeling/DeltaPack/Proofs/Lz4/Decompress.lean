import DeltaPack.Proofs.Lz4.Compress
import DeltaPack.Proofs.Lz4.RoundTrip

/-!
# Decompression undoes compression

A container is split back into its blocks, each of which is read back on its own: the chunks share
nothing, so the chunk loop needs no invariant but that the room that is left holds the chunks that
are left (`decodeChunks_frames`). In a room that does not hold the source some chunk does not fit,
and the whole container is refused (`decodeChunks_frames_of_room_lt`). The chunks before that one
were restored by then and stand in the target (`value_decompress_of_error`).

The container of several chunks tells how many there are and how long each block is, so a strict
prefix of it is always refused (`decodeChunks_of_cut`). That of one chunk may be cut right behind a
run of literals; what is decoded then is a strict prefix of the source (`decode_of_cut`).
-/

namespace DeltaPack.Lz4

/-! ### Frames -/

/-- Chunk lengths take the lower half of what their field can hold. -/
theorem capacity_chunkLengthSize : LittleEndian.capacity chunkLengthSize = 2 * chunkLengthLimit :=
  rfl

theorem value_chunkLength {length : Nat} (h : length < chunkLengthLimit) :
    LittleEndian.value (LittleEndian.bytes chunkLengthSize length) = length := by
  refine LittleEndian.value_bytes_of_lt ?_
  rw [capacity_chunkLengthSize]
  omega

/-- A frame is split off whatever follows it. -/
theorem splitChunk_frame_append {block : List UInt8} (h : block.length < chunkLengthLimit)
    (rest : List UInt8) : splitChunk (frame block ++ rest) = .ok (block, rest) := by
  have hfield := LittleEndian.length_bytes chunkLengthSize block.length
  rw [splitChunk, frame, List.append_assoc, List.take_left' hfield, List.drop_left' hfield,
    if_neg (by omega)]
  simp only [value_chunkLength h, List.take_left, List.drop_left]
  rw [if_neg (by omega)]

/-- The first of some frames is split off. -/
theorem splitChunk_frames_cons {chunk : List UInt8} (h : chunk.length ≤ maxBlockInput)
    (others : List (List UInt8)) (rest : List UInt8) :
    splitChunk (frames (chunk :: others) ++ rest) =
      .ok (encodeBlock chunk, frames others ++ rest) := by
  rw [frames_cons, List.append_assoc]
  exact splitChunk_frame_append (length_encodeBlock_lt_chunkLengthLimit h) (frames others ++ rest)

/-- A cut frame is not split off. -/
theorem splitChunk_of_cut {block cut : List UInt8} (h : block.length < chunkLengthLimit)
    (hcut : cut <+: frame block) (hne : cut ≠ frame block) :
    ∃ fault, splitChunk cut = .error fault := by
  have hfield := LittleEndian.length_bytes chunkLengthSize block.length
  have hlt : cut.length < chunkLengthSize + block.length := by
    rw [← length_frame]
    exact Nat.lt_of_le_of_ne hcut.length_le fun heq => hne (hcut.eq_of_length heq)
  rcases Nat.lt_or_ge cut.length chunkLengthSize with hshort | hlong
  · rw [splitChunk, if_pos (Nat.lt_of_le_of_lt (List.length_take_le' ..) hshort)]
    exact ⟨_, rfl⟩
  · obtain ⟨part, rfl⟩ : LittleEndian.bytes chunkLengthSize block.length <+: cut :=
      List.prefix_of_prefix_length_le (List.prefix_append _ _) hcut (by omega)
    rw [List.length_append, hfield] at hlt
    rw [splitChunk, List.take_left' hfield, List.drop_left' hfield, if_neg (by omega)]
    simp only [value_chunkLength h, List.length_take]
    rw [if_pos (by omega)]
    exact ⟨_, rfl⟩

/-! ### Progress -/

namespace Progress

variable {p : Progress} {restored : List UInt8} {fault : Fault}

theorem result_eq_ok_iff : p.result = .ok restored ↔ p = ⟨restored, none⟩ := by
  rcases p with ⟨bytes, _ | reason⟩ <;> simp [result]

theorem result_eq_error_iff : p.result = .error fault ↔ p.fault = some fault := by
  rcases p with ⟨bytes, _ | reason⟩ <;> simp [result]

theorem result_ofExcept (outcome : Except Fault (List UInt8)) :
    (ofExcept outcome).result = outcome := by
  rcases outcome with fault | restored <;> rfl

theorem result_prepend (first : List UInt8) (p : Progress) :
    (p.prepend first).result = p.result.map (first ++ ·) := by
  rcases p with ⟨bytes, _ | reason⟩ <;> rfl

end Progress

/-! ### The chunk loop -/

/-- The chunk loop ends where no chunk can be split off. -/
theorem chunkProgress_of_splitChunk_error {limit count room : Nat} {input : List UInt8}
    {fault : Fault} (h : splitChunk input = .error fault) :
    chunkProgress limit (count + 1) room input = ⟨[], some fault⟩ := by
  simp only [chunkProgress, h]

section Round

variable {limit count room : Nat} {input chunk rest : List UInt8}
  (h : splitChunk input = .ok (chunk, rest))

include h

/-- The chunk loop ends at a block that is refused. -/
theorem chunkProgress_of_decodeBlock_error {cause : BlockFault}
    (hblock : decodeBlock (min room limit) chunk = .error cause) :
    chunkProgress limit (count + 1) room input = ⟨[], some (.block cause)⟩ := by
  simp only [chunkProgress, h, hblock]

/-- The chunk loop goes on behind a block that is decoded. -/
theorem chunkProgress_of_decodeBlock_ok {first : List UInt8}
    (hblock : decodeBlock (min room limit) chunk = .ok first) :
    chunkProgress limit (count + 1) room input =
      (chunkProgress limit count (room - first.length) rest).prepend first := by
  simp only [chunkProgress, h, hblock]

/-- One round of the chunk loop. -/
theorem decodeChunks_succ :
    decodeChunks limit (count + 1) room input =
      match decodeBlock (min room limit) chunk with
      | .error cause => .error (.block cause)
      | .ok first => (decodeChunks limit count (room - first.length) rest).map (first ++ ·) := by
  rw [decodeChunks]
  rcases hblock : decodeBlock (min room limit) chunk with cause | first
  · rw [chunkProgress_of_decodeBlock_error h hblock]
    rfl
  · rw [chunkProgress_of_decodeBlock_ok h hblock, Progress.result_prepend]
    rfl

end Round

/-- What the chunk loop has restored fits the room, and a window for each chunk, also where it was
ended by a fault. -/
theorem length_chunkProgress_le (limit count room : Nat) (input : List UInt8) :
    (chunkProgress limit count room input).restored.length ≤ min room (count * limit) := by
  fun_induction chunkProgress limit count room input with
  | case1 | case2 | case3 => exact Nat.zero_le _
  | case4 count room input chunk rest hsplit first hblock ih =>
    have hfirst : first.length ≤ min room limit := length_le_of_decodeFrom hblock
    rw [Progress.prepend, List.length_append, Nat.succ_mul]
    omega

theorem decodeChunks_zero (limit room : Nat) (input : List UInt8) :
    decodeChunks limit 0 room input = .ok [] := rfl

theorem decodeChunks_of_splitChunk_error {limit count room : Nat} {input : List UInt8}
    {fault : Fault} (h : splitChunk input = .error fault) :
    decodeChunks limit (count + 1) room input = .error fault := by
  rw [decodeChunks, chunkProgress_of_splitChunk_error h]
  rfl

/-- Chunks never restore more than the room holds, nor more than a window for each of them. -/
theorem length_le_min_of_decodeChunks {limit count room : Nat} {input restored : List UInt8}
    (h : decodeChunks limit count room input = .ok restored) :
    restored.length ≤ min room (count * limit) := by
  have hlength := length_chunkProgress_le limit count room input
  rwa [Progress.result_eq_ok_iff.1 h] at hlength

section Frames

variable {limit room : Nat} {pieces : List (List UInt8)}
  (hblock : ∀ chunk ∈ pieces, chunk.length ≤ maxBlockInput)

include hblock

/-- **Chunks are read back** in every room that holds them, whatever follows their frames. -/
theorem decodeChunks_frames (hlimit : ∀ chunk ∈ pieces, chunk.length ≤ limit)
    (hroom : pieces.flatten.length ≤ room) (rest : List UInt8) :
    decodeChunks limit pieces.length room (frames pieces ++ rest) = .ok pieces.flatten := by
  induction pieces generalizing room with
  | nil => rfl
  | cons chunk others ih =>
    rw [List.flatten_cons, List.length_append] at hroom
    obtain ⟨hfirst, hothers⟩ := List.forall_mem_cons.1 hblock
    obtain ⟨hfirstLimit, hothersLimit⟩ := List.forall_mem_cons.1 hlimit
    have hdecode : decodeBlock (min room limit) (encodeBlock chunk) = .ok chunk :=
      decodeBlock_encodeBlock (by omega)
    rw [List.length_cons, decodeChunks_succ (splitChunk_frames_cons hfirst others rest), hdecode]
    simp only
    rw [ih hothers hothersLimit (by omega)]
    rfl

/-- Chunks that do not fit, all together or one in its window, are refused. -/
theorem decodeChunks_frames_of_room_lt
    (hroom : room < pieces.flatten.length ∨ ∃ chunk ∈ pieces, limit < chunk.length)
    (rest : List UInt8) :
    ∃ fault, decodeChunks limit pieces.length room (frames pieces ++ rest) = .error fault := by
  induction pieces generalizing room with
  | nil => simp at hroom
  | cons chunk others ih =>
    rw [List.flatten_cons, List.length_append] at hroom
    obtain ⟨hfirst, hothers⟩ := List.forall_mem_cons.1 hblock
    have hown := decodeBlock_encodeBlock (Nat.le_refl chunk.length)
    rw [List.length_cons, decodeChunks_succ (splitChunk_frames_cons hfirst others rest)]
    -- either this chunk does not fit, or the others do not fit behind it
    rcases Nat.lt_or_ge (min room limit) chunk.length with hlt | hge
    · obtain ⟨cause, hcause⟩ := decodeBlock_eq_error_of_ok hown hlt
      exact ⟨.block cause, by rw [hcause]⟩
    · have hrest : room - chunk.length < others.flatten.length ∨
          ∃ piece ∈ others, limit < piece.length := by
        rcases hroom with hall | ⟨piece, hpiece, hlong⟩
        · left
          omega
        · rcases List.mem_cons.1 hpiece with rfl | hpiece
          · omega
          · exact .inr ⟨piece, hpiece, hlong⟩
      obtain ⟨fault, hfault⟩ := ih hothers hrest
      refine ⟨fault, ?_⟩
      rw [(decodeBlock_eq_ok_iff_of_ok hown).2 hge]
      simp only
      rw [hfault]
      rfl

/-- **Cut frames are refused**, wherever they are cut. -/
theorem decodeChunks_of_cut {cut : List UInt8} (hcut : cut <+: frames pieces)
    (hne : cut ≠ frames pieces) :
    ∃ fault, decodeChunks limit pieces.length room cut = .error fault := by
  induction pieces generalizing room cut with
  | nil => exact absurd (List.prefix_nil.1 hcut) hne
  | cons chunk others ih =>
    obtain ⟨hfirst, hothers⟩ := List.forall_mem_cons.1 hblock
    have hlength := length_encodeBlock_lt_chunkLengthLimit hfirst
    rw [frames_cons] at hcut hne
    rw [List.length_cons]
    -- the cut goes through the first frame or through the frames behind it
    rcases Nat.lt_or_ge cut.length (frame (encodeBlock chunk)).length with hlt | hge
    · have hpart := List.prefix_of_prefix_length_le hcut (List.prefix_append _ _) (Nat.le_of_lt hlt)
      obtain ⟨fault, hfault⟩ := splitChunk_of_cut hlength hpart fun heq => by
        rw [heq] at hlt
        exact Nat.lt_irrefl _ hlt
      exact ⟨fault, decodeChunks_of_splitChunk_error hfault⟩
    · obtain ⟨cut', rfl⟩ := List.prefix_of_prefix_length_le (List.prefix_append _ _) hcut hge
      rw [List.prefix_append_right_inj] at hcut
      rw [decodeChunks_succ (splitChunk_frame_append hlength cut')]
      rcases decodeBlock (min room limit) (encodeBlock chunk) with cause | first
      · exact ⟨_, rfl⟩
      · obtain ⟨fault, hfault⟩ := ih hothers hcut fun heq => hne (by rw [heq])
        refine ⟨fault, ?_⟩
        simp only
        rw [hfault]
        rfl

end Frames

/-! ### Containers -/

variable {c d : Lz4} {source : List UInt8}

/-- A number of chunks that fits its byte, and is not zero there. -/
theorem toNat_ofNat_of_pos {count : Nat} (hpos : 0 < count) (hle : count ≤ 255) :
    (UInt8.ofNat count).toNat = count ∧ UInt8.ofNat count ≠ 0 := by
  have htoNat : (UInt8.ofNat count).toNat = count := by
    rw [UInt8.toNat_ofNat']
    omega
  refine ⟨htoNat, fun hzero => ?_⟩
  rw [hzero, UInt8.toNat_zero] at htoNat
  omega

/-- The number of pieces fits its byte. -/
theorem toNat_length_pieces (hlimit : c.chunkLimit < source.length)
    (hsource : source.length ≤ c.maxInputSize) :
    (UInt8.ofNat (c.pieces source).length).toNat = (c.pieces source).length ∧
      UInt8.ofNat (c.pieces source).length ≠ 0 := by
  have hmany := two_le_length_pieces hlimit
  have hfew := length_pieces_le hsource
  rw [maxChunks] at hfew
  exact toNat_ofNat_of_pos (by omega) (by omega)

theorem decode_nil (room : Nat) : c.decode room [] = .error .emptySource := rfl

theorem progress_zero (room : Nat) (input : List UInt8) :
    c.progress room (0 :: input) = .ofExcept ((decodeBlock room input).mapError .block) := by
  rw [progress, if_pos rfl]

theorem progress_count {count : UInt8} (h : count ≠ 0) (room : Nat) (input : List UInt8) :
    c.progress room (count :: input) = chunkProgress c.chunkLimit count.toNat room input := by
  rw [progress, if_neg h]

theorem decode_zero (room : Nat) (input : List UInt8) :
    c.decode room (0 :: input) = (decodeBlock room input).mapError .block := by
  rw [decode, progress_zero, Progress.result_ofExcept]

theorem decode_count {count : UInt8} (h : count ≠ 0) (room : Nat) (input : List UInt8) :
    c.decode room (count :: input) = decodeChunks c.chunkLimit count.toNat room input := by
  rw [decode, progress_count h, decodeChunks]

theorem decode_ofNat {count : Nat} (hpos : 0 < count) (hle : count ≤ 255) (room : Nat)
    (input : List UInt8) :
    c.decode room (UInt8.ofNat count :: input) = decodeChunks c.chunkLimit count room input := by
  obtain ⟨htoNat, hne⟩ := toNat_ofNat_of_pos hpos hle
  rw [decode_count hne, htoNat]

/-- A container never restores more than the room holds, also where it is refused in the end. -/
theorem length_progress_le (c : Lz4) (room : Nat) (source : List UInt8) :
    (c.progress room source).restored.length ≤ room := by
  match source with
  | [] => exact Nat.zero_le _
  | count :: input =>
    by_cases hcount : count = 0
    · subst hcount
      rw [progress_zero]
      rcases hblock : decodeBlock room input with cause | restored
      · exact Nat.zero_le _
      · exact length_le_of_decodeFrom hblock
    · rw [progress_count hcount]
      exact Nat.le_trans (length_chunkProgress_le ..) (Nat.min_le_left ..)

theorem length_le_of_decode {room : Nat} {restored : List UInt8}
    (h : c.decode room source = .ok restored) : restored.length ≤ room := by
  have hlength := c.length_progress_le room source
  rwa [Progress.result_eq_ok_iff.1 h] at hlength

/-- **A container is read back** in every room that holds the source, by every decoder whose windows
hold the chunks. A single block has no window. -/
theorem decode_container_of_window (hsource : source.length ≤ c.maxInputSize)
    (hwindow : source.length ≤ c.chunkLimit ∨ c.chunkLimit ≤ d.chunkLimit) {room : Nat}
    (hroom : source.length ≤ room) : d.decode room (c.container source) = .ok source := by
  rcases Nat.lt_or_ge c.chunkLimit source.length with hlt | hle
  · obtain ⟨htoNat, hne⟩ := toNat_length_pieces hlt hsource
    have hlimit : c.chunkLimit ≤ d.chunkLimit := hwindow.resolve_left (Nat.not_le.2 hlt)
    have hflat : (c.pieces source).flatten.length ≤ room := by rwa [flatten_pieces]
    have hframes := decodeChunks_frames (fun _ => length_le_maxBlockInput)
      (fun _ hpiece => Nat.le_trans (length_le_of_mem_pieces hpiece) hlimit) hflat []
    rw [List.append_nil, flatten_pieces] at hframes
    rw [container_of_lt hlt, decode_count hne, htoNat, hframes]
  · rw [container_of_le hle, decode_zero, decodeBlock_encodeBlock hroom]
    rfl

theorem decode_container (hsource : source.length ≤ c.maxInputSize) {room : Nat}
    (hroom : source.length ≤ room) : c.decode room (c.container source) = .ok source :=
  decode_container_of_window hsource (.inr (Nat.le_refl _)) hroom

/-- **A container is refused** in a room that does not hold the source, and by a decoder whose
windows do not hold the chunks. -/
theorem decode_container_eq_error (hsource : source.length ≤ c.maxInputSize) {room : Nat}
    (h : room < source.length ∨ ¬(source.length ≤ c.chunkLimit ∨ c.chunkLimit ≤ d.chunkLimit)) :
    ∃ fault, d.decode room (c.container source) = .error fault := by
  rcases Nat.lt_or_ge c.chunkLimit source.length with hlt | hle
  · obtain ⟨htoNat, hne⟩ := toNat_length_pieces hlt hsource
    have hsmall : room < (c.pieces source).flatten.length ∨
        ∃ chunk ∈ c.pieces source, d.chunkLimit < chunk.length := by
      rcases h with hroom | hwindow
      · left
        rwa [flatten_pieces]
      · obtain ⟨piece, hpiece, hlength⟩ := exists_full_piece hlt
        exact .inr ⟨piece, hpiece, by omega⟩
    obtain ⟨fault, hfault⟩ :=
      decodeChunks_frames_of_room_lt (fun _ => length_le_maxBlockInput) hsmall []
    rw [List.append_nil] at hfault
    exact ⟨fault, by rw [container_of_lt hlt, decode_count hne, htoNat, hfault]⟩
  · obtain ⟨cause, hcause⟩ := decodeBlock_eq_error_of_ok
      (decodeBlock_encodeBlock (Nat.le_refl source.length)) (by omega : room < source.length)
    exact ⟨.block cause, by rw [container_of_le hle, decode_zero, hcause]; rfl⟩

theorem decode_container_of_room_lt (hsource : source.length ≤ c.maxInputSize) {room : Nat}
    (hroom : room < source.length) : ∃ fault, c.decode room (c.container source) = .error fault :=
  decode_container_eq_error hsource (.inl hroom)

/-- **A cut container is refused or read back as a strict prefix of the source.** -/
theorem decode_of_cut (hsource : source.length ≤ c.maxInputSize) {room : Nat}
    (hroom : source.length ≤ room) {cut part : List UInt8} (hcut : cut <+: c.container source)
    (hne : cut ≠ c.container source) (hpart : c.decode room cut = .ok part) :
    part <+: source ∧ part.length < source.length := by
  match cut with
  | [] =>
    rw [decode_nil] at hpart
    cases hpart
  | count :: cut =>
    rcases Nat.lt_or_ge c.chunkLimit source.length with hlt | hle
    · rw [container_of_lt hlt, List.cons_prefix_cons] at hcut
      obtain ⟨rfl, hframes⟩ := hcut
      obtain ⟨htoNat, hcount⟩ := toNat_length_pieces hlt hsource
      obtain ⟨fault, hfault⟩ := decodeChunks_of_cut (fun _ => length_le_maxBlockInput) hframes
        fun heq => hne (by rw [container_of_lt hlt, heq])
      rw [decode_count hcount, htoNat, hfault] at hpart
      exact absurd hpart (by simp)
    · rw [container_of_le hle, List.cons_prefix_cons] at hcut
      obtain ⟨rfl, hblock⟩ := hcut
      rw [decode_zero] at hpart
      rcases hdecode : decodeBlock room cut with cause | restored
      · rw [hdecode] at hpart
        exact absurd hpart (by simp [Except.mapError])
      · rw [hdecode] at hpart
        obtain rfl := Except.ok.inj hpart
        obtain ⟨hpre, hlength⟩ := decodeBlock_of_cut hblock
          (fun heq => hne (by rw [container_of_le hle, heq])) hdecode
          (decodeBlock_encodeBlock hroom)
        rw [minMatch] at hlength
        exact ⟨hpre, by omega⟩

/-! ### Decompression -/

variable {target : List UInt8}

theorem value_decompress_of_ok {restored : List UInt8}
    (h : c.decode target.length source = .ok restored) :
    (c.decompress source target).value = (restored.length, Filled.overlay restored target) := by
  rw [decompress, Progress.result_eq_ok_iff.1 h]
  rfl

/-- A refusal gives zero, and leaves in the target what was restored before the fault. -/
theorem value_decompress_of_error {fault : Fault}
    (h : c.decode target.length source = .error fault) :
    (c.decompress source target).value =
      (0, Filled.overlay (c.progress target.length source).restored target) := by
  rw [decompress, Progress.result_eq_error_iff.1 h]
  simp only
  split_ifs <;> rfl

theorem value_decompress_fst_of_error {fault : Fault}
    (h : c.decode target.length source = .error fault) :
    (c.decompress source target).value.1 = 0 := by
  rw [value_decompress_of_error h]

/-- What is counted fits the target, which keeps its length. -/
theorem length_value_decompress (c : Lz4) (source target : List UInt8) :
    (c.decompress source target).value.1 ≤ target.length ∧
      (c.decompress source target).value.2.length = target.length := by
  rcases hdecode : c.decode target.length source with fault | restored
  · rw [value_decompress_of_error hdecode]
    exact ⟨Nat.zero_le _, Filled.length_overlay (length_progress_le ..)⟩
  · have hlength := length_le_of_decode hdecode
    rw [value_decompress_of_ok hdecode]
    exact ⟨hlength, Filled.length_overlay hlength⟩

/-- **Compression loses nothing, and decompression never gives less than all of it.** Every source
of at most 127 chunks is compressed into every target with room for its bound. Decompressing the
bytes written restores the source into every target that holds it, and gives zero for every other,
whatever the targets held. -/
theorem decompress_compress (hsource : source.length ≤ c.maxInputSize)
    (htarget : c.maxCompressedSize source.length ≤ target.length) :
    ∃ n, (c.compress source target).result = .ok n ∧ n ≤ target.length ∧
      ∀ out : List UInt8,
        let outcome := (c.decompress ((c.compress source target).buffer.take n) out).value
        (source.length ≤ out.length →
          outcome.1 = source.length ∧ outcome.2.take source.length = source) ∧
        (out.length < source.length → outcome.1 = 0) := by
  have hwritten : (Filled.overlay (c.container source) target).take (c.container source).length =
      c.container source := List.take_left
  rw [compress_eq_wrote hsource htarget]
  refine ⟨(c.container source).length, rfl, Nat.le_trans (length_container_le c source) htarget,
    fun out => ?_⟩
  simp only [Filled.wrote, hwritten]
  constructor
  · intro hout
    rw [value_decompress_of_ok (decode_container hsource hout)]
    exact ⟨rfl, List.take_left⟩
  · intro hout
    obtain ⟨fault, hfault⟩ := decode_container_of_room_lt hsource hout
    exact value_decompress_fst_of_error hfault

/-- Forty equal bytes in chunks of sixteen, whose matches overlap what they write. -/
theorem decompress_compress_forty :
    let c := ofChunkLimit 16
    let source := List.replicate 40 7
    let outcome := c.compress source (List.replicate 115 0)
    source.length ≤ c.maxInputSize ∧ c.maxCompressedSize source.length ≤ 115 ∧
      ∃ n, outcome.result = .ok n ∧
        (c.decompress (outcome.buffer.take n) (List.replicate 41 9)).value.1 = 40 ∧
        (c.decompress (outcome.buffer.take n) (List.replicate 41 9)).value.2.take 40 = source ∧
        (c.decompress (outcome.buffer.take n) (List.replicate 39 9)).value.1 = 0 := by
  intro c source outcome
  have hsource : source.length ≤ c.maxInputSize := by decide
  have htarget : c.maxCompressedSize source.length ≤ (List.replicate 115 (0 : UInt8)).length := by
    decide
  obtain ⟨n, hn, -, hout⟩ := decompress_compress hsource htarget
  obtain ⟨hcount, hrestored⟩ := (hout (List.replicate 41 9)).1 (by decide)
  exact ⟨hsource, htarget, n, hn, hcount, hrestored, (hout (List.replicate 39 9)).2 (by decide)⟩

end DeltaPack.Lz4
