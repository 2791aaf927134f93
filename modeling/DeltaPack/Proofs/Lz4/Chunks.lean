import DeltaPack.Proofs.Lz4.Positions

/-!
# Chunks on their own

A decoder gives every chunk a window of its own, at the place of the target that was reached, and
nothing else of a chunk is seen by the next. Two consequences concern containers that were not
written for the decoder at hand.

* **Other chunk limits.** A decoder reads what a compressor with another limit wrote, exactly if
  its windows are as large as the chunks, or if there is one block only, which has no window. In
  every other case the container is refused as a whole (`decompress_compress_other`).
* **Frames that are put together.** A run of complete frames, whatever their blocks are, is decoded
  like its first part followed by the rest in the room that is left (`decodeChunks_append`,
  `decode_frameRun_append`). No chunk takes more than a window.
-/

namespace DeltaPack.Lz4

/-! ### Other chunk limits -/

/-- **Containers are exchanged between chunk limits** as far as the windows reach. What is compressed
with one limit is restored by a decoder with another into every target that holds the source, if it
is a single block or if the decoder's limit is no smaller; otherwise nothing is. -/
theorem decompress_compress_other (c d : Lz4) {source target : List UInt8}
    (hsource : source.length ≤ 127 * c.chunkLimit)
    (htarget : c.maxCompressedSize source.length ≤ target.length) :
    ∃ n, (c.compress source target).result = .ok n ∧ n ≤ target.length ∧
      ∀ out : List UInt8, source.length ≤ out.length →
        let outcome := (d.decompress ((c.compress source target).buffer.take n) out).value
        (source.length ≤ c.chunkLimit ∨ c.chunkLimit ≤ d.chunkLimit →
          outcome.1 = source.length ∧ outcome.2.take source.length = source) ∧
        (¬(source.length ≤ c.chunkLimit ∨ c.chunkLimit ≤ d.chunkLimit) → outcome.1 = 0) := by
  rw [compress_eq_wrote hsource htarget]
  refine ⟨(c.container source).length, rfl, Nat.le_trans (length_container_le c source) htarget, ?_⟩
  intro out hout
  simp only [Filled.wrote, Filled.take_overlay]
  constructor
  · intro hwindow
    rw [value_decompress_of_ok (decode_container_of_window hsource hwindow hout)]
    exact ⟨rfl, Filled.take_overlay source out⟩
  · intro hwindow
    obtain ⟨fault, hfault⟩ := decode_container_eq_error hsource (.inr hwindow)
    exact value_decompress_fst_of_error hfault

/-- Forty bytes in chunks of sixteen, for a decoder with larger windows and for one with smaller
ones, which still reads a single block of sixteen. -/
theorem decompress_compress_other_forty :
    let c := ofChunkLimit 16
    let source := List.replicate 40 7
    let block := List.replicate 16 7
    let written := c.compress source (List.replicate 115 0)
    let single := c.compress block (List.replicate 38 0)
    source.length ≤ 127 * c.chunkLimit ∧ c.maxCompressedSize source.length ≤ 115 ∧
      (∃ n, written.result = .ok n ∧
        ((ofChunkLimit 20).decompress (written.buffer.take n) (List.replicate 41 9)).value.1 = 40 ∧
        ((ofChunkLimit 15).decompress (written.buffer.take n) (List.replicate 41 9)).value.1 = 0) ∧
      ∃ n, single.result = .ok n ∧
        ((ofChunkLimit 15).decompress (single.buffer.take n) block).value.1 = 16 := by
  intro c source block written single
  have hsource : source.length ≤ 127 * c.chunkLimit := by decide
  have htarget : c.maxCompressedSize source.length ≤ (List.replicate 115 (0 : UInt8)).length := by
    decide
  obtain ⟨n, hn, -, hlarge⟩ := decompress_compress_other c (ofChunkLimit 20) hsource htarget
  obtain ⟨m, hm, -, hsmall⟩ := decompress_compress_other c (ofChunkLimit 15) hsource htarget
  obtain ⟨k, hk, -, hsingle⟩ := decompress_compress_other c (ofChunkLimit 15)
    (by decide : block.length ≤ 127 * c.chunkLimit)
    (by decide : c.maxCompressedSize block.length ≤ (List.replicate 38 (0 : UInt8)).length)
  obtain rfl : n = m := Except.ok.inj (hn.symm.trans hm)
  refine ⟨hsource, htarget, ⟨n, hn, ?_, ?_⟩, k, hk, ?_⟩
  · exact ((hlarge (List.replicate 41 9) (by decide)).1 (.inr (by decide))).1
  · exact (hsmall (List.replicate 41 9) (by decide)).2 (by decide)
  · exact ((hsingle block (Nat.le_refl _)).1 (.inl (by decide))).1

/-! ### Runs of frames -/

/-- Bytes that are a **run** of so many complete frames. In front of each block stands its length, a
signed number in four bytes; the block may be any bytes, or none. -/
inductive FrameRun : Nat → List UInt8 → Prop
  | nil : FrameRun 0 []
  | cons {count : Nat} {field block rest : List UInt8} (length_field : field.length = 4)
      (signed_field : LittleEndian.signed field = block.length) (tail : FrameRun count rest) :
      FrameRun (count + 1) (field ++ (block ++ rest))

/-- A length field is the one that is written for its length. -/
theorem field_eq_bytes {field block : List UInt8} (hlength : field.length = chunkLengthSize)
    (hsigned : LittleEndian.signed field = block.length) :
    field = LittleEndian.bytes chunkLengthSize block.length ∧ block.length < chunkLengthLimit := by
  have hcapacity : LittleEndian.capacity field.length = 2 * chunkLengthLimit := by
    rw [hlength, capacity_chunkLengthSize]
  -- a field in the upper half of its range would be negative
  have hlower : LittleEndian.value field < chunkLengthLimit := by
    refine Nat.lt_of_not_le fun hupper => ?_
    have hnegative : LittleEndian.signed field < 0 := LittleEndian.signed_neg_of_le (by omega)
    omega
  have hvalue : LittleEndian.value field = block.length := by
    have hsame : LittleEndian.signed field = LittleEndian.value field :=
      LittleEndian.signed_of_lt (by omega)
    omega
  refine ⟨?_, by omega⟩
  rw [← hlength]
  refine (LittleEndian.bytes_of_value_eq ?_).symm
  rw [Nat.mod_eq_of_lt (by omega), hvalue]

/-- A complete frame is split off whatever follows it. -/
theorem splitChunk_append {field block : List UInt8} (hlength : field.length = chunkLengthSize)
    (hsigned : LittleEndian.signed field = block.length) (rest : List UInt8) :
    splitChunk (field ++ (block ++ rest)) = .ok (block, rest) := by
  obtain ⟨hfield, hlimit⟩ := field_eq_bytes hlength hsigned
  rw [hfield, ← List.append_assoc]
  exact splitChunk_frame_append hlimit rest

/-- The first of some complete frames is split off, whatever follows them all. -/
theorem splitChunk_append_append {field block : List UInt8}
    (hlength : field.length = chunkLengthSize)
    (hsigned : LittleEndian.signed field = block.length) (frames rest : List UInt8) :
    splitChunk (field ++ (block ++ frames) ++ rest) = .ok (block, frames ++ rest) := by
  rw [List.append_assoc, List.append_assoc]
  exact splitChunk_append hlength hsigned (frames ++ rest)

/-- **The chunk loop goes on where it stopped**: complete frames and what follows them are decoded
one after the other, the latter in the room that is left. -/
theorem decodeChunks_append {limit first : Nat} {bytes : List UInt8} (h : FrameRun first bytes)
    (others room : Nat) (rest : List UInt8) :
    decodeChunks limit (first + others) room (bytes ++ rest) =
      match decodeChunks limit first room bytes with
      | .error fault => .error fault
      | .ok restored =>
        (decodeChunks limit others (room - restored.length) rest).map (restored ++ ·) := by
  induction h generalizing room with
  | nil =>
    rw [Nat.zero_add, List.nil_append, decodeChunks_zero]
    simp only
    rw [List.length_nil, Nat.sub_zero]
    rcases decodeChunks limit others room rest with fault | restored <;> rfl
  | @cons count field block frames length_field signed_field _ ih =>
    rw [Nat.add_right_comm,
      decodeChunks_succ (splitChunk_append_append length_field signed_field frames rest),
      decodeChunks_succ (splitChunk_append length_field signed_field frames)]
    rcases decodeBlock (min room limit) block with cause | chunk
    · rfl
    simp only
    rw [ih]
    rcases decodeChunks limit count (room - chunk.length) frames with fault | restored
    · rfl
    simp only [Except.map]
    rw [List.length_append, ← Nat.sub_sub]
    rcases decodeChunks limit others (room - chunk.length - restored.length) rest with
      fault | more
    · rfl
    · simp only [List.append_assoc]

/-- Complete frames and what follows them succeed together exactly if they do one after the other,
and restore the same bytes. -/
theorem decodeChunks_append_eq_ok_iff {limit first others room : Nat}
    {bytes rest restored : List UInt8} (h : FrameRun first bytes) :
    decodeChunks limit (first + others) room (bytes ++ rest) = .ok restored ↔
      ∃ a b, decodeChunks limit first room bytes = .ok a ∧
        decodeChunks limit others (room - a.length) rest = .ok b ∧ restored = a ++ b := by
  rw [decodeChunks_append h]
  constructor
  · intro hwhole
    rcases hfirst : decodeChunks limit first room bytes with fault | a
    · rw [hfirst] at hwhole
      cases hwhole
    rw [hfirst] at hwhole
    simp only at hwhole
    rcases hothers : decodeChunks limit others (room - a.length) rest with fault | b
    · rw [hothers] at hwhole
      cases hwhole
    · rw [hothers] at hwhole
      exact ⟨a, b, rfl, hothers, (Except.ok.inj hwhole).symm⟩
  · rintro ⟨a, b, hfirst, hothers, rfl⟩
    rw [hfirst]
    simp only
    rw [hothers]
    rfl

/-- **Runs of frames are decoded one after the other, within their windows.** Two runs behind the
number of all their frames are accepted exactly if the first is accepted behind its own number, and
then the second in the part of the target that is left. The bytes of both are restored then, one
after the other, and counted together, also when the target is filled by position. Whatever the
frames are, no more is restored than the target holds and no more than a window for each chunk. -/
theorem decode_frameRun_append (c : Lz4) :
    (∀ (first second : Nat) (front back : List UInt8), FrameRun first front →
      FrameRun second back → 0 < first → 0 < second → first + second ≤ 255 →
      ∀ target : List UInt8,
        let whole := UInt8.ofNat (first + second) :: (front ++ back)
        (∀ restored, c.decode target.length whole = .ok restored ↔
          ∃ a b, c.decode target.length (UInt8.ofNat first :: front) = .ok a ∧
            c.decode (target.drop a.length).length (UInt8.ofNat second :: back) = .ok b ∧
            restored = a ++ b) ∧
        ∀ a b, c.decode target.length (UInt8.ofNat first :: front) = .ok a →
          c.decode (target.drop a.length).length (UInt8.ofNat second :: back) = .ok b →
          let outcome := (c.decompress whole target).value
          outcome.1 = a.length + b.length ∧ outcome.2.take (a.length + b.length) = a ++ b ∧
            c.decompressAt whole target = some outcome) ∧
      ∀ (count : UInt8) (input target restored : List UInt8), count ≠ 0 →
        c.decode target.length (count :: input) = .ok restored →
        restored.length ≤ min target.length (count.toNat * c.chunkLimit) := by
  constructor
  · intro first second front back hfront hback hfirst hsecond hcount target whole
    have hiff (restored : List UInt8) : c.decode target.length whole = .ok restored ↔
        ∃ a b, c.decode target.length (UInt8.ofNat first :: front) = .ok a ∧
          c.decode (target.drop a.length).length (UInt8.ofNat second :: back) = .ok b ∧
          restored = a ++ b := by
      simp only [whole, List.length_drop]
      rw [decode_ofNat (by omega) hcount, decode_ofNat hfirst (by omega),
        decodeChunks_append_eq_ok_iff hfront]
      simp only [decode_ofNat hsecond (by omega : second ≤ 255)]
    refine ⟨hiff, ?_⟩
    intro a b ha hb outcome
    have houtcome : outcome = _ :=
      value_decompress_of_ok ((hiff (a ++ b)).2 ⟨a, b, ha, hb, rfl⟩)
    rw [decompressAt_eq, ← List.length_append, houtcome]
    exact ⟨rfl, Filled.take_overlay (a ++ b) target, congrArg some houtcome⟩
  · intro count input target restored hcount hrestored
    rw [decode_count hcount] at hrestored
    exact length_le_min_of_decodeChunks hrestored

/-- A frame whose block holds nothing, one with a byte and one with two, behind the number of all
three: in a target of four bytes, and in one that the last frame does not fit. -/
theorem decode_frameRun_append_three :
    let c := ofChunkLimit 2
    let front : List UInt8 := [1, 0, 0, 0, 0, 2, 0, 0, 0, 16, 5]
    let back : List UInt8 := [3, 0, 0, 0, 32, 7, 8]
    FrameRun 2 front ∧ FrameRun 1 back ∧
      (∃ outcome, c.decompressAt (3 :: (front ++ back)) [9, 9, 9, 9] = some outcome ∧
        outcome.1 = 3 ∧ outcome.2.take 3 = [5, 7, 8]) ∧
      (∀ restored, c.decode 2 (3 :: (front ++ back)) ≠ .ok restored) ∧
      (∀ restored, c.decode 4 (3 :: (front ++ back)) = .ok restored →
        restored.length ≤ min 4 (3 * 2)) := by
  intro c front back
  have hfront : FrameRun 2 ([1, 0, 0, 0] ++ ([0] ++ ([2, 0, 0, 0] ++ ([16, 5] ++ [])))) :=
    .cons rfl (by decide) (.cons rfl (by decide) .nil)
  have hback : FrameRun 1 ([3, 0, 0, 0] ++ ([32, 7, 8] ++ [])) := .cons rfl (by decide) .nil
  obtain ⟨hruns, hbound⟩ := decode_frameRun_append c
  obtain ⟨-, hfilled⟩ :=
    hruns 2 1 front back hfront hback (by decide) (by decide) (by decide) [9, 9, 9, 9]
  obtain ⟨hiff, -⟩ := hruns 2 1 front back hfront hback (by decide) (by decide) (by decide) [9, 9]
  refine ⟨hfront, hback, ?_, ?_, ?_⟩
  · obtain ⟨hcount, htaken, hat⟩ := hfilled [5] [7, 8] (by cbv) (by cbv)
    exact ⟨_, hat, hcount, htaken⟩
  · intro restored hwhole
    obtain ⟨a, b, ha, hb, -⟩ := (hiff restored).1 hwhole
    have hone : c.decode 2 (2 :: front) = .ok [5] := by cbv
    obtain rfl := Except.ok.inj (hone.symm.trans ha)
    have hrefused : c.decode 1 (1 :: back) = .error (.block (.outputTooSmall 1 2)) := by cbv
    exact absurd (hrefused.symm.trans hb) (by simp)
  · intro restored hwhole
    exact hbound 3 (front ++ back) [9, 9, 9, 9] restored (by decide) hwhole

end DeltaPack.Lz4
