import DeltaPack.Proofs.Lz4.Block
import DeltaPack.Proofs.Lz4.Search
import DeltaPack.Proofs.Fields

/-!
# Blocks read back

The block of a source is its parse, written out, and a parse that describes the source is read
back as the source. The decoder's invariant is that its output is the front of the source: behind
the sequences that cover the source up to a position stand exactly the bytes before that position
(`decodeFrom_encode`). A copy keeps it because the bytes it repeats are those of the source, also
where it overlaps what it writes (`copyMatch_extract`). So a block is read back in every room that
holds its source (`decodeBlock_encodeBlock`).
-/

namespace DeltaPack.Lz4

/-! ### Lengths -/

theorem readExtension_replicate {b : UInt8} (hb : b ≠ 255) (total count : Nat)
    (rest : List UInt8) :
    readExtension total (List.replicate count 255 ++ b :: rest) =
      some (total + 255 * count + b.toNat, rest) := by
  induction count generalizing total with
  | zero => rw [List.replicate_zero, List.nil_append, readExtension, if_neg hb, Nat.mul_zero,
      Nat.add_zero]
  | succ count ih =>
    rw [List.replicate_succ, List.cons_append, readExtension, if_pos rfl, ih]
    congr 2
    omega

/-- A written length is read back. -/
theorem readLength_extension (length : Nat) (rest : List UInt8) :
    readLength (min length 15) (extension length ++ rest) = some (length, rest) := by
  rw [readLength, extension]
  by_cases h : length < 15
  · rw [if_neg (by omega), if_pos h, Nat.min_eq_left (by omega), List.nil_append]
  · have hlast : (UInt8.ofNat ((length - 15) % 255)).toNat = (length - 15) % 255 := by
      rw [UInt8.toNat_ofNat']
      omega
    have hb : UInt8.ofNat ((length - 15) % 255) ≠ 255 := by
      intro heq
      rw [heq] at hlast
      simp at hlast
      omega
    rw [if_pos (by omega), if_neg h, List.append_assoc, List.singleton_append,
      readExtension_replicate hb, hlast]
    congr 2
    omega

/-- The upper half of a token. -/
theorem toNat_token_div (literals matched : Nat) :
    (token literals matched).toNat / 16 = min literals 15 := by
  rw [token, UInt8.toNat_ofNat']
  omega

/-- The lower half of a token. -/
theorem toNat_token_mod (literals matched : Nat) :
    (token literals matched).toNat % 16 = min matched 15 := by
  rw [token, UInt8.toNat_ofNat']
  omega

/-- The bytes of a written offset. -/
theorem bytes_offset {offset : Nat} (h : offset ≤ maxOffset) :
    ∃ low high : UInt8, LittleEndian.bytes 2 offset = [low, high] ∧
      low.toNat + 256 * high.toNat = offset := by
  have hlt : offset < LittleEndian.capacity 2 := by
    simp only [maxOffset, LittleEndian.capacity] at *
    omega
  refine ⟨UInt8.ofNat offset, UInt8.ofNat (offset / 256), rfl, ?_⟩
  exact LittleEndian.value_bytes_of_lt hlt

/-! ### The front of a source -/

theorem extract_append_slice {source : Array UInt8} {start stop : Nat} (h : start ≤ stop) :
    source.extract 0 start ++ slice source start stop = source.extract 0 stop := by
  apply Array.toList_inj.1
  rw [Array.toList_appendList, slice, ← Array.toList_append, Array.extract_append_extract,
    Nat.zero_min, Nat.max_eq_right h]

theorem byteAt_eq_getElem {source : Array UInt8} {i : Nat} (h : i < source.size) :
    byteAt source i = source[i] := by
  rw [byteAt, Array.getD_eq_getD_getElem?, Array.getElem?_eq_getElem h, Option.getD_some]

theorem byteAt_extract {source : Array UInt8} {i stop : Nat} (h : i < stop)
    (hstop : stop ≤ source.size) : byteAt (source.extract 0 stop) i = byteAt source i := by
  rw [byteAt_eq_getElem (by rw [Array.size_extract_of_le hstop]; omega),
    byteAt_eq_getElem (by omega), Array.getElem_extract]
  simp only [Nat.zero_add]

/-- A copy of bytes that repeat the source extends the front of the source, whether or not it
overlaps itself. -/
theorem copyMatch_extract {source : Array UInt8} {position offset count : Nat}
    (hpos : 0 < offset) (hle : offset ≤ position) (hstop : position + count ≤ source.size)
    (hrepeats : ∀ i, position ≤ i → i < position + count →
      byteAt source (i - offset) = byteAt source i) :
    copyMatch (source.extract 0 position) offset count = source.extract 0 (position + count) := by
  induction count generalizing position with
  | zero => rw [copyMatch, Nat.add_zero]
  | succ count ih =>
    have hsize : (source.extract 0 position).size = position := by
      rw [Array.size_extract_of_le (by omega), Nat.sub_zero]
    -- the byte that is copied stands in the front, be it one that this match wrote
    have hbyte : (source.extract 0 position).getD (position - offset) 0 = source[position] := by
      rw [← byteAt, byteAt_extract (by omega) (by omega),
        hrepeats position (Nat.le_refl _) (by omega), byteAt_eq_getElem]
    have hpush : (source.extract 0 position).push source[position] =
        source.extract 0 (position + 1) := by
      rw [Array.push_extract_getElem (by omega), Nat.min_eq_left (Nat.zero_le _)]
    rw [copyMatch, hsize, hbyte, hpush, ih (by omega) (by omega)
      fun i hi hlt => hrepeats i (by omega) (by omega)]
    congr 1
    omega

/-! ### Sequences -/

/-- The match of a sequence is read back behind its literals. -/
private theorem stepMatch_of_describes {room position : Nat} {source : Array UInt8} {s : Sequence}
    (h : s.Describes source position) (hroom : position + s.span ≤ room) (rest : List UInt8) :
    stepMatch room (min (s.length - minMatch) 15)
      (source.extract 0 (position + s.literals.length))
      (LittleEndian.bytes 2 s.offset ++ (extension (s.length - minMatch) ++ rest)) =
        .continued rest (source.extract 0 (position + s.span)) := by
  obtain ⟨low, high, hbytes, hvalue⟩ := bytes_offset h.offset_le_max
  have hmin := h.minMatch_le
  have hstop := h.stop_le
  have hspan : position + s.literals.length + s.length = position + s.span := by
    rw [Sequence.span]
    omega
  have hsize : (source.extract 0 (position + s.literals.length)).size =
      position + s.literals.length := by
    rw [Array.size_extract_of_le (by omega), Nat.sub_zero]
  have hcopy := copyMatch_extract h.offset_pos h.offset_le (by omega : _ + s.length ≤ source.size)
    (by rw [hspan]; exact h.repeats)
  refine stepMatch_eq_continued_iff.2 ⟨low, high, extension (s.length - minMatch) ++ rest,
    s.length - minMatch, by rw [hbytes]; rfl, readLength_extension _ _, ?_, ?_, ?_, ?_⟩
  · rw [hvalue]
    exact h.offset_pos
  · rw [hvalue, hsize]
    exact h.offset_le
  · omega
  · rw [hvalue, Nat.sub_add_cancel hmin, hcopy, hspan]

/-- **A sequence is read back**: behind the front of the source up to its position, the decoder
goes on with the front up to its end. -/
theorem step_encode_append {room position : Nat} {source : Array UInt8} {s : Sequence}
    (h : s.Describes source position) (hroom : position + s.span ≤ room) (rest : List UInt8) :
    step room (source.extract 0 position) (s.encode ++ rest) =
      .continued rest (source.extract 0 (position + s.span)) := by
  have hstop := h.stop_le
  have hlength : s.literals.length ≤ s.span := Nat.le_add_right _ _
  have hfront : source.extract 0 position ++ s.literals =
      source.extract 0 (position + s.literals.length) := by
    have hjoin : source.extract 0 position ++
        slice source position (position + s.literals.length) =
          source.extract 0 (position + s.literals.length) := extract_append_slice (by omega)
    rwa [← h.literals_eq] at hjoin
  have hencode : s.encode ++ rest = token s.literals.length (s.length - minMatch) ::
      (extension s.literals.length ++ (s.literals ++
        (LittleEndian.bytes 2 s.offset ++ (extension (s.length - minMatch) ++ rest)))) := by
    simp only [Sequence.encode, List.cons_append, List.append_assoc]
  have hread := readLength_extension s.literals.length (s.literals ++
    (LittleEndian.bytes 2 s.offset ++ (extension (s.length - minMatch) ++ rest)))
  refine step_eq_continued_iff.2 ⟨_, _, _, _, hencode, ?_, by rw [toNat_token_div, hread], ?_, ?_⟩
  · simp [LittleEndian.bytes]
  · rw [Array.size_extract_of_le (by omega)]
    omega
  · rw [toNat_token_mod, hfront]
    exact stepMatch_of_describes h hroom rest

/-- The last literals end the block. -/
theorem step_encodeLast {room position : Nat} {source : Array UInt8}
    (hposition : position ≤ source.size) (hroom : source.size ≤ room) :
    step room (source.extract 0 position) (encodeLast (slice source position source.size)) =
      .finished source := by
  have hlength : (slice source position source.size).length = source.size - position :=
    length_slice (Nat.le_refl _)
  refine step_eq_finished_iff.2 ⟨_, _, slice source position source.size, rfl, ?_, ?_, ?_⟩
  · rw [toNat_token_div, readLength_extension]
  · rw [Array.size_extract_of_le hposition, hlength]
    omega
  · rw [extract_append_slice hposition, Array.extract_size]

/-! ### Blocks -/

/-- The invariant of decoding: sequences that cover the source from a position on are read back
behind the front of the source up to that position. -/
theorem decodeFrom_encode {room position stop : Nat} {source : Array UInt8}
    {sequences : List Sequence} (hroom : source.size ≤ room) (hstop : stop ≤ source.size)
    (h : Covers source position sequences stop) :
    decodeFrom room
      (sequences.flatMap Sequence.encode ++ encodeLast (slice source stop source.size))
      (source.extract 0 position) = .ok source.toList := by
  induction h with
  | nil position =>
    rw [List.flatMap_nil, List.nil_append]
    exact decodeFrom_of_finished (step_encodeLast hstop hroom)
  | cons head tail ih =>
    rw [List.flatMap_cons, List.append_assoc, decodeFrom_of_continued
      (step_encode_append head (Nat.le_trans head.stop_le hroom) _)]
    exact ih hstop

/-- **Blocks lose nothing**: a block is read back in every room that holds its source. -/
theorem decodeBlock_encodeBlock {room : Nat} {source : List UInt8} (h : source.length ≤ room) :
    decodeBlock room (encodeBlock source) = .ok source := by
  obtain ⟨stop, hstop, hcovers, hlast⟩ := describes_ofSource source
  have hdecode := decodeFrom_encode (by simpa using h : source.toArray.size ≤ room) hstop hcovers
  rw [← hlast, Array.extract_zero] at hdecode
  exact hdecode

end DeltaPack.Lz4
