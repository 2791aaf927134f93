import DeltaPack.Lz4.Block
import DeltaPack.Lz4.Size
import DeltaPack.Proofs.Lz4.Search

/-!
# How long a block gets

A block is hardly longer than its source. A sequence costs three bytes besides its literals and
stands for at least four more, so it only grows by the bytes that continue a long run of literals,
one in 255. The last literals add their token. All bounds are multiplied by 255 until the end,
which keeps them linear.

`length_encodeBlock_le` is the bound; the room that is reserved for a block is larger
(`length_encodeBlock_le_maxBlockSize`), and the block of a source of at most `maxBlockInput` bytes
is short enough for its length field (`length_encodeBlock_lt_chunkLengthLimit`), although the room
that is reserved for it is not.
-/

namespace DeltaPack.Lz4

theorem length_extension (length : Nat) :
    (extension length).length = if length < 15 then 0 else (length - 15) / 255 + 1 := by
  rw [extension]
  split_ifs <;> simp

theorem length_encodeLast (literals : List UInt8) :
    (encodeLast literals).length = 1 + (extension literals.length).length + literals.length := by
  simp only [encodeLast, List.length_cons, List.length_append]
  omega

theorem Sequence.length_encode (s : Sequence) :
    s.encode.length = 3 + (extension s.literals.length).length + s.literals.length +
      (extension (s.length - minMatch)).length := by
  simp only [Sequence.encode, List.length_cons, List.length_append, LittleEndian.length_bytes]
  omega

/-- The bytes that continue a length are one in 255, rounded up. -/
theorem length_extension_le (length : Nat) : 255 * (extension length).length ≤ length + 240 := by
  rw [length_extension]
  split_ifs <;> omega

/-- A sequence takes no more than 256 bytes for 255 of the source. -/
theorem Sequence.length_encode_le {s : Sequence} (h : minMatch ≤ s.length) :
    255 * s.encode.length ≤ 256 * s.span := by
  have hliterals := length_extension_le s.literals.length
  have hmatch := length_extension (s.length - minMatch)
  rw [Sequence.length_encode, Sequence.span]
  rw [minMatch] at *
  split_ifs at hmatch <;> omega

/-- Sequences take no more than 256 bytes for 255 of the source that they cover. -/
theorem Covers.length_encode_le {source : Array UInt8} {position stop : Nat}
    {sequences : List Sequence} (h : Covers source position sequences stop) :
    255 * (sequences.flatMap Sequence.encode).length + 256 * position ≤ 256 * stop := by
  induction h with
  | nil position => simp
  | cons head tail ih =>
    have hsequence := Sequence.length_encode_le head.minMatch_le
    rw [List.flatMap_cons, List.length_append]
    omega

/-- **A block is at most one byte in 255 longer than its source**, and two bytes. -/
theorem length_encodeBlock_le (source : List UInt8) :
    (encodeBlock source).length ≤ source.length + source.length / 255 + 2 := by
  obtain ⟨stop, hstop, hcovers, hlast⟩ := describes_ofSource source
  have hsequences := hcovers.length_encode_le
  have hextension := length_extension_le (Parse.ofSource source).last.length
  have hlength : (Parse.ofSource source).last.length = source.length - stop := by
    rw [hlast, length_slice (Nat.le_refl _), List.size_toArray]
  rw [List.size_toArray] at hstop
  rw [encodeBlock, Parse.encode, List.length_append, length_encodeLast]
  omega

/-- A block fits the room that is reserved for it. -/
theorem length_encodeBlock_le_maxBlockSize (source : List UInt8) :
    (encodeBlock source).length ≤ maxBlockSize source.length := by
  have := length_encodeBlock_le source
  rw [maxBlockSize]
  omega

/-- The length of a block fits its signed field. -/
theorem length_encodeBlock_lt_chunkLengthLimit {source : List UInt8}
    (h : source.length ≤ maxBlockInput) : (encodeBlock source).length < chunkLengthLimit := by
  have := length_encodeBlock_le source
  rw [maxBlockInput] at h
  rw [chunkLengthLimit]
  omega

end DeltaPack.Lz4
