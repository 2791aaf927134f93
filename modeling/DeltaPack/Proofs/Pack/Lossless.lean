import DeltaPack.Proofs.Pack
import Mathlib.Control.Monad.Basic
import Mathlib.Data.Nat.Basic
import Mathlib.Order.Monotone.Defs

/-!
# Packing with any byte compressor

Packing and unpacking were written for any byte compressor, and what they ask of one is said here.

* To pack, nothing: the outcome is that of the compressor on the pre-coded stream, since writing the
  stream to the scratch space cannot fail.
* To unpack what was packed, that the compressor restores the stream in every target that is long
  enough (`Restores`). Zero restored bytes mean a refused source, and cannot be mistaken for a
  stream, which is empty only if there are no words.
* To be sure of success in the reserved buffer, that the compressor accepts every target of its own
  bound (`HonorsBound`), and that the bound is monotone. The second is needed because the buffer is
  reserved for the largest stream of so many words, while the compressor asks for the bound of the
  stream there is.
-/

namespace DeltaPack.Compressor

open Precoded (encodeInto encode maxSize)

variable {c : Compressor}

/-- A source **restores** a stream if it decompresses to it in every target that is long enough. -/
def Restores (c : Compressor) (source stream : List UInt8) : Prop :=
  ∀ target : List UInt8, stream.length ≤ target.length →
    (c.decompress source target).value.1 = stream.length ∧ c.restored source target = stream

/-- A compressor **honors its bound** if it accepts every target that is as long as the bound of the
source. -/
def HonorsBound (c : Compressor) : Prop :=
  ∀ source target : List UInt8, c.maxCompressedSize source.length ≤ target.length →
    ∃ n, (c.compress source target).result = .ok n

/-- What restores a stream that fits the working space rebuilds the slice from it. -/
theorem value_unpack_of_restores {source stream : List UInt8} (h : c.Restores source stream)
    {slice : List UInt32} {workspace : Option (List UInt8)}
    (hspace : Suffices workspace slice.length)
    (hfits : stream.length ≤ Precoded.workspaceSize slice.length) :
    (c.unpack source slice workspace).value = rebuild stream slice := by
  obtain ⟨room, hroom, hvalue⟩ := value_unpack c source hspace
  obtain ⟨hcount, hrestored⟩ := h room (by rwa [hroom])
  simp only [restored, hcount] at hrestored
  simp only [hvalue, rebuild, hcount, hrestored, List.length_eq_zero_iff]

/-- **Packing is lossless over any compressor.** It comes to compressing the stream, which can
always be written to the scratch space. If the packed bytes restore the stream, they are unpacked
to the words, into every slice of their number and by way of every working space that is large
enough. If the compressor honors its bound and the bound is monotone, the reserved buffer
suffices. -/
theorem pack_lossless (c : Compressor) (words : List UInt32) :
    (∀ scratch : List UInt8, maxSize words.length ≤ scratch.length →
      (encodeInto words scratch).value.taken = .ok (encode words)) ∧
    (∀ output : List UInt8, (c.pack words output).value = c.compress (encode words) output) ∧
    (∀ (output : List UInt8) (n : Nat), (c.pack words output).value.result = .ok n →
      c.Restores ((c.pack words output).value.buffer.take n) (encode words) →
      ∀ (slice : List UInt32) (workspace : Option (List UInt8)), slice.length = words.length →
        (∀ space, workspace = some space → maxSize words.length ≤ space.length) →
        let unpacked := (c.unpack ((c.pack words output).value.buffer.take n) slice workspace).value
        unpacked.result = .ok words.length ∧ unpacked.buffer = words) ∧
    (Monotone c.maxCompressedSize → c.HonorsBound →
      ∀ output : List UInt8, c.packedSize words.length ≤ output.length →
        ∃ n, (c.pack words output).value.result = .ok n) := by
  refine ⟨fun scratch hscratch => ?_, value_pack words, ?_, ?_⟩
  · rw [Precoded.encodeInto_value hscratch, Filled.taken_wrote]
  · intro output n _ hrestores slice workspace hslice hspace
    have hsuffices : Suffices workspace slice.length := by rwa [hslice]
    have hfits : (encode words).length ≤ Precoded.workspaceSize slice.length := by
      rw [hslice]
      exact Precoded.length_encode_le words
    rw [value_unpack_of_restores hrestores hsuffices hfits, rebuild_encode hslice]
    exact ⟨rfl, Filled.overlay_of_length_eq hslice⟩
  -- the buffer is reserved for the largest stream, the bound is asked for the stream there is
  · intro hmono hbound output hroom
    rw [value_pack]
    exact hbound _ _ (Nat.le_trans (hmono (Precoded.length_encode_le words)) hroom)

/-- A compressor that stores its source as it is. -/
def verbatim : Compressor where
  maxCompressedSize length := length
  compress source target :=
    if target.length < source.length then
      .refused (.bufferTooSmall source.length target.length) target
    else .wrote source target
  decompress source target :=
    if target.length < source.length then pure (0, target)
    else pure (source.length, Filled.overlay source target)

theorem verbatim_restores (stream : List UInt8) : verbatim.Restores stream stream := by
  intro target h
  have hroom : ¬target.length < stream.length := Nat.not_lt.2 h
  simp [restored, verbatim, hroom, Filled.overlay]

theorem verbatim_honorsBound : verbatim.HonorsBound := by
  intro source target h
  have hroom : ¬target.length < source.length := Nat.not_lt.2 h
  exact ⟨source.length, by simp only [verbatim, if_neg hroom, Filled.wrote]⟩

/-- Three words packed by storing their stream, and unpacked from there by way of a working space
that is full of other bytes. -/
theorem pack_lossless_verbatim :
    (verbatim.pack [300, 5, 100000] (List.replicate 20 0)).value.result = .ok 11 ∧
      (verbatim.unpack ((verbatim.pack [300, 5, 100000] (List.replicate 20 0)).value.buffer.take 11)
        [7, 7, 7] (some (List.replicate 40 255))).value.buffer = [300, 5, 100000] ∧
      ∃ n, (verbatim.pack [300, 5, 100000] (List.replicate 17 0)).value.result = .ok n := by
  obtain ⟨-, -, hback, hroom⟩ := pack_lossless verbatim [300, 5, 100000]
  have hpack : (verbatim.pack [300, 5, 100000] (List.replicate 20 0)).value.result = .ok 11 := by
    decide +kernel
  have hstream : (verbatim.pack [300, 5, 100000] (List.replicate 20 0)).value.buffer.take 11 =
      encode [300, 5, 100000] := by
    decide +kernel
  refine ⟨hpack, ?_, hroom monotone_id verbatim_honorsBound _ (by decide +kernel)⟩
  refine (hback _ 11 hpack ?_ [7, 7, 7] (some (List.replicate 40 255)) rfl ?_).2
  · rw [hstream]
    exact verbatim_restores _
  · intro space hspace
    cases hspace
    decide +kernel

end DeltaPack.Compressor
