import DeltaPack.Backend
import DeltaPack.Proofs.Pack

/-!
# What a target holds beforehand

A working space that is kept from call to call holds the bytes of earlier calls, of calls that
failed among them, and may be longer than a call needs. Neither has a part in what is unpacked, as
long as the compressor restores the same bytes into all targets of one length (`IgnoresTarget`): the
working space is cut to the length that the call needs, and only restored bytes are read.

LZ4 ignores its target, and so does the Zstandard of stored frames. Of any other Zstandard library
it has to be assumed.
-/

namespace DeltaPack

namespace Compressor

variable {c : Compressor}

/-- A compressor **ignores its target** if what it restores, and how much it says that is, depends
on the source and on the length of the target only. -/
structure IgnoresTarget (c : Compressor) : Prop where
  /-- The number of bytes restored. -/
  count_eq : ∀ (source : List UInt8) {a b : List UInt8}, a.length = b.length →
    (c.decompress source a).value.1 = (c.decompress source b).value.1
  /-- The bytes restored. -/
  restored_eq : ∀ (source : List UInt8) {a b : List UInt8}, a.length = b.length →
    c.restored source a = c.restored source b

/-- A target is as long after a decompression as before. -/
def KeepsTargetLength (c : Compressor) : Prop :=
  ∀ source target : List UInt8, (c.decompress source target).value.2.length = target.length

/-- A compressor that decodes the source and puts what it gets at the front of the target, or counts
nothing, whatever it leaves there. -/
theorem ignoresTarget_of_decode {ε : Type} (decode : Nat → List UInt8 → Except ε (List UInt8))
    (hok : ∀ {source target restored : List UInt8}, decode target.length source = .ok restored →
      (c.decompress source target).value = (restored.length, Filled.overlay restored target))
    (herror : ∀ {source target : List UInt8} {fault : ε},
      decode target.length source = .error fault → (c.decompress source target).value.1 = 0) :
    c.IgnoresTarget := by
  have houtcome (source target : List UInt8) :
      (c.decompress source target).value.1 =
          ((decode target.length source).toOption.getD []).length ∧
        c.restored source target = (decode target.length source).toOption.getD [] := by
    rw [restored]
    rcases hdecode : decode target.length source with fault | bytes
    · rw [herror hdecode, List.take_zero]
      exact ⟨rfl, rfl⟩
    · rw [hok hdecode]
      exact ⟨rfl, List.take_left⟩
  refine ⟨fun source {a b} h => ?_, fun source {a b} h => ?_⟩
  · rw [(houtcome source a).1, (houtcome source b).1, h]
  · rw [(houtcome source a).2, (houtcome source b).2, h]

/-- **Unpacking does not depend on the working space**, neither on what it holds nor on what it has
to spare. -/
theorem value_unpackWithin_eq (h : c.IgnoresTarget) (compressed : List UInt8)
    {slice : List UInt32} {space space' : List UInt8}
    (hspace : Precoded.workspaceSize slice.length ≤ space.length)
    (hspace' : Precoded.workspaceSize slice.length ≤ space'.length) :
    (c.unpackWithin compressed slice space).value.1 =
      (c.unpackWithin compressed slice space').value.1 := by
  -- both are cut to the same length before the compressor sees them
  have hlength : (space.take (Precoded.workspaceSize slice.length)).length =
      (space'.take (Precoded.workspaceSize slice.length)).length := by
    rw [List.length_take_of_le hspace, List.length_take_of_le hspace']
  have hcount := h.count_eq compressed hlength
  have hrestored := h.restored_eq compressed hlength
  simp only [restored] at hrestored
  rw [value_unpackWithin hspace, value_unpackWithin hspace']
  simp only
  rw [hrestored, hcount]

theorem value_unpack_eq (h : c.IgnoresTarget) (compressed : List UInt8) {slice : List UInt32}
    {workspace : Option (List UInt8)} {space : List UInt8}
    (hworkspace : Suffices workspace slice.length)
    (hspace : Precoded.workspaceSize slice.length ≤ space.length) :
    (c.unpack compressed slice workspace).value =
      (c.unpackWithin compressed slice space).value.1 := by
  refine value_unpackWithin_eq h compressed ?_ hspace
  cases workspace with
  | none => exact Nat.le_of_eq List.length_replicate.symm
  | some space => exact hworkspace space rfl

/-- The working space is as long after a call as before. -/
theorem length_unpackWithin (h : c.KeepsTargetLength) (compressed : List UInt8)
    (slice : List UInt32) (space : List UInt8) :
    (c.unpackWithin compressed slice space).value.2.length = space.length := by
  rw [unpackWithin]
  split_ifs with hshort
  · rfl
  · have hused := h compressed (space.take (Precoded.workspaceSize slice.length))
    rw [Traced.value_bind]
    rcases houtcome : (c.decompress compressed _).value with ⟨restored, used⟩
    rw [houtcome] at hused
    have hlength : (used ++ space.drop (Precoded.workspaceSize slice.length)).length =
        space.length := by
      rw [List.length_append, hused, ← List.length_append, List.take_append_drop]
    simp only
    split_ifs <;> exact hlength

end Compressor

open Compressor (IgnoresTarget KeepsTargetLength ignoresTarget_of_decode)

/-! ### The backends -/

theorem Lz4.ignoresTarget (c : Lz4) : c.compressor.IgnoresTarget :=
  ignoresTarget_of_decode c.decode value_decompress_of_ok value_decompress_fst_of_error

theorem Lz4.keepsTargetLength (c : Lz4) : c.compressor.KeepsTargetLength := by
  intro source target
  exact (length_value_decompress c source target).2

/-- The Zstandard of stored frames ignores its target. -/
theorem Zstd.ignoresTarget_storing (z : Zstd) : z.compressor.IgnoresTarget := by
  refine ignoresTarget_of_decode decode ?_ ?_
  · intro source target restored hdecode
    simp [compressor, decompress, Library.decompressInto, restoreInto, hdecode]
  · intro source target fault hdecode
    simp [compressor, decompress, Library.decompressInto, restoreInto, hdecode]

section Library

variable [Zstd.Library]

theorem Zstd.keepsTargetLength (z : Zstd) : z.compressor.KeepsTargetLength := by
  intro source target
  rw [← Library.length_decompressInto source target]
  rw [show z.compressor.decompress source target = Zstd.decompress source target from rfl,
    Zstd.decompress]
  rcases Library.decompressInto source target with ⟨reason | restored, buffer⟩ <;> rfl

theorem Backend.keepsTargetLength (backend : Backend) : backend.compressor.KeepsTargetLength := by
  cases backend with
  | lz4 c => exact c.keepsTargetLength
  | zstd z => exact z.keepsTargetLength

theorem Backend.ignoresTarget_ofChoice {choice : BackendChoice}
    (h : ∀ level, choice = .zstd level → (Zstd.compressor { level }).IgnoresTarget) :
    (Backend.ofChoice choice).compressor.IgnoresTarget := by
  cases choice with
  | lz4 => exact Lz4.standard.ignoresTarget
  | zstd level => exact h level rfl

end Library

end DeltaPack
