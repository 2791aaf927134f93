import DeltaPack.Pack
import DeltaPack.Proofs.Lz4.Decompress
import DeltaPack.Proofs.Precoded.Stream

/-!
# What packing and unpacking come to

Packing is the byte compressor on the pre-coded stream: the scratch space is always large enough,
so nothing can fail before the compressor does (`Compressor.value_pack`).

Unpacking goes through the working space, but depends on no more than the bytes restored there
(`Compressor.value_unpackWithin`). With LZ4 these depend on the source and the room alone, so the
working space has no influence as long as it is large enough (`Lz4.value_unpack_of_ok`): the
outcome is what `rebuild` makes of the restored bytes.
-/

namespace DeltaPack

namespace Compressor

variable {c : Compressor}

/-- **Packing compresses the pre-coded stream.** -/
theorem value_pack (words : List UInt32) (output : List UInt8) :
    (c.pack words output).value = c.compress (Precoded.encode words) output := by
  have hroom : Precoded.maxSize words.length ≤
      (List.replicate (Precoded.maxSize words.length) (0 : UInt8)).length :=
    Nat.le_of_eq List.length_replicate.symm
  rw [pack, Traced.value_bind, Precoded.encodeInto_value hroom, Filled.taken_wrote]
  rcases hresult : (c.compress (Precoded.encode words) output).result with reason | written
  · simp only [hresult, Traced.value_pure]
  · simp only [hresult, Traced.value_bind, Traced.value_pure]

theorem value_packed (words : List UInt32) :
    (c.packed words).value = (c.compress (Precoded.encode words)
      (List.replicate (c.packedSize words.length) 0)).taken := by
  rw [packed, Traced.value_bind, value_pack, Traced.value_pure]

/-- The slice after some bytes were restored for it: nothing happens to it if there are none. -/
def rebuild (restored : List UInt8) (slice : List UInt32) : Filled UInt32 :=
  if restored = [] then .wrote [] slice else Precoded.decodeInto restored slice

/-- The stream of words rebuilds them. -/
theorem rebuild_encode {words slice : List UInt32} (h : slice.length = words.length) :
    rebuild (Precoded.encode words) slice = .wrote words slice := by
  by_cases hw : words = []
  · rw [hw, Precoded.encode_nil, rebuild, if_pos rfl]
  · have hpos := Precoded.length_encode_pos hw
    have hdecode := Precoded.decodeInto_encode_append h []
    rw [List.append_nil] at hdecode
    rw [rebuild, if_neg (List.length_pos_iff.1 hpos), hdecode]

/-- Unpacking by way of a working space that is too short. -/
theorem value_unpackWithin_of_short {compressed workspace : List UInt8} {slice : List UInt32}
    (h : workspace.length < Precoded.workspaceSize slice.length) :
    (c.unpackWithin compressed slice workspace).value.1 =
      .refused (.bufferTooSmall (Precoded.workspaceSize slice.length) workspace.length) slice := by
  rw [unpackWithin, if_pos h]
  rfl

/-- Unpacking by way of a working space that is large enough. -/
theorem value_unpackWithin {compressed workspace : List UInt8} {slice : List UInt32}
    (h : Precoded.workspaceSize slice.length ≤ workspace.length) :
    (c.unpackWithin compressed slice workspace).value.1 =
      let outcome :=
        (c.decompress compressed (workspace.take (Precoded.workspaceSize slice.length))).value
      if outcome.1 = 0 then .wrote [] slice
      else Precoded.decodeInto (outcome.2.take outcome.1) slice := by
  rw [unpackWithin, if_neg (Nat.not_lt.2 h), Traced.value_bind]
  rcases (c.decompress compressed _).value with ⟨restored, used⟩
  simp only
  split_ifs <;> rfl

/-- A working space, if one is given, is large enough for a number of words. -/
def Suffices (workspace : Option (List UInt8)) (count : Nat) : Prop :=
  ∀ space, workspace = some space → Precoded.workspaceSize count ≤ space.length

/-- A call that brings no working space makes one that is large enough. -/
theorem suffices_none (count : Nat) : Suffices none count := by
  intro space h
  cases h

theorem not_suffices_iff {workspace : Option (List UInt8)} {count : Nat} :
    ¬Suffices workspace count ↔
      ∃ space, workspace = some space ∧ space.length < Precoded.workspaceSize count := by
  simp only [Suffices, not_forall, Nat.not_le, exists_prop]

/-- Unpacking is refused by way of a working space that is too short. -/
theorem value_unpack_of_not_suffices (c : Compressor) (compressed : List UInt8)
    {slice : List UInt32} {workspace : Option (List UInt8)} (h : ¬Suffices workspace slice.length) :
    ∃ space, workspace = some space ∧ space.length < Precoded.workspaceSize slice.length ∧
      (c.unpack compressed slice workspace).value =
        .refused (.bufferTooSmall (Precoded.workspaceSize slice.length) space.length) slice := by
  obtain ⟨space, rfl, hshort⟩ := not_suffices_iff.1 h
  exact ⟨space, rfl, hshort, value_unpackWithin_of_short hshort⟩

/-- Unpacking by way of a working space that is large enough, or of its own. -/
theorem value_unpack (c : Compressor) (compressed : List UInt8) {slice : List UInt32}
    {workspace : Option (List UInt8)} (h : Suffices workspace slice.length) :
    ∃ room : List UInt8, room.length = Precoded.workspaceSize slice.length ∧
      (c.unpack compressed slice workspace).value =
        let outcome := (c.decompress compressed room).value
        if outcome.1 = 0 then .wrote [] slice
        else Precoded.decodeInto (outcome.2.take outcome.1) slice := by
  have hspace : Precoded.workspaceSize slice.length ≤
      (workspace.getD (List.replicate (Precoded.workspaceSize slice.length) 0)).length := by
    cases workspace with
    | none => exact Nat.le_of_eq List.length_replicate.symm
    | some space => exact h space rfl
  exact ⟨_, by rw [List.length_take, Nat.min_eq_left hspace], value_unpackWithin hspace⟩

end Compressor

namespace Lz4

open Compressor (Suffices rebuild)

variable {c : Lz4} {compressed : List UInt8} {slice : List UInt32} {workspace : Option (List UInt8)}

/-- **Unpacking does not depend on the working space**: it rebuilds the slice from what the
decoder restores in the room for the largest stream. -/
theorem value_unpack_of_ok {restored : List UInt8} (h : Suffices workspace slice.length)
    (hdecode : c.decode (Precoded.workspaceSize slice.length) compressed = .ok restored) :
    (c.compressor.unpack compressed slice workspace).value = rebuild restored slice := by
  obtain ⟨room, hroom, hvalue⟩ := Compressor.value_unpack c.compressor compressed h
  rw [← hroom] at hdecode
  rw [hvalue, show c.compressor.decompress compressed room = c.decompress compressed room from rfl,
    value_decompress_of_ok hdecode, rebuild]
  simp only [List.length_eq_zero_iff, Filled.overlay, List.take_left]

/-- A refused source leaves the slice alone. -/
theorem value_unpack_of_error {fault : Fault} (h : Suffices workspace slice.length)
    (hdecode : c.decode (Precoded.workspaceSize slice.length) compressed = .error fault) :
    (c.compressor.unpack compressed slice workspace).value = .wrote [] slice := by
  obtain ⟨room, hroom, hvalue⟩ := Compressor.value_unpack c.compressor compressed h
  rw [← hroom] at hdecode
  rw [hvalue, show c.compressor.decompress compressed room = c.decompress compressed room from rfl,
    value_decompress_of_error hdecode]
  exact if_pos rfl

end Lz4

end DeltaPack
