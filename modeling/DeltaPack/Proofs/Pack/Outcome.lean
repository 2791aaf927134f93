import DeltaPack.Proofs.Lz4.Positions
import DeltaPack.Proofs.Pack
import DeltaPack.Proofs.Precoded.Positions
import DeltaPack.Proofs.Precoded.Summary

/-!
# Unpacking arbitrary bytes

Whatever the bytes are, an unpacking ends in one of four ways, and the slice is known afterwards.

* The working space is too short, and nothing is tried.
* The compressor restores no bytes; the slice is left alone. For an empty slice this is always so,
  because its working space is empty and restored bytes have to fit it.
* The restored bytes are a stream that has a summary, and every place of the slice is filled.
* They are a stream that is cut short, and the words before the cut are in place.

The two stages were shown to stay within their buffers one by one. Between them the restored bytes
are cut from the working space, which is in range because they were written there: `unpackAt` runs
both by position, with every access checked (`Lz4.unpackAt_eq`).
-/

namespace DeltaPack.Lz4

open Compressor (Suffices rebuild)

variable {c : Lz4} {compressed room : List UInt8} {slice : List UInt32}
  {workspace : Option (List UInt8)}

/-! ### The restored bytes -/

theorem restored_eq (c : Lz4) (source target : List UInt8) :
    c.compressor.restored source target =
      (c.decompress source target).value.2.take (c.decompress source target).value.1 := rfl

/-- The bytes restored into a target are as many as are counted. -/
theorem length_restored (c : Lz4) (source target : List UInt8) :
    (c.compressor.restored source target).length = (c.decompress source target).value.1 := by
  obtain ⟨hle, hlength⟩ := length_value_decompress c source target
  rw [restored_eq, List.length_take_of_le (by rwa [hlength])]

/-- **Unpacking rebuilds the slice** from what is restored into any room of the right size. -/
theorem value_unpack_eq_rebuild (c : Lz4) (compressed : List UInt8)
    (hspace : Suffices workspace slice.length)
    (hroom : room.length = Precoded.workspaceSize slice.length) :
    (c.compressor.unpack compressed slice workspace).value =
      rebuild (c.compressor.restored compressed room) slice := by
  rw [restored_eq]
  rcases hdecode : c.decode room.length compressed with fault | restored
  · rw [value_decompress_fst_of_error hdecode, value_unpack_of_error hspace (hroom ▸ hdecode),
      List.take_zero]
    rfl
  · rw [value_decompress_of_ok hdecode, value_unpack_of_ok hspace (hroom ▸ hdecode)]
    exact congrArg (rebuild · slice) List.take_left.symm

/-! ### The rebuilt slice -/

section Rebuild

variable {stream : List UInt8}

/-- The only error of rebuilding a slice is a stream that is cut short. -/
theorem truncated_of_rebuild_error {reason : PackError}
    (h : (rebuild stream slice).result = .error reason) :
    ∃ demanded, reason = .truncatedStream demanded stream.length := by
  rw [rebuild] at h
  split_ifs at h with hstream
  · cases h
  · rcases Precoded.decodeInto_result_cases stream slice with hok | ⟨demanded, hshort⟩
    · rw [hok] at h
      cases h
    · rw [hshort] at h
      exact ⟨demanded, (Except.error.inj h).symm⟩

/-- A stream that fits the working space of an empty slice is empty. -/
theorem slice_ne_nil_of_fits (hstream : stream ≠ [])
    (hfits : stream.length ≤ Precoded.maxSize slice.length) : slice ≠ [] := by
  rintro rfl
  exact hstream (List.eq_nil_of_length_eq_zero (Nat.le_zero.1 hfits))

/-- **No words are rebuilt exactly from no bytes.** -/
theorem rebuild_result_eq_ok_zero_iff (hfits : stream.length ≤ Precoded.maxSize slice.length) :
    (rebuild stream slice).result = .ok 0 ↔ stream = [] := by
  rw [rebuild]
  split_ifs with hstream
  · exact iff_of_true rfl hstream
  · refine iff_of_false (fun hzero => ?_) hstream
    have hslice := slice_ne_nil_of_fits hstream hfits
    rcases Precoded.decodeInto_result_cases stream slice with hok | ⟨demanded, hshort⟩
    · rw [hok] at hzero
      exact hslice (List.eq_nil_of_length_eq_zero (Except.ok.inj hzero))
    · rw [hshort] at hzero
      cases hzero

/-- **Restored bytes fill the slice exactly if they have a summary**, and are a stream that is cut
short if not. -/
theorem rebuild_of_ne_nil (hstream : stream ≠ []) :
    rebuild stream slice = Precoded.decodeInto stream slice ∧
      ((rebuild stream slice).result = .ok slice.length ↔
        ∃ summary, Precoded.summarize stream slice.length = .ok summary) ∧
      ((¬∃ summary, Precoded.summarize stream slice.length = .ok summary) →
        ∃ demanded, (rebuild stream slice).result =
          .error (.truncatedStream demanded stream.length)) := by
  have hdecode : rebuild stream slice = Precoded.decodeInto stream slice := if_neg hstream
  have haccepted := Precoded.summarize_ok_iff_decodeInto_ok stream slice
  rw [hdecode]
  refine ⟨rfl, haccepted.symm, fun hnone => ?_⟩
  exact (Precoded.decodeInto_result_cases stream slice).resolve_left (mt haccepted.2 hnone)

end Rebuild

/-! ### Unpacking by position -/

/-- Unpacks into a slice, by position: the working space is cut to the needed size, and the stream
is the part of it that was written. -/
def unpackAt (c : Lz4) (compressed : List UInt8) (slice : List UInt32)
    (workspace : Option (List UInt8)) : Option (Filled UInt32) :=
  let needed := Precoded.workspaceSize slice.length
  let space := workspace.getD (List.replicate needed 0)
  if space.length < needed then some (.refused (.bufferTooSmall needed space.length) slice)
  else do
    let room ← window? space 0 needed
    let (restored, used) ← c.decompressAt compressed room
    if restored = 0 then some (.wrote [] slice)
    else do
      let stream ← window? used 0 restored
      Precoded.decodeAt stream slice

/-- **Unpacking by position never leaves its buffers**, and comes to the same. -/
theorem unpackAt_eq (c : Lz4) (compressed : List UInt8) (slice : List UInt32)
    (workspace : Option (List UInt8)) :
    c.unpackAt compressed slice workspace =
      some (c.compressor.unpack compressed slice workspace).value := by
  rw [show (c.compressor.unpack compressed slice workspace).value =
    (c.compressor.unpackWithin compressed slice (workspace.getD
      (List.replicate (Precoded.workspaceSize slice.length) 0))).value.1 from rfl, unpackAt]
  generalize workspace.getD (List.replicate (Precoded.workspaceSize slice.length) 0) = space
  simp only
  rcases Nat.lt_or_ge space.length (Precoded.workspaceSize slice.length) with hshort | hlong
  · rw [if_pos hshort, Compressor.value_unpackWithin_of_short hshort]
  · rw [if_neg (Nat.not_lt.2 hlong), window?_zero hlong, Compressor.value_unpackWithin hlong]
    simp only [Option.bind_eq_bind, Option.bind_some, decompressAt_eq]
    obtain ⟨hle, hlength⟩ :=
      length_value_decompress c compressed (space.take (Precoded.workspaceSize slice.length))
    change (if (c.decompress compressed _).value.1 = 0 then _ else _) =
      some (if (c.decompress compressed _).value.1 = 0 then _ else _)
    split_ifs with hzero
    · rfl
    · rw [window?_zero (by rwa [hlength]), Option.bind_some, Precoded.decodeAt_eq]
      rfl

/-! ### The four outcomes -/

/-- **Unpacking arbitrary bytes** ends in one of four ways, which are told apart by the working
space, the bytes restored and their summary. A working space that is too short is reported, and
nothing else is reported so. Otherwise no words are counted exactly if no bytes were restored, and
the slice is left alone then. Restored bytes fit the working space. They fill the slice exactly if
they have a summary, and are reported as a truncated stream if not. All accesses on the way are in
range. -/
theorem unpack_outcome (c : Lz4) (compressed : List UInt8) (slice : List UInt32)
    (workspace : Option (List UInt8)) :
    let outcome := (c.compressor.unpack compressed slice workspace).value
    let needed := Precoded.maxSize slice.length
    (∀ demanded actual, outcome.result = .error (.bufferTooSmall demanded actual) ↔
        demanded = needed ∧ actual < needed ∧
          ∃ space, workspace = some space ∧ space.length = actual) ∧
      ((∃ space, workspace = some space ∧ space.length < needed) → outcome.buffer = slice) ∧
      ((∀ space, workspace = some space → needed ≤ space.length) →
        ∀ room : List UInt8, room.length = needed →
          let restored := (c.decompress compressed room).value.1
          let stream := c.compressor.restored compressed room
          stream.length = restored ∧ restored ≤ needed ∧ (slice = [] → restored = 0) ∧
            (outcome.result = .ok 0 ↔ restored = 0) ∧ (restored = 0 → outcome.buffer = slice) ∧
            (restored ≠ 0 →
              outcome = Precoded.decodeInto stream slice ∧
                (outcome.result = .ok slice.length ↔
                  ∃ summary, Precoded.summarize stream slice.length = .ok summary) ∧
                ((¬∃ summary, Precoded.summarize stream slice.length = .ok summary) →
                  ∃ demanded, outcome.result =
                    .error (.truncatedStream demanded stream.length)))) ∧
      (∀ reason, outcome.result = .error reason →
        ∃ demanded actual,
          reason = .bufferTooSmall demanded actual ∨ reason = .truncatedStream demanded actual) ∧
      c.unpackAt compressed slice workspace = some outcome := by
  intro outcome needed
  by_cases hspace : Suffices workspace slice.length
  · have hrebuilt (room : List UInt8) (hroom : room.length = needed) :
        outcome = rebuild (c.compressor.restored compressed room) slice :=
      value_unpack_eq_rebuild c compressed hspace hroom
    have htruncated (reason : PackError) (hreason : outcome.result = .error reason) :
        ∃ demanded actual, reason = .truncatedStream demanded actual := by
      rw [hrebuilt (List.replicate needed 0) List.length_replicate] at hreason
      obtain ⟨demanded, rfl⟩ := truncated_of_rebuild_error hreason
      exact ⟨demanded, _, rfl⟩
    refine ⟨fun demanded actual => iff_of_false (fun hresult => ?_) ?_, ?_,
      fun _ room hroom => ?_, fun reason hreason => ?_, c.unpackAt_eq compressed slice workspace⟩
    · obtain ⟨_, _, hreason⟩ := htruncated _ hresult
      cases hreason
    · rintro ⟨-, hshort, space, hgiven, rfl⟩
      exact Nat.not_le.2 hshort (hspace space hgiven)
    · rintro ⟨space, hgiven, hshort⟩
      exact absurd (hspace space hgiven) (Nat.not_le.2 hshort)
    · intro restored stream
      have hlength : stream.length = restored := length_restored c compressed room
      have hle : restored ≤ needed := hroom ▸ (length_value_decompress c compressed room).1
      have hfits : stream.length ≤ needed := Nat.le_trans (Nat.le_of_eq hlength) hle
      have hzero : stream = [] ↔ restored = 0 := by rw [← hlength, List.length_eq_zero_iff]
      have houtcome : outcome = rebuild stream slice := hrebuilt room hroom
      rw [houtcome]
      refine ⟨hlength, hle, ?_, (rebuild_result_eq_ok_zero_iff hfits).trans hzero,
        fun hnone => ?_, fun hsome => rebuild_of_ne_nil (mt hzero.1 hsome)⟩
      · rintro rfl
        exact Nat.le_zero.1 hle
      · rw [hzero.2 hnone]
        rfl
    · obtain ⟨demanded, actual, rfl⟩ := htruncated reason hreason
      exact ⟨demanded, actual, .inr rfl⟩
  · obtain ⟨space, rfl, hshort, hvalue⟩ :=
      Compressor.value_unpack_of_not_suffices c.compressor compressed hspace
    have hresult : outcome.result = .error (.bufferTooSmall needed space.length) :=
      congrArg Filled.result hvalue
    refine ⟨fun demanded actual => ?_, fun _ => congrArg Filled.buffer hvalue,
      fun hlarge => absurd hlarge hspace, fun reason hreason => ?_,
      c.unpackAt_eq compressed slice (some space)⟩
    · rw [hresult]
      constructor
      · rintro ⟨⟩
        exact ⟨rfl, hshort, space, rfl, rfl⟩
      · rintro ⟨rfl, -, other, hother, rfl⟩
        rw [Option.some.inj hother]
    · rw [hresult] at hreason
      exact ⟨needed, space.length, .inl (Except.error.inj hreason).symm⟩

/-- Two chunks that hold a stream of two elements, two that hold a stream cut short, and a chunk
of negative length. -/
theorem unpack_outcome_chunks :
    let c := ofChunkLimit 16
    let whole : List UInt8 := [2, 4, 0, 0, 0, 48, 1, 0, 0, 4, 0, 0, 0, 48, 0, 1, 5]
    let cut : List UInt8 := [2, 4, 0, 0, 0, 48, 1, 0, 0, 4, 0, 0, 0, 48, 0, 15, 5]
    let negative : List UInt8 := [1, 0, 0, 0, 128]
    let outcome (source : List UInt8) (workspace : Option (List UInt8)) :=
      (c.compressor.unpack source [7, 7] workspace).value
    (outcome whole (some (List.replicate 12 9))).result = .error (.bufferTooSmall 13 12) ∧
      (outcome whole (some (List.replicate 14 9))).result = .ok 2 ∧
      (∃ demanded, (outcome cut none).result = .error (.truncatedStream demanded 6)) ∧
      (outcome negative none).result = .ok 0 ∧ (outcome negative none).buffer = [7, 7] := by
  intro c whole cut negative outcome
  have hroom : (List.replicate 13 (0 : UInt8)).length = Precoded.maxSize 2 := by decide
  have hlarge (space : List UInt8) (hspace : some (List.replicate 14 9) = some space) :
      Precoded.maxSize 2 ≤ space.length := by
    rw [← Option.some.inj hspace]
    decide
  obtain ⟨hshort, -⟩ := unpack_outcome c whole [7, 7] (some (List.replicate 12 9))
  obtain ⟨-, -, hwhole, -⟩ := unpack_outcome c whole [7, 7] (some (List.replicate 14 9))
  obtain ⟨-, -, -, -, -, hfilled⟩ := hwhole hlarge _ hroom
  obtain ⟨-, -, hcut, -⟩ := unpack_outcome c cut [7, 7] none
  obtain ⟨-, -, -, -, -, hrefused⟩ := hcut nofun _ hroom
  obtain ⟨-, -, hnegative, -⟩ := unpack_outcome c negative [7, 7] none
  obtain ⟨-, -, -, hzero, huntouched, -⟩ := hnegative nofun _ hroom
  refine ⟨(hshort 13 12).2 ⟨rfl, by decide, _, rfl, rfl⟩, ?_, ?_, hzero.2 ?_, huntouched ?_⟩
  · have hstream : c.compressor.restored whole (List.replicate 13 0) = [1, 0, 0, 0, 1, 5] := by
      decide +kernel
    rw [hstream] at hfilled
    exact (hfilled (by decide +kernel)).2.1.2 ⟨_, rfl⟩
  · have hstream : c.compressor.restored cut (List.replicate 13 0) = [1, 0, 0, 0, 15, 5] := by
      decide +kernel
    rw [hstream] at hrefused
    exact (hrefused (by decide +kernel)).2.2 (by rintro ⟨summary, ⟨⟩⟩)
  · decide +kernel
  · decide +kernel

end DeltaPack.Lz4
