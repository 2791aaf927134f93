import DeltaPack.Precoded.Encode
import DeltaPack.Proofs.Precoded.Walk

/-!
# How differences can be spelled

A list of differences has many spellings as tags and residuals: a narrow difference may be stored
in a wide residual, and the common difference may be stored like any other. `Spells` says that
tags and residuals stand for a list of differences, one field to a tag, and every walk that misses
no residual finds such a spelling (`spells_readFrom`).

The writer chooses the shortest one. A tag never names fewer bytes than the tag that the writer
would have chosen for its difference, so neither do the tags of a whole list
(`Spells.demand_classify_le`). Where it names as many, the tag is the writer's, and so is
the residual, since a field is that of the number it is read as; hence a spelling that is as short
as the writer's is the writer's (`Spells.eq_of_demand_le`).
-/

namespace DeltaPack.Precoded

variable {common : Int32}

/-- Tags and residuals **spell** the differences they stand for, around a common one. -/
inductive Spells (common : Int32) : List Tag → List UInt8 → List Int32 → Prop
  | nil : Spells common [] [] []
  | cons {tag : Tag} {field bytes : List UInt8} {tags : List Tag} {deltas : List Int32}
      (length_field : field.length = tag.residualSize) (tail : Spells common tags bytes deltas) :
      Spells common (tag :: tags) (field ++ bytes) (tag.delta common field :: deltas)

/-! ### What a walk reads -/

/-- **A walk that misses no residual reads a spelling.** -/
theorem spells_readFrom (common : Int32) {tags : List Tag} {bytes : List UInt8}
    (h : Tag.demand tags ≤ bytes.length) (position : Nat) :
    Spells common tags (bytes.take (Tag.demand tags))
      (readFrom common tags bytes position []).deltas := by
  -- the walk takes one field for each tag, so the induction is on the tags
  induction tags generalizing bytes position with
  | nil => simpa [readFrom] using Spells.nil
  | cons tag tags ih =>
    rw [Tag.demand_cons] at h
    have hfield : (bytes.take tag.residualSize).length = tag.residualSize :=
      List.length_take_of_le (by omega)
    have hrest : Tag.demand tags ≤ (bytes.drop tag.residualSize).length := by
      rw [List.length_drop]
      omega
    rw [readFrom, if_neg (Nat.not_lt.2 (Nat.le_of_eq hfield.symm)), readFrom_eq_append,
      Tag.demand_cons, List.take_add]
    exact .cons hfield (ih hrest _)

/-! ### One difference -/

/-- A narrow field holds small integers. -/
theorem toInt_delta_mem_range {tag : Tag} {field : List UInt8} (hcommon : tag ≠ .common)
    (h : field.length = tag.residualSize) :
    -(LittleEndian.capacity tag.residualSize : Int) ≤ (tag.delta common field).toInt * 2 ∧
      (tag.delta common field).toInt * 2 < LittleEndian.capacity tag.residualSize := by
  have hsize := tag.residualSize_le
  have hrange := LittleEndian.signed_mem_range field
  have hcap : LittleEndian.capacity field.length ≤ 2 ^ 32 :=
    Nat.le_of_dvd (by decide) (LittleEndian.capacity_dvd (by omega))
  have hdelta : (tag.delta common field).toInt = LittleEndian.signed field := by
    rw [Tag.delta]
    · exact Int32.toInt_ofInt_of_le (by omega) (by omega)
    · exact hcommon
  rw [hdelta, ← h]
  exact hrange

/-- **The writer's tag is the narrowest**: no tag that stands for a difference names fewer bytes. -/
theorem residualSize_classify_le (common : Int32) {tag : Tag} {field : List UInt8}
    (h : field.length = tag.residualSize) :
    (Tag.classify common (tag.delta common field)).residualSize ≤ tag.residualSize := by
  by_cases hcommon : tag = .common
  · subst hcommon
    simp only [Tag.delta, Tag.classify, if_pos, Nat.le_refl]
  · obtain ⟨hlo, hhi⟩ := toInt_delta_mem_range hcommon h
    exact Tag.residualSize_classify_le_of_mem_range hcommon hlo hhi

/-- **A residual is fixed by its difference and its width.** -/
theorem residual_eq_of_residualSize_eq (common : Int32) {tag : Tag} {field : List UInt8}
    (h : field.length = tag.residualSize)
    (hsize : (Tag.classify common (tag.delta common field)).residualSize = tag.residualSize) :
    Tag.classify common (tag.delta common field) = tag ∧
      Tag.residual common (tag.delta common field) = field := by
  refine ⟨Tag.residualSize_injective hsize, ?_⟩
  rw [Tag.residual, hsize, ← h]
  by_cases hcommon : tag = .common
  · subst hcommon
    rw [List.eq_nil_of_length_eq_zero h]
    rfl
  · have hsize := tag.residualSize_le
    rw [Tag.delta]
    · exact LittleEndian.bytes_ofInt_signed (by omega)
    · exact hcommon

/-! ### All differences -/

variable {tags : List Tag} {bytes : List UInt8} {deltas : List Int32}

/-- A difference with the common tag is the common one. -/
theorem Spells.count_common_le (h : Spells common tags bytes deltas) :
    tags.count .common ≤ deltas.count common := by
  induction h with
  | nil => exact Nat.le_refl _
  | @cons tag field bytes tags deltas length_field tail ih =>
    rw [List.count_cons, List.count_cons]
    by_cases hcommon : tag = .common
    · subst hcommon
      simpa [Tag.delta] using ih
    · rw [if_neg (by simpa using hcommon)]
      exact Nat.le_trans ih (Nat.le_add_right ..)

/-- **The writer's tags ask for the fewest bytes.** -/
theorem Spells.demand_classify_le (h : Spells common tags bytes deltas) :
    Tag.demand (deltas.map (Tag.classify common)) ≤ Tag.demand tags := by
  induction h with
  | nil => exact Nat.le_refl _
  | cons length_field tail ih =>
    rw [List.map_cons, Tag.demand_cons, Tag.demand_cons]
    exact Nat.add_le_add (residualSize_classify_le common length_field) ih

/-- **A spelling no longer than the writer's is the writer's.** -/
theorem Spells.eq_of_demand_le (h : Spells common tags bytes deltas)
    (hle : Tag.demand tags ≤ Tag.demand (deltas.map (Tag.classify common))) :
    deltas.map (Tag.classify common) = tags ∧ residuals common deltas = bytes := by
  induction h with
  | nil => exact ⟨rfl, rfl⟩
  | cons length_field tail ih =>
    rw [List.map_cons, Tag.demand_cons, Tag.demand_cons] at hle
    have hhead := residualSize_classify_le common length_field
    have htail := tail.demand_classify_le
    obtain ⟨htag, hresidual⟩ :=
      residual_eq_of_residualSize_eq common length_field (by omega)
    obtain ⟨htags, hresiduals⟩ := ih (by omega)
    rw [List.map_cons, htag, htags, residuals, List.flatMap_cons, hresidual, ← residuals,
      hresiduals]
    exact ⟨rfl, rfl⟩

end DeltaPack.Precoded
