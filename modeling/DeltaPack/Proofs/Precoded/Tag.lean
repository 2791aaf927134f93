import DeltaPack.Precoded.Size
import DeltaPack.Precoded.Tag
import DeltaPack.Proofs.Fields
import Mathlib.Tactic.SplitIfs

/-!
# Tags and residuals read back

A difference is stored as a tag and a residual, and the two together give it back
(`Tag.delta_residual`): the tag says which width the residual has, and the width was chosen so
that sign extension restores the difference. The tags themselves are stored four to a byte;
`Tag.flatMap_unpackByte_pack` says what a reader of whole bytes finds, which is the tags and then
the zero padding of the last byte, so that reading as many tags as were written gives them back
(`Tag.unpack_pack`).

`Tag.demand` is the number of residual bytes that a list of tags asks for.
-/

namespace DeltaPack.Precoded.Tag

/-! ### Residuals -/

@[simp]
theorem length_residual (common delta : Int32) :
    (residual common delta).length = (classify common delta).residualSize := by
  rw [residual, LittleEndian.length_bytes]

theorem residualSize_le (tag : Tag) : tag.residualSize ≤ 4 := by
  cases tag <;> decide

/-- The tag of a difference names a width that holds it, unless it is the common one. -/
private theorem mem_range_of_classify {common d : Int32} (h : classify common d ≠ .common) :
    -(LittleEndian.capacity (classify common d).residualSize : Int) ≤ d.toInt * 2 ∧
      d.toInt * 2 < LittleEndian.capacity (classify common d).residualSize := by
  have hlo := d.le_toInt
  have hhi := d.toInt_lt
  rw [classify] at h ⊢
  split_ifs at h ⊢ with hc hone htwo
  · exact absurd rfl h
  · simp only [residualSize, LittleEndian.capacity]
    omega
  · simp only [residualSize, LittleEndian.capacity]
    omega
  · simp only [residualSize, LittleEndian.capacity]
    omega

/-- **The tag of a difference is the narrowest**: no other tag whose width holds the difference
names fewer bytes. -/
theorem residualSize_classify_le_of_mem_range {common d : Int32} {tag : Tag} (h : tag ≠ .common)
    (hlo : -(LittleEndian.capacity tag.residualSize : Int) ≤ d.toInt * 2)
    (hhi : d.toInt * 2 < LittleEndian.capacity tag.residualSize) :
    (classify common d).residualSize ≤ tag.residualSize := by
  rw [classify]
  cases tag with
  | common => exact absurd rfl h
  | one =>
    simp only [residualSize, LittleEndian.capacity] at hlo hhi
    have hrange : -128 ≤ d.toInt ∧ d.toInt ≤ 127 := by omega
    rw [if_pos hrange]
    split_ifs <;> decide
  | two =>
    simp only [residualSize, LittleEndian.capacity] at hlo hhi
    have hrange : -32768 ≤ d.toInt ∧ d.toInt ≤ 32767 := by omega
    rw [if_pos hrange]
    split_ifs <;> decide
  | four => exact residualSize_le _

/-- The common tag is that of the common difference alone. -/
theorem classify_eq_common_iff {common d : Int32} : classify common d = .common ↔ d = common := by
  rw [classify]
  split_ifs with h <;> simp [h]

/-- The common tag occurs as often as the common difference. -/
theorem count_common_map_classify (common : Int32) (deltas : List Int32) :
    (deltas.map (classify common)).count .common = deltas.count common := by
  induction deltas with
  | nil => rfl
  | cons d rest ih =>
    have htag : (classify common d == .common) = (d == common) := by
      rw [Bool.eq_iff_iff, beq_iff_eq, beq_iff_eq, classify_eq_common_iff]
    rw [List.map_cons, List.count_cons, List.count_cons, ih, htag]

/-- **A tag and its residual give the difference back.** -/
theorem delta_residual (common d : Int32) :
    (classify common d).delta common (residual common d) = d := by
  by_cases h : classify common d = .common
  · rw [h, delta, classify_eq_common_iff.1 h]
  · obtain ⟨hlo, hhi⟩ := mem_range_of_classify h
    have hread := LittleEndian.signed_bytes_word_of_mem (residualSize_le _) hlo hhi
    rw [delta, residual, hread, Int32.ofInt_toInt]
    exact h

/-- Bytes of residuals that a list of tags asks for. -/
def demand (tags : List Tag) : Nat := (tags.map residualSize).sum

@[simp]
theorem demand_nil : demand [] = 0 := rfl

@[simp]
theorem demand_cons (tag : Tag) (tags : List Tag) :
    demand (tag :: tags) = tag.residualSize + demand tags := by
  simp [demand]

theorem demand_append (first second : List Tag) :
    demand (first ++ second) = demand first + demand second := by
  rw [demand, List.map_append, List.sum_append, demand, demand]

/-- Fewer tags ask for no more. -/
theorem demand_take_le (tags : List Tag) (count : Nat) : demand (tags.take count) ≤ demand tags := by
  have h := demand_append (tags.take count) (tags.drop count)
  rw [List.take_append_drop] at h
  omega

theorem demand_le (tags : List Tag) : demand tags ≤ 4 * tags.length := by
  induction tags with
  | nil => simp
  | cons tag tags ih =>
    have := tag.residualSize_le
    rw [demand_cons, List.length_cons]
    omega

theorem residualSize_injective : Function.Injective residualSize := by
  intro a b h
  cases a <;> cases b <;> first | rfl | cases h

/-! ### Packed tags -/

theorem code_lt (tag : Tag) : tag.code < 4 := by
  cases tag <;> decide

@[simp]
theorem code_ofBits (bits : Nat) : (ofBits bits).code = bits % 4 := by
  have hlt : bits % 4 < 4 := Nat.mod_lt _ (by decide)
  rw [ofBits]
  generalize bits % 4 = low at *
  match low, hlt with
  | 0, _ | 1, _ | 2, _ | 3, _ => rfl

/-- Only the low two bits matter. -/
theorem ofBits_of_mod {bits : Nat} {tag : Tag} (h : bits % 4 = tag.code) : ofBits bits = tag := by
  cases tag <;> simp only [code] at h <;> simp [ofBits, h]

theorem unpackByte_packByte (a b c d : Tag) : unpackByte (packByte a b c d) = [a, b, c, d] := by
  have ha := a.code_lt
  have hb := b.code_lt
  have hc := c.code_lt
  have hd := d.code_lt
  have hbyte : (packByte a b c d).toNat = a.code + 4 * b.code + 16 * c.code + 64 * d.code := by
    rw [packByte, UInt8.toNat_ofNat']
    omega
  rw [unpackByte, hbyte]
  congr 1
  · exact ofBits_of_mod (by omega)
  congr 1
  · exact ofBits_of_mod (by omega)
  congr 1
  · exact ofBits_of_mod (by omega)
  congr 1
  exact ofBits_of_mod (by omega)

@[simp]
theorem length_pack (tags : List Tag) : (pack tags).length = tagRegionSize tags.length := by
  fun_induction pack tags with
  | case1 a b c d rest ih =>
    simp only [List.length_cons, ih, tagRegionSize]
    omega
  | case2 | case3 | case4 => simp [tagRegionSize]
  | case5 => rfl

/-- A tag region holds its tags and, in the rest of its last byte, zeros, which stand for the
common difference. -/
theorem flatMap_unpackByte_pack (tags : List Tag) :
    (pack tags).flatMap unpackByte =
      tags ++ List.replicate (4 * tagRegionSize tags.length - tags.length) .common := by
  fun_induction pack tags with
  | case1 a b c d rest ih =>
    have hpad : 4 * tagRegionSize (rest.length + 4) - (rest.length + 4) =
        4 * tagRegionSize rest.length - rest.length := by
      simp only [tagRegionSize]
      omega
    rw [List.flatMap_cons, unpackByte_packByte, ih]
    simp only [List.length_cons, hpad, List.cons_append, List.nil_append]
  | case2 | case3 | case4 => simp [unpackByte_packByte, tagRegionSize]
  | case5 => rfl

/-- **Packed tags are read back.** -/
theorem unpack_pack (tags : List Tag) : unpack tags.length (pack tags) = tags := by
  rw [unpack, flatMap_unpackByte_pack, List.take_left]

@[simp]
theorem length_unpackByte (byte : UInt8) : (unpackByte byte).length = 4 := rfl

/-- A region of the right size holds a tag for every element. -/
theorem length_unpack {count : Nat} {region : List UInt8}
    (h : region.length = tagRegionSize count) : (unpack count region).length = count := by
  have hlen : (region.flatMap unpackByte).length = 4 * region.length := by
    rw [List.length_flatMap]
    simp only [length_unpackByte, List.map_const', List.sum_replicate_nat]
    exact Nat.mul_comm _ _
  rw [unpack, List.length_take, hlen, h, tagRegionSize]
  omega

end DeltaPack.Precoded.Tag
