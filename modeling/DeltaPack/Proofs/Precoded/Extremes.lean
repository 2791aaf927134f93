import DeltaPack.Proofs.Precoded.Writing
import Mathlib.Data.Finset.Card
import Mathlib.Data.Int.Interval
import Mathlib.Data.List.Nodup

/-!
# The shortest and the longest streams

The size of a stream is that of its header and the residual bytes that its tags ask for. The tags of
the common difference ask for none. There is at least one of them, since the common difference
occurs, and this is one word less than `maxSize` allows for (`length_encode_add_le`).

* **Shortest**: no tag asks for a byte, so every difference is the common one
  (`length_encode_eq_headerSize_iff`).
* **Longest**: only one tag is that of the common difference, and all others ask for four bytes. The
  first says that no difference occurs twice, for none occurs more often than the common one; the
  second that all others are wide (`length_encode_add_eq_iff`).

There are `2 ^ 32 - 65536` wide differences, and a list of all of them has a longest stream. No
longer list has one: of differences that are all distinct the lowest is the common one, so if it is
not wide, then no wide difference is negative (`length_le_wideCount`).
-/

namespace DeltaPack

/-! ### Wide differences -/

namespace Delta

/-- A difference that takes four bytes, unless it is the common one. -/
def IsWide (d : Int32) : Prop := d.toInt < -32768 ∨ 32767 < d.toInt

/-- The number of wide differences. -/
def wideCount : Nat := 2 ^ 32 - 65536

/-- The **wide differences**, one after the other: from the least positive one upwards, and on from
the least number of all. -/
def wide (i : Nat) : Int32 := Int32.ofNat (32768 + i)

section Wide

variable {i j : Nat}

theorem toInt_wide (h : i < wideCount) :
    (wide i).toInt = if i < 2147450880 then (32768 + i : Int) else i - 4294934528 := by
  rw [wideCount] at h
  rw [wide, Int32.toInt_ofNat', Int.bmod_def, Int32.size]
  split_ifs <;> omega

theorem isWide_wide (h : i < wideCount) : IsWide (wide i) := by
  rw [IsWide, toInt_wide h]
  rw [wideCount] at h
  split_ifs <;> omega

theorem wide_inj (hi : i < wideCount) (hj : j < wideCount) (h : wide i = wide j) : i = j := by
  have hvalue := congrArg Int32.toInt h
  rw [toInt_wide hi, toInt_wide hj] at hvalue
  rw [wideCount] at hi hj
  split_ifs at hvalue <;> omega

end Wide

/-- The first wide differences are distinct. -/
theorem nodup_map_wide {count : Nat} (h : count ≤ wideCount) :
    ((List.range count).map wide).Nodup := by
  refine List.nodup_range.map_on fun i hi j hj => wide_inj ?_ ?_
  · exact Nat.lt_of_lt_of_le (List.mem_range.1 hi) h
  · exact Nat.lt_of_lt_of_le (List.mem_range.1 hj) h

/-- Distinct differences are not more than the values that they take. -/
theorem length_le_card {deltas : List Int32} {values : Finset Int} (hnodup : deltas.Nodup)
    (h : ∀ d ∈ deltas, d.toInt ∈ values) : deltas.length ≤ values.card := by
  have hvalues : (deltas.map Int32.toInt).Nodup := hnodup.map fun _ _ => Int32.toInt_inj.1
  have hsubset : (deltas.map Int32.toInt).toFinset ⊆ values := by
    intro value hvalue
    obtain ⟨d, hd, rfl⟩ := List.mem_map.1 (List.mem_toFinset.1 hvalue)
    exact h d hd
  calc deltas.length = (deltas.map Int32.toInt).toFinset.card := by
        rw [List.toFinset_card_of_nodup hvalues, List.length_map]
    _ ≤ values.card := Finset.card_le_card hsubset

/-! ### How often the common difference occurs -/

section Mode

variable {words : List UInt32} {common : Int32} (h : mode words = some common)

include h

theorem mode_mem : common ∈ differences words := (mode_eq_some_iff.1 h).mem

/-- All differences are the common one if they are all equal. -/
theorem forall_eq_mode_iff :
    (∀ d ∈ differences words, d = common) ↔
      ∀ d ∈ differences words, ∀ e ∈ differences words, d = e := by
  constructor
  · intro hall d hd e he
    rw [hall d hd, hall e he]
  · intro hall d hd
    exact hall d hd common (mode_mem h)

/-- **The common difference occurs once exactly if no difference occurs twice.** -/
theorem count_mode_eq_one_iff :
    (differences words).count common = 1 ↔ (differences words).Nodup := by
  constructor
  · intro hone
    refine List.nodup_iff_count_le_one.2 fun d => ?_
    rw [← hone]
    exact count_le_count_mode h d
  · intro hnodup
    exact List.count_eq_one_of_mem hnodup (mode_mem h)

/-- Of distinct differences, the common one is the lowest. -/
theorem mode_lt_of_nodup (hnodup : (differences words).Nodup) {d : Int32}
    (hd : d ∈ differences words) (hne : d ≠ common) : common.toInt < d.toInt := by
  have hcount : (differences words).count d = (differences words).count common := by
    rw [List.count_eq_one_of_mem hnodup hd, List.count_eq_one_of_mem hnodup (mode_mem h)]
  exact (mode_eq_some_iff.1 h).lt_of_count_eq d hd hne hcount

/-- **There are not more distinct differences that are wide**, but for the common one, than wide
numbers. -/
theorem length_le_wideCount (hnodup : (differences words).Nodup)
    (hwide : ∀ d ∈ differences words, d ≠ common → IsWide d) :
    (differences words).length ≤ wideCount := by
  let low := Finset.Icc (-2147483648 : Int) (-32769)
  let high := Finset.Icc (32768 : Int) 2147483647
  by_cases hcommon : IsWide common
  · have hmem : ∀ d ∈ differences words, d.toInt ∈ low ∪ high := by
      intro d hd
      have hd : IsWide d := by
        by_cases heq : d = common
        · rwa [heq]
        · exact hwide d hd heq
      have hlo := d.le_toInt
      have hhi := d.toInt_lt
      rw [IsWide] at hd
      simp only [low, high, Finset.mem_union, Finset.mem_Icc]
      omega
    refine Nat.le_trans (length_le_card hnodup hmem) (Nat.le_trans (Finset.card_union_le ..) ?_)
    rw [Int.card_Icc, Int.card_Icc]
    decide
  -- all others are greater than a common one that is not wide
  · have hmem : ∀ d ∈ differences words, d.toInt ∈ insert common.toInt high := by
      intro d hd
      rw [Finset.mem_insert]
      by_cases heq : d = common
      · exact .inl (congrArg Int32.toInt heq)
      · have hgreater := mode_lt_of_nodup h hnodup hd heq
        have hd := hwide d hd heq
        have hhi := d.toInt_lt
        rw [IsWide] at hd hcommon
        simp only [high, Finset.mem_Icc]
        omega
    refine Nat.le_trans (length_le_card hnodup hmem) (Nat.le_trans (Finset.card_insert_le ..) ?_)
    rw [Int.card_Icc]
    decide

end Mode

end Delta

namespace Precoded

/-! ### How many bytes tags ask for -/

/-- No bytes are asked for exactly by tags of the common difference. -/
theorem Tag.demand_eq_zero_iff {tags : List Tag} : demand tags = 0 ↔ ∀ tag ∈ tags, tag = .common := by
  induction tags with
  | nil => simp
  | cons tag tags ih =>
    have hzero : tag.residualSize = 0 ↔ tag = .common := by cases tag <;> decide
    rw [demand_cons, Nat.add_eq_zero_iff, hzero, ih, List.forall_mem_cons]

/-- Tags ask for four bytes at most, but for those of the common difference. -/
theorem Tag.demand_add_count_le (tags : List Tag) :
    demand tags + 4 * tags.count .common ≤ 4 * tags.length := by
  induction tags with
  | nil => simp
  | cons tag tags ih =>
    rw [demand_cons, List.count_cons, List.length_cons]
    cases tag <;> simp [residualSize] <;> omega

/-- They ask for as many exactly if none asks for one or two bytes. -/
theorem Tag.demand_add_count_eq_iff {tags : List Tag} :
    demand tags + 4 * tags.count .common = 4 * tags.length ↔
      ∀ tag ∈ tags, tag ≠ .common → tag = .four := by
  induction tags with
  | nil => simp
  | cons tag tags ih =>
    have hle := demand_add_count_le tags
    rw [List.forall_mem_cons, ← ih, demand_cons, List.count_cons, List.length_cons]
    cases tag <;> simp [residualSize] <;> omega

/-- Four bytes are for wide differences. -/
theorem Tag.classify_eq_four_iff {common d : Int32} :
    classify common d = .four ↔ d ≠ common ∧ Delta.IsWide d := by
  rw [classify, Delta.IsWide]
  split_ifs with hc hone htwo <;> simp [hc] <;> omega

/-! ### The extreme sizes -/

section Size

variable {words : List UInt32} (h : words ≠ [])

include h

/-- **A stream is no longer than its header exactly if all differences are equal.** -/
theorem length_encode_eq_headerSize_iff :
    (encode words).length = headerSize words.length ↔
      ∀ d ∈ Delta.differences words, ∀ e ∈ Delta.differences words, d = e := by
  obtain ⟨common, hmode, -⟩ := exists_encode_eq h
  rw [length_encode_eq hmode, Nat.add_eq_left, Tag.demand_eq_zero_iff, List.forall_mem_map,
    ← Delta.forall_eq_mode_iff hmode]
  simp only [Tag.classify_eq_common_iff]

/-- A stream with so many common differences is so many words shorter than the bound. -/
theorem length_encode_add_count_le {common : Int32} (hmode : Delta.mode words = some common) :
    (encode words).length + 4 * (Delta.differences words).count common ≤ maxSize words.length := by
  have hdemand := Tag.demand_add_count_le ((Delta.differences words).map (Tag.classify common))
  rw [Tag.count_common_map_classify, List.length_map, Delta.length_differences] at hdemand
  rw [length_encode_eq hmode, maxSize_eq (mt List.length_eq_zero_iff.1 h)]
  omega

/-- **No stream comes closer to the bound than one word.** -/
theorem length_encode_add_le : (encode words).length + 4 ≤ maxSize words.length := by
  obtain ⟨common, hmode, -⟩ := exists_encode_eq h
  have hcount := List.count_pos_iff.2 (Delta.mode_mem hmode)
  have hle := length_encode_add_count_le h hmode
  omega

/-- **A stream comes as close to the bound as one word** exactly if its differences are distinct and
all but the common one are wide. -/
theorem length_encode_add_eq_iff {common : Int32} (hmode : Delta.mode words = some common) :
    (encode words).length + 4 = maxSize words.length ↔
      (Delta.differences words).Nodup ∧
        ∀ d ∈ Delta.differences words, d ≠ common → Delta.IsWide d := by
  have hcount := List.count_pos_iff.2 (Delta.mode_mem hmode)
  have hle := length_encode_add_count_le h hmode
  have hwide : (∀ tag ∈ (Delta.differences words).map (Tag.classify common),
      tag ≠ .common → tag = .four) ↔
        ∀ d ∈ Delta.differences words, d ≠ common → Delta.IsWide d := by
    simp only [List.forall_mem_map, ne_eq, Tag.classify_eq_common_iff, Tag.classify_eq_four_iff]
    exact forall₂_congr fun d _ => imp_congr_right fun hne => and_iff_right hne
  rw [← hwide, ← Tag.demand_add_count_eq_iff, ← Delta.count_mode_eq_one_iff hmode,
    Tag.count_common_map_classify, List.length_map, Delta.length_differences]
  rw [length_encode_eq hmode, maxSize_eq (mt List.length_eq_zero_iff.1 h)] at *
  omega

end Size

/-- **The longest streams**: the bound is missed by one word exactly for numbers of words that are
no larger than that of the wide differences. -/
theorem exists_length_encode_add_eq_iff {count : Nat} (hcount : 1 ≤ count) :
    (∃ words : List UInt32, words.length = count ∧ (encode words).length + 4 = maxSize count) ↔
      count ≤ Delta.wideCount := by
  constructor
  · rintro ⟨words, rfl, hlongest⟩
    have hwords : words ≠ [] := List.length_pos_iff.1 hcount
    obtain ⟨common, hmode, -⟩ := exists_encode_eq hwords
    obtain ⟨hnodup, hwide⟩ := (length_encode_add_eq_iff hwords hmode).1 hlongest
    have hle := Delta.length_le_wideCount hmode hnodup hwide
    rwa [Delta.length_differences] at hle
  -- the running sums of the first wide differences
  · intro hle
    let words := Delta.sums ((List.range count).map Delta.wide)
    have hdeltas : Delta.differences words = (List.range count).map Delta.wide :=
      Delta.differences_sums _
    have hlength : words.length = count := by
      rw [Delta.length_sums, List.length_map, List.length_range]
    have hwords : words ≠ [] := List.length_pos_iff.1 (hlength.symm ▸ hcount)
    obtain ⟨common, hmode, -⟩ := exists_encode_eq hwords
    refine ⟨words, hlength, ?_⟩
    rw [← hlength, length_encode_add_eq_iff hwords hmode, hdeltas]
    refine ⟨Delta.nodup_map_wide hle, List.forall_mem_map.2 fun i hi _ => ?_⟩
    exact Delta.isWide_wide (Nat.lt_of_lt_of_le (List.mem_range.1 hi) hle)

/-- **The bound on the size of a stream is safe, and tight up to one word.** A stream of words takes
its header and stays one word below the bound, so that no residual is written out of range. It takes
the header alone exactly if all differences are equal. It comes as close as one word exactly if they
are all distinct and, but for the common one, outside of what two bytes hold. This happens for every
number of words up to that of the differences outside, and for none above. -/
theorem length_encode_extremes :
    (∀ (words : List UInt32) (buffer : List UInt8), words ≠ [] →
      maxSize words.length ≤ buffer.length →
        let deltas := Delta.differences words
        let n := (encode words).length
        (encodeInto words buffer).value.result = .ok n ∧
          encodeAt words buffer = some (encodeInto words buffer).value ∧
          4 + (words.length + 3) / 4 ≤ n ∧ n + 4 ≤ maxSize words.length ∧
          (n = 4 + (words.length + 3) / 4 ↔ ∀ d ∈ deltas, ∀ e ∈ deltas, d = e) ∧
          (n + 4 = maxSize words.length ↔ deltas.Nodup ∧
            ∀ d ∈ deltas, Delta.mode words ≠ some d → d.toInt < -32768 ∨ 32767 < d.toInt)) ∧
      ∀ count, 1 ≤ count →
        ((∃ words : List UInt32, words.length = count ∧
            (encode words).length + 4 = maxSize count) ↔ count ≤ 2 ^ 32 - 65536) := by
  refine ⟨fun words buffer hwords hroom => ?_, fun count => exists_length_encode_add_eq_iff⟩
  intro deltas n
  obtain ⟨common, hmode, -⟩ := exists_encode_eq hwords
  have hother (d : Int32) : Delta.mode words ≠ some d ↔ d ≠ common := by
    rw [hmode, ne_eq, Option.some.injEq, eq_comm]
  refine ⟨?_, encodeAt_eq words buffer, headerSize_le_length_encode hwords,
    length_encode_add_le hwords, length_encode_eq_headerSize_iff hwords, ?_⟩
  · rw [encodeInto_value hroom]
    rfl
  · simp only [hother]
    exact length_encode_add_eq_iff hwords hmode

/-- Two wide differences in a buffer of the exact size, three equal ones, and as many words as there
are wide differences. -/
theorem length_encode_extremes_wide :
    let pair : List UInt32 := [0x8000, 0x10001]
    let equal : List UInt32 := [5, 10, 15]
    (encodeInto pair (List.replicate 13 0)).value.result = .ok 9 ∧
      (encode equal).length = 5 ∧
      ∃ words : List UInt32, words.length = 4294901760 ∧
        (encode words).length + 4 = maxSize 4294901760 := by
  intro pair equal
  obtain ⟨hwords, hlongest⟩ := length_encode_extremes
  have hroom : maxSize pair.length ≤ (List.replicate 13 (0 : UInt8)).length := by decide
  obtain ⟨hresult, -, -, -, -, hlarge⟩ := hwords pair (List.replicate 13 0) (by decide) hroom
  obtain ⟨-, -, -, -, hsmall, -⟩ := hwords equal (List.replicate 18 0) (by decide) (by decide)
  have hdistinct : Delta.differences pair = [32768, 32769] := by decide +kernel
  have hsame : Delta.differences equal = List.replicate 3 5 := by decide +kernel
  have hpair : (encode pair).length + 4 = maxSize 2 := by
    refine hlarge.2 ⟨by rw [hdistinct]; decide, fun d hd _ => ?_⟩
    rw [hdistinct, List.mem_pair] at hd
    obtain rfl | rfl := hd <;> decide
  have hequal : (encode equal).length = 4 + (3 + 3) / 4 := by
    refine hsmall.2 fun d hd e he => ?_
    rw [hsame] at hd he
    rw [List.eq_of_mem_replicate hd, List.eq_of_mem_replicate he]
  have hsize : maxSize 2 = 9 + 4 := by decide
  refine ⟨?_, hequal, (hlongest _ (by decide)).2 (by decide)⟩
  rw [hresult, Nat.add_right_cancel (hpair.trans hsize)]

end Precoded

end DeltaPack
