import DeltaPack.Proofs.Precoded.Positions
import DeltaPack.Proofs.Precoded.Spelling
import DeltaPack.Proofs.Precoded.Summary
import Mathlib.Control.Monad.Basic

/-!
# The written stream is the best for its common difference

Many streams decode to the same words. All of them spell the same differences, since the words fix
these (`spells_of_decodeInto`). What is left to choose is the common difference, the tag of each
element, and the bits of the last tag byte that belong to no element.

The writer takes the most frequent difference as the common one, so no stream refers to its own
more often. Among the streams around that difference the written one is the shortest, and the
only one of its length but for the bits that belong to no element (`encodeInto_canonical`).
-/

namespace DeltaPack.Precoded

/-! ### Streams that decode -/

section Decode

variable {words slice : List UInt32} {stream : List UInt8}

/-- **Every stream that decodes to some words spells their differences.** -/
theorem spells_of_decodeInto (hw : words ≠ []) (hslice : slice.length = words.length)
    (hok : (decodeInto stream slice).result = .ok words.length)
    (hwords : (decodeInto stream slice).buffer = words) :
    statedSize words.length stream ≤ stream.length ∧
      Spells (commonOf stream) (tagsOf words.length stream)
        ((stream.drop (headerSize words.length)).take (Tag.demand (tagsOf words.length stream)))
        (Delta.differences words) := by
  have hs : slice ≠ [] := fun hs => hw (List.length_eq_zero_iff.1 (by rw [← hslice, hs]; rfl))
  have hsize : statedSize words.length stream ≤ stream.length := by
    rw [← hslice]
    exact (decodeInto_result_eq_ok_iff hs).1 (by rw [hok, hslice])
  have hread : (read words.length stream).deltas = Delta.differences words := by
    have hlength : slice.length = (Delta.sums (read words.length stream).deltas).length := by
      rw [Delta.length_sums, length_deltas_read hsize, hslice]
    rw [decodeInto_of_statedSize_le hs (by rwa [hslice]), hslice, Filled.wrote,
      Filled.overlay_of_length_eq hlength] at hwords
    calc (read words.length stream).deltas
        = Delta.differences (Delta.sums (read words.length stream).deltas) :=
          (Delta.differences_sums _).symm
      _ = Delta.differences words := congrArg Delta.differences hwords
  refine ⟨hsize, ?_⟩
  rw [← hread, read]
  rw [statedSize] at hsize
  exact spells_readFrom _ (by rw [List.length_drop]; omega) 0

/-- The head of a stream is that of its common difference. -/
theorem take_commonSize (h : commonSize ≤ stream.length) :
    stream.take commonSize = LittleEndian.bytes commonSize (commonOf stream).toUInt32.toNat := by
  have hlength : (stream.take commonSize).length = commonSize := List.length_take_of_le h
  have hfield := LittleEndian.bytes_ofInt_signed (Nat.le_of_eq hlength)
  rw [hlength] at hfield
  exact hfield.symm

/-- The three parts of a stream of its stated size, or longer. -/
theorem take_statedSize {count : Nat} (h : statedSize count stream ≤ stream.length) :
    stream.take (statedSize count stream) =
      LittleEndian.bytes commonSize (commonOf stream).toUInt32.toNat ++
        ((stream.drop commonSize).take (tagRegionSize count) ++
          (stream.drop (headerSize count)).take (Tag.demand (tagsOf count stream))) := by
  have hcommon : commonSize ≤ stream.length := by
    rw [statedSize, headerSize] at h
    omega
  rw [statedSize, headerSize, List.take_add, List.take_add, take_commonSize hcommon,
    List.append_assoc]

end Decode

/-! ### Padding -/

/-- Streams of `count` elements that **differ in padding at most**: they are of one length, and
every byte is the same, except that of the last byte of the tag region only those bits are that
belong to elements. -/
structure SameButPadding (count : Nat) (first second : List UInt8) : Prop where
  length_eq : first.length = second.length
  byte_eq : ∀ i, i + 1 ≠ headerSize count → first[i]? = second[i]?
  last_eq : ∀ i a b, i + 1 = headerSize count → first[i]? = some a → second[i]? = some b →
    a.toNat % 4 ^ ((count - 1) % 4 + 1) = b.toNat % 4 ^ ((count - 1) % 4 + 1)

/-- Streams that have the same tags, and all else in common, differ in padding at most. -/
theorem sameButPadding_of_unpack_eq {count : Nat} {head first second tail : List UInt8}
    (hcount : count ≠ 0) (hhead : head.length = commonSize)
    (hfirst : first.length = tagRegionSize count) (hsecond : second.length = tagRegionSize count)
    (h : Tag.unpack count first = Tag.unpack count second) :
    SameButPadding count (head ++ (first ++ tail)) (head ++ (second ++ tail)) where
  length_eq := by simp only [List.length_append, hfirst, hsecond]
  byte_eq := by
    intro i hi
    rw [headerSize, ← hhead] at hi
    rcases Nat.lt_or_ge i head.length with hlt | hge
    · rw [List.getElem?_append_left hlt, List.getElem?_append_left hlt]
    rw [List.getElem?_append_right hge, List.getElem?_append_right hge]
    rcases Nat.lt_or_ge (i - head.length) (tagRegionSize count) with hregion | htail
    -- not the last byte of the region, so all its bits belong to elements
    · have hk : i - head.length < first.length := by rwa [hfirst]
      have hk' : i - head.length < second.length := by rwa [hsecond]
      have ha := List.getElem?_eq_getElem hk
      have hb := List.getElem?_eq_getElem hk'
      rw [List.getElem?_append_left hk, List.getElem?_append_left hk', ha, hb]
      have hall : 4 * (i - head.length) + 4 ≤ count := by
        rw [tagRegionSize] at hregion hi
        omega
      rw [Tag.eq_of_unpack_eq h ha hb hall]
    · rw [List.getElem?_append_right (by rwa [hfirst]),
        List.getElem?_append_right (by rwa [hsecond]), hfirst, hsecond]
  last_eq := by
    intro i a b hi ha hb
    rw [headerSize, ← hhead] at hi
    have hsize : tagRegionSize count = (count - 1) / 4 + 1 := by
      rw [tagRegionSize]
      omega
    have hge : head.length ≤ i := by omega
    rw [List.getElem?_append_right hge, List.getElem?_append_left (by omega)] at ha hb
    exact Tag.mod_eq_of_unpack_eq h ha hb (by omega) (by omega)

/-! ### The written stream among all others -/

/-- **The written stream is canonical.** Whatever stream decodes to some words, it refers to its
common difference no more often than the written one does. If it is written around the same common
difference, it is no shorter, and if it is no longer either, it is the written one up to
padding. -/
theorem encodeInto_canonical {words slice : List UInt32} {stream buffer : List UInt8} {n : Nat}
    (hw : words ≠ []) (hslice : slice.length = words.length)
    (hok : (decodeInto stream slice).result = .ok words.length)
    (hwords : (decodeInto stream slice).buffer = words)
    (hwritten : (encodeInto words buffer).value.result = .ok n) :
    let written := (encodeInto words buffer).value.buffer.take n
    ∃ given own, summarize stream words.length = .ok given ∧
      summarize written words.length = .ok own ∧
      given.tagCounts.count .common ≤ own.tagCounts.count .common ∧
      (Delta.mode words = some given.common →
        n ≤ given.totalSize ∧
          (n = given.totalSize →
            SameButPadding words.length (stream.take given.totalSize) written)) := by
  have hcount : words.length ≠ 0 := mt List.length_eq_zero_iff.1 hw
  obtain ⟨rfl, hbytes⟩ := take_encodeInto_of_ok hwritten
  obtain ⟨hsize, hspells⟩ := spells_of_decodeInto hw hslice hok hwords
  obtain ⟨own, hown, -, hmode, hcommon⟩ := summarize_encode words
  rw [hbytes]
  refine ⟨_, own, summarize_of_statedSize_le hcount hsize, hown, ?_, fun hsame => ?_⟩
  · calc (tagsOf words.length stream).count .common
        ≤ (Delta.differences words).count (commonOf stream) := hspells.count_common_le
      _ ≤ (Delta.differences words).count own.common :=
          Delta.count_le_count_mode (hmode hw) (commonOf stream)
      _ = own.tagCounts.count .common := hcommon.symm
  -- around the same common difference both streams differ in tags and residuals only
  · change Delta.mode words = some (commonOf stream) at hsame
    have hencode : encode words = encodeAround (commonOf stream) (Delta.differences words) := by
      rw [encode, hsame]
    have hlength := length_encodeAround (commonOf stream) (Delta.differences words)
    rw [← hencode, Delta.length_differences] at hlength
    have hdemand := hspells.demand_classify_le
    refine ⟨?_, fun heq => ?_⟩
    · change _ ≤ statedSize words.length stream
      rw [hlength, statedSize]
      omega
    · change _ = statedSize words.length stream at heq
      rw [hlength, statedSize] at heq
      -- equal sizes leave no tag wider than the writer's
      obtain ⟨htags, hresiduals⟩ := hspells.eq_of_demand_le (by omega)
      have hregion := length_tagsOf (Nat.le_trans (headerSize_le_statedSize _ _) hsize)
      change SameButPadding words.length (stream.take (statedSize words.length stream)) _
      rw [take_statedSize hsize, hencode, encodeAround, hresiduals, htags]
      refine sameButPadding_of_unpack_eq hcount (LittleEndian.length_bytes ..) ?_ ?_ ?_
      · rw [statedSize, headerSize] at hsize
        rw [List.length_take, List.length_drop]
        omega
      · rw [Tag.length_pack, hregion]
      · have hunpack := Tag.unpack_pack (tagsOf words.length stream)
        rw [hregion] at hunpack
        exact hunpack.symm

/-- Three words, of which the second has the common difference: a stream whose padding is not zero
and which has a byte too many, and one that spells every difference in four bytes. -/
theorem encodeInto_canonical_three :
    let words : List UInt32 := [300, 5, 100000]
    let padded : List UInt8 := [217, 254, 255, 255, 242, 44, 1, 155, 134, 1, 0, 99]
    let wide : List UInt8 :=
      [217, 254, 255, 255, 63, 44, 1, 0, 0, 217, 254, 255, 255, 155, 134, 1, 0]
    let outcome := (encodeInto words (List.replicate 17 170)).value
    words ≠ [] ∧ outcome.result = .ok 11 ∧ Delta.mode words = some (-295) ∧
      (decodeInto padded [7, 7, 7]).result = .ok 3 ∧
      (decodeInto padded [7, 7, 7]).buffer = words ∧
      (decodeInto wide [7, 7, 7]).result = .ok 3 ∧ (decodeInto wide [7, 7, 7]).buffer = words ∧
      SameButPadding 3 (padded.take 11) (outcome.buffer.take 11) ∧
      ∃ given own, summarize wide 3 = .ok given ∧ summarize (outcome.buffer.take 11) 3 = .ok own ∧
        given.tagCounts.count .common ≤ own.tagCounts.count .common ∧ 11 ≤ given.totalSize := by
  intro words padded wide outcome
  have hw : words ≠ [] := by decide
  have hslice : ([7, 7, 7] : List UInt32).length = words.length := rfl
  have hwritten : outcome.result = .ok 11 := by decide +kernel
  have hmode : Delta.mode words = some (-295) := by decide +kernel
  have hpadded : (decodeInto padded [7, 7, 7]).result = .ok 3 := by decide +kernel
  have hpaddedWords : (decodeInto padded [7, 7, 7]).buffer = words := by decide +kernel
  have hwide : (decodeInto wide [7, 7, 7]).result = .ok 3 := by decide +kernel
  have hwideWords : (decodeInto wide [7, 7, 7]).buffer = words := by decide +kernel
  obtain ⟨given, -, hgiven, -, -, hbest⟩ :=
    encodeInto_canonical hw hslice hpadded hpaddedWords hwritten
  have hsummary : summarize padded 3 = .ok ⟨3, -295, ⟨1, 0, 1, 1⟩, 1, 6, 11⟩ := by decide +kernel
  obtain rfl := Except.ok.inj (hsummary.symm.trans hgiven)
  obtain ⟨other, own, hother, hown, hcount, hshort⟩ :=
    encodeInto_canonical hw hslice hwide hwideWords hwritten
  have hsummary : summarize wide 3 = .ok ⟨3, -295, ⟨0, 0, 0, 3⟩, 1, 12, 17⟩ := by decide +kernel
  obtain rfl := Except.ok.inj (hsummary.symm.trans hother)
  exact ⟨hw, hwritten, hmode, hpadded, hpaddedWords, hwide, hwideWords, (hbest hmode).2 rfl, _, own,
    hother, hown, hcount, (hshort hmode).1⟩

end DeltaPack.Precoded
