import DeltaPack.Proofs.Precoded.Positions
import DeltaPack.Proofs.Precoded.Writing

/-!
# The form of a written stream

Where each byte of a written stream comes from is said here by position alone, without a walk: the
most frequent difference at the front, the tag of each element in two bits of its own, and its
residual at an offset that depends on the elements before it (`Format`).

The writer puts exactly that in front of the buffer and leaves the rest as it was, or leaves the
whole buffer as it was (`encodeInto_format`).
-/

namespace DeltaPack

/-- The difference at a place of a word list: the word there less the word before it, or less
zero at the front, as signed numbers that wrap. -/
def Delta.differenceAt (words : List UInt32) : Nat → Int32
  | 0 => (words.getD 0 0).toInt32 - 0
  | i + 1 => (words.getD (i + 1) 0).toInt32 - (words.getD i 0).toInt32

theorem Delta.differences_eq_map (words : List UInt32) :
    differences words = (List.range words.length).map (differenceAt words) := by
  refine List.ext_getElem (by simp) fun i hi _ => ?_
  rw [length_differences] at hi
  rw [List.getElem_map, List.getElem_range]
  cases i with
  | zero => simp [differences, differenceAt, List.getElem?_eq_getElem hi]
  | succ i => simp [differences, differenceAt, List.getElem?_eq_getElem hi,
      List.getElem?_eq_getElem (Nat.lt_of_succ_lt hi)]

namespace Precoded

/-- The bytes that the residual of the element at a place takes. -/
def sizeAt (common : Int32) (words : List UInt32) (i : Nat) : Nat :=
  (Tag.classify common (Delta.differenceAt words i)).residualSize

/-- Where the residual of the element at a place begins: behind the common difference, the tags
and the residuals of the elements before. -/
def offsetAt (common : Int32) (words : List UInt32) (i : Nat) : Nat :=
  4 + (words.length + 3) / 4 + ((List.range i).map (sizeAt common words)).sum

/-- The **form** of the stream of some words around a common difference, at the front of a buffer
and `size` bytes long. -/
structure Format (common : Int32) (words : List UInt32) (size : Nat) (buffer : List UInt8) :
    Prop where
  /-- The common difference stands in front. -/
  head : buffer.take 4 = LittleEndian.bytes 4 common.toUInt32.toNat
  /-- Each element has a two-bit slot with the code of its tag. -/
  slot : ∀ i, i < words.length → ∃ byte, buffer[4 + i / 4]? = some byte ∧
    byte.toNat / 4 ^ (i % 4) % 4 = (Tag.classify common (Delta.differenceAt words i)).code
  /-- The slots of the last tag byte that belong to no element are zero. -/
  padding : ∀ i, words.length ≤ i → i < 4 * ((words.length + 3) / 4) →
    ∃ byte, buffer[4 + i / 4]? = some byte ∧ byte.toNat / 4 ^ (i % 4) % 4 = 0
  /-- The residual of an element is the low bytes of its difference, as many as its tag names. -/
  residual : ∀ i, i < words.length →
    (buffer.drop (offsetAt common words i)).take (sizeAt common words i) =
      LittleEndian.bytes (sizeAt common words i) (Delta.differenceAt words i).toUInt32.toNat
  /-- The stream ends behind the last residual. -/
  size_eq : size = offsetAt common words words.length

/-! ### What the writer puts where -/

/-- The residuals of the elements before a place take the bytes up to it. -/
theorem demand_take_differences (common : Int32) {words : List UInt32} {i : Nat}
    (h : i ≤ words.length) :
    Tag.demand (((Delta.differences words).take i).map (Tag.classify common)) =
      ((List.range i).map (sizeAt common words)).sum := by
  rw [Delta.differences_eq_map, ← List.map_take, List.take_range, Nat.min_eq_left h, Tag.demand,
    List.map_map, List.map_map]
  rfl

/-- The residual of an element stands between those of the elements before it and behind it. -/
theorem residuals_differences_eq (common : Int32) {words : List UInt32} {i : Nat}
    (h : i < words.length) :
    residuals common (Delta.differences words) =
      residuals common ((Delta.differences words).take i) ++
        (Tag.residual common (Delta.differenceAt words i) ++
          residuals common ((Delta.differences words).drop (i + 1))) := by
  have hi : i < (Delta.differences words).length := by rwa [Delta.length_differences]
  have hdelta : (Delta.differences words)[i] = Delta.differenceAt words i := by
    simp only [Delta.differences_eq_map, List.getElem_map, List.getElem_range]
  rw [← hdelta, ← residuals_cons, ← residuals_append, ← List.drop_eq_getElem_cons hi,
    List.take_append_drop]

variable (common : Int32) (words : List UInt32) (buffer : List UInt8)

/-- The byte with the slot of an element, or with one of the slots behind the last element. -/
theorem slot_overlay_encodeAround {i : Nat} (h : i < 4 * ((words.length + 3) / 4)) :
    ∃ byte, (Filled.overlay (encodeAround common (Delta.differences words)) buffer)[4 + i / 4]? =
        some byte ∧
      byte.toNat / 4 ^ (i % 4) % 4 =
        (((Delta.differences words).map (Tag.classify common))[i]?.getD .common).code := by
  have hlength : ((Delta.differences words).map (Tag.classify common)).length = words.length := by
    rw [List.length_map, Delta.length_differences]
  obtain ⟨byte, hbyte, hbits⟩ :=
    Tag.bits_pack ((Delta.differences words).map (Tag.classify common)) (i := i)
      (by rwa [hlength, tagRegionSize])
  refine ⟨byte, ?_, hbits⟩
  have hregion : i / 4 < (Tag.pack ((Delta.differences words).map (Tag.classify common))).length :=
    (List.getElem?_eq_some_iff.1 hbyte).1
  have hhead : (LittleEndian.bytes commonSize common.toUInt32.toNat).length = 4 :=
    LittleEndian.length_bytes ..
  rw [overlay_encodeAround, List.getElem?_append_right (by omega), hhead, Nat.add_sub_cancel_left,
    List.getElem?_append_left hregion, hbyte]

/-- **A stream has its form** wherever it was written. -/
theorem format_overlay_encodeAround :
    Format common words (encodeAround common (Delta.differences words)).length
      (Filled.overlay (encodeAround common (Delta.differences words)) buffer) where
  head := by
    rw [overlay_encodeAround]
    exact List.take_left' (LittleEndian.length_bytes ..)
  slot := by
    intro i hi
    obtain ⟨byte, hbyte, hbits⟩ := slot_overlay_encodeAround common words buffer (i := i) (by omega)
    refine ⟨byte, hbyte, hbits.trans ?_⟩
    rw [Delta.differences_eq_map, List.map_map, List.getElem?_map, List.getElem?_range hi]
    rfl
  padding := by
    intro i hle hlt
    obtain ⟨byte, hbyte, hbits⟩ := slot_overlay_encodeAround common words buffer hlt
    refine ⟨byte, hbyte, hbits.trans ?_⟩
    rw [List.getElem?_eq_none (by simpa using hle)]
    rfl
  residual := by
    intro i hi
    have hheader : (LittleEndian.bytes commonSize common.toUInt32.toNat ++
        Tag.pack ((Delta.differences words).map (Tag.classify common))).length =
        4 + (words.length + 3) / 4 := by
      rw [List.length_append, LittleEndian.length_bytes, Tag.length_pack, List.length_map,
        Delta.length_differences]
      rfl
    rw [overlay_encodeAround, offsetAt, ← demand_take_differences common (Nat.le_of_lt hi),
      ← List.drop_drop, ← List.append_assoc, List.drop_left' hheader, Filled.overlay,
      residuals_differences_eq common hi, List.append_assoc, List.append_assoc,
      List.drop_left' (length_residuals ..)]
    exact List.take_left' (Tag.length_residual ..)
  size_eq := by
    rw [length_encodeAround, Delta.length_differences, offsetAt,
      ← demand_take_differences common (Nat.le_refl _), ← Delta.length_differences words,
      List.take_length, Delta.length_differences]
    rfl

/-! ### What the writer leaves alone -/

/-- **The writer writes the stream and nothing else.** Writing by position, where every access is
checked, comes to the same. For words that are not empty, and a buffer with room for the largest
stream of so many, the front of the buffer has the form of the stream around the most frequent
difference, and every byte behind it is what it was. No words leave the buffer alone and take no
bytes. A buffer is refused exactly if there are words and it is too short, and it is left alone
then; there is no other error. -/
theorem encodeInto_format (words : List UInt32) (buffer : List UInt8) :
    encodeAt words buffer = some (encodeInto words buffer).value ∧
      let outcome := (encodeInto words buffer).value
      (words ≠ [] → maxSize words.length ≤ buffer.length →
          ∃ common size, Delta.mode words = some common ∧ outcome.result = .ok size ∧
            Format common words size outcome.buffer ∧ outcome.buffer.length = buffer.length ∧
            ∀ i, size ≤ i → outcome.buffer[i]? = buffer[i]?) ∧
        (words = [] → outcome.result = .ok 0 ∧ outcome.buffer = buffer) ∧
        ((∃ needed actual, outcome.result = .error (.bufferTooSmall needed actual)) ↔
          words ≠ [] ∧ buffer.length < maxSize words.length) ∧
        ∀ reason, outcome.result = .error reason →
          reason = .bufferTooSmall (maxSize words.length) buffer.length ∧
            outcome.buffer = buffer := by
  refine ⟨encodeAt_eq words buffer, ?_⟩
  intro outcome
  obtain ⟨hw, heq⟩ | ⟨hw, hshort, heq⟩ | ⟨hw, hroom, heq⟩ := encodeInto_cases words buffer
  -- no words
  · have houtcome : outcome = .wrote [] buffer := heq
    rw [houtcome]
    refine ⟨fun h => absurd hw h, fun _ => ⟨rfl, rfl⟩, iff_of_false ?_ ?_, nofun⟩
    · rintro ⟨needed, actual, ⟨⟩⟩
    · rintro ⟨h, -⟩
      exact h hw
  -- words, and a buffer that is too short
  · have houtcome : outcome =
        .refused (.bufferTooSmall (maxSize words.length) buffer.length) buffer := heq
    rw [houtcome]
    refine ⟨fun _ hroom => absurd hshort (Nat.not_lt.2 hroom), fun h => absurd h hw,
      iff_of_true ⟨_, _, rfl⟩ ⟨hw, hshort⟩, fun reason hreason => ?_⟩
    exact ⟨(Except.error.inj hreason).symm, rfl⟩
  -- words, and room for the largest stream of so many
  · obtain ⟨common, hmode, hstream⟩ := exists_encode_eq hw
    have hfits := Nat.le_trans (length_encode_le words) hroom
    have houtcome : outcome = .wrote (encode words) buffer := heq
    rw [houtcome, hstream]
    rw [hstream] at hfits
    refine ⟨fun _ _ => ⟨common, _, hmode, rfl, format_overlay_encodeAround common words buffer,
      Filled.length_overlay hfits, fun i hi => Filled.getElem?_overlay hi⟩,
      fun h => absurd h hw, iff_of_false ?_ ?_, nofun⟩
    · rintro ⟨needed, actual, ⟨⟩⟩
    · rintro ⟨-, hshort⟩
      exact Nat.not_lt.2 hroom hshort

/-- Three words, whose last tag byte has a slot to spare, in a longer buffer and in one that is a
byte too short. -/
theorem encodeInto_format_three :
    let words : List UInt32 := [300, 5, 100000]
    let outcome := (encodeInto words (List.replicate 20 170)).value
    words ≠ [] ∧ maxSize 3 = 17 ∧
      (∃ common size, Delta.mode words = some common ∧ outcome.result = .ok size ∧
        Format common words size outcome.buffer ∧ outcome.buffer.length = 20 ∧
        ∀ i, size ≤ i → outcome.buffer[i]? = (List.replicate 20 (170 : UInt8))[i]?) ∧
      (encodeInto [] [170, 170]).value.buffer = [170, 170] ∧
      (∃ needed actual, (encodeInto words (List.replicate 16 170)).value.result =
        .error (.bufferTooSmall needed actual)) ∧
      encodeAt words (List.replicate 20 170) = some outcome := by
  intro words outcome
  have hw : words ≠ [] := by decide
  obtain ⟨hat, hwritten, -⟩ := encodeInto_format words (List.replicate 20 170)
  obtain ⟨-, -, hempty, -⟩ := encodeInto_format [] [170, 170]
  obtain ⟨-, -, -, hshort, -⟩ := encodeInto_format words (List.replicate 16 170)
  exact ⟨hw, by decide, hwritten hw (by decide), (hempty rfl).2, hshort.2 ⟨hw, by decide⟩, hat⟩

end Precoded

end DeltaPack
