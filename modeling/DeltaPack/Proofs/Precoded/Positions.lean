import DeltaPack.Proofs.Precoded.Walk
import DeltaPack.Proofs.Window

/-!
# Decoding by position

The words of a stream are rebuilt here the way a program in buffers does it. The tag of an
element is looked up in its byte of the tag region, the residuals are reached through a cursor,
a running total is kept, and the slice is filled place by place. Every access is checked:
`none` is an access out of range.

There is none, and the outcome is that of decoding (`decodeAt_eq`). A tag region that fits the
header has a byte for every element, and the cursor moves only over residuals that are there.
-/

namespace DeltaPack.Precoded

/-! ### Tags -/

/-- The tag of an element: two bits of its byte of the region. -/
def Tag.at? (region : List UInt8) (index : Nat) : Option Tag :=
  region[index / 4]?.map fun byte => ofBits (byte.toNat / 4 ^ (index % 4))

/-- The tags of a region, one after the other, are those of its bytes. -/
theorem Tag.getElem?_flatMap_unpackByte (region : List UInt8) (index : Nat) :
    (region.flatMap unpackByte)[index]? = Tag.at? region index := by
  induction region generalizing index with
  | nil => rfl
  | cons byte rest ih =>
    rw [List.flatMap_cons, Tag.at?]
    rcases Nat.lt_or_ge index 4 with hlt | hge
    · rw [List.getElem?_append_left (by rwa [length_unpackByte]), Nat.div_eq_of_lt hlt,
        Nat.mod_eq_of_lt hlt]
      match index, hlt with
      | 0, _ | 1, _ | 2, _ | 3, _ => simp [unpackByte]
    · have hdiv : index / 4 = (index - 4) / 4 + 1 := by omega
      have hmod : index % 4 = (index - 4) % 4 := by omega
      rw [List.getElem?_append_right (by rwa [length_unpackByte]), length_unpackByte, ih, Tag.at?,
        hdiv, hmod, List.getElem?_cons_succ]

theorem Tag.at?_eq_getElem?_unpack {region : List UInt8} {count index : Nat} (h : index < count) :
    Tag.at? region index = (unpack count region)[index]? := by
  rw [unpack, List.getElem?_take_of_lt h, getElem?_flatMap_unpackByte]

/-- **Every slot of a tag region**: the code of its element, or zero behind the last element. -/
theorem Tag.bits_pack (tags : List Tag) {i : Nat} (h : i < 4 * tagRegionSize tags.length) :
    ∃ byte, (pack tags)[i / 4]? = some byte ∧
      byte.toNat / 4 ^ (i % 4) % 4 = (tags[i]?.getD .common).code := by
  have hbyte : i / 4 < (pack tags).length := by
    rw [length_pack]
    omega
  have hslot : at? (pack tags) i = some (tags[i]?.getD .common) := by
    rw [← getElem?_flatMap_unpackByte, flatMap_unpackByte_pack]
    rcases Nat.lt_or_ge i tags.length with hlt | hge
    · rw [List.getElem?_append_left hlt, List.getElem?_eq_getElem hlt, Option.getD_some]
    · rw [List.getElem?_append_right hge, List.getElem?_eq_none hge,
        List.getElem?_replicate_of_lt (by omega), Option.getD_none]
  refine ⟨(pack tags)[i / 4], List.getElem?_eq_getElem hbyte, ?_⟩
  rw [at?, List.getElem?_eq_getElem hbyte, Option.map_some] at hslot
  rw [← code_ofBits, Option.some.inj hslot]

/-- A number is fixed by its digits, here to base four. -/
private theorem mod_pow_eq_of_digits {a b : Nat} {places : Nat}
    (h : ∀ j, j < places → a / 4 ^ j % 4 = b / 4 ^ j % 4) : a % 4 ^ places = b % 4 ^ places := by
  induction places with
  | zero => rw [Nat.pow_zero, Nat.mod_one, Nat.mod_one]
  | succ places ih =>
    rw [Nat.mod_pow_succ, Nat.mod_pow_succ, ih fun j hj => h j (Nat.lt_succ_of_lt hj),
      h places (Nat.lt_succ_self places)]

/-- Regions with the same tags have the same bytes, as far as their bits belong to elements. -/
theorem Tag.mod_eq_of_unpack_eq {first second : List UInt8} {count k places : Nat} {a b : UInt8}
    (h : unpack count first = unpack count second) (ha : first[k]? = some a)
    (hb : second[k]? = some b) (hplaces : places ≤ 4) (hcount : 4 * k + places ≤ count) :
    a.toNat % 4 ^ places = b.toNat % 4 ^ places := by
  refine mod_pow_eq_of_digits fun j hj => ?_
  have hdiv : (4 * k + j) / 4 = k := by omega
  have hmod : (4 * k + j) % 4 = j := by omega
  have htag : at? first (4 * k + j) = at? second (4 * k + j) := by
    have hlt : 4 * k + j < count := by omega
    rw [at?_eq_getElem?_unpack hlt, at?_eq_getElem?_unpack hlt, h]
  rw [at?, at?, hdiv, hmod, ha, hb, Option.map_some, Option.map_some] at htag
  rw [← code_ofBits, Option.some.inj htag, code_ofBits]

/-- A byte whose four slots all belong to elements is fixed by the tags. -/
theorem Tag.eq_of_unpack_eq {first second : List UInt8} {count k : Nat} {a b : UInt8}
    (h : unpack count first = unpack count second) (ha : first[k]? = some a)
    (hb : second[k]? = some b) (hcount : 4 * k + 4 ≤ count) : a = b := by
  have hmod := mod_eq_of_unpack_eq h ha hb (Nat.le_refl 4) hcount
  have halt : a.toNat < 4 ^ 4 := a.toNat_lt
  have hblt : b.toNat < 4 ^ 4 := b.toNat_lt
  rw [Nat.mod_eq_of_lt halt, Nat.mod_eq_of_lt hblt] at hmod
  exact UInt8.toNat_inj.1 hmod

/-! ### The slice -/

/-- Fills the rest of a slice, from an element on, with the residuals from the cursor on and
behind a running total. The second part of the outcome is the end of the first missing residual. -/
def fillAt (common : Int32) (region residuals : List UInt8) :
    (slots : List UInt32) → (index cursor : Nat) → (total : Int32) →
      Option (List UInt32 × Option Nat)
  | [], _, _, _ => some ([], none)
  | slot :: slots, index, cursor, total => do
    let tag ← Tag.at? region index
    let stop := cursor + tag.residualSize
    match window? residuals cursor stop with
    | none => some (slot :: slots, some stop)
    | some field => do
      let field ← window? field 0 tag.residualSize
      let total := total + tag.delta common field
      let (filled, missing) ← fillAt common region residuals slots (index + 1) stop total
      some (total.toUInt32 :: filled, missing)

/-- Decodes a stream into a slice, by position. -/
def decodeAt (stream : List UInt8) (slice : List UInt32) : Option (Filled UInt32) :=
  let count := slice.length
  if count = 0 then some (.wrote [] slice)
  else if stream.length < headerSize count then
    some (.refused (.truncatedStream (headerSize count) stream.length) slice)
  else do
    let field ← window? stream 0 commonSize
    let region ← window? stream commonSize (headerSize count)
    let residuals ← window? stream (headerSize count) stream.length
    let (filled, missing) ←
      fillAt (Int32.ofInt (LittleEndian.signed field)) region residuals slice 0 0 0
    match missing with
    | none => some ⟨.ok count, filled⟩
    | some stop => some (.refused (.truncatedStream (headerSize count + stop) stream.length) filled)

/-! ### No access out of range -/

/-- **The invariant of filling a slice**: the tags from the element on are those still to be
walked, and the residuals from the cursor on are those still to be read. -/
theorem fillAt_eq (common total : Int32) {region residuals : List UInt8} {tags : List Tag}
    {slots : List UInt32} {index cursor : Nat}
    (htags : ∀ i, i < tags.length → Tag.at? region (index + i) = tags[i]?)
    (hslots : slots.length = tags.length) (hcursor : cursor ≤ residuals.length) :
    fillAt common region residuals slots index cursor total =
      some (Filled.overlay (Delta.sumsAfter total
          (readFrom common tags (residuals.drop cursor) cursor []).deltas) slots,
        (readFrom common tags (residuals.drop cursor) cursor []).missing) := by
  induction tags generalizing slots index cursor total with
  | nil =>
    obtain rfl := List.eq_nil_of_length_eq_zero hslots
    rfl
  -- the slots are as many as the tags, so the induction may follow either
  | cons tag tags ih =>
    obtain ⟨slot, slots, rfl⟩ := List.exists_cons_of_length_eq_add_one hslots
    have htag : Tag.at? region index = some tag := htags 0 (Nat.succ_pos _)
    have hlength : ((residuals.drop cursor).take tag.residualSize).length =
        min tag.residualSize (residuals.length - cursor) := by
      rw [List.length_take, List.length_drop]
    rw [fillAt, htag, readFrom, hlength]
    simp only [Option.bind_eq_bind, Option.bind_some]
    rcases Nat.lt_or_ge residuals.length (cursor + tag.residualSize) with hshort | hroom
    · rw [window?_of_lt hshort, if_pos (by omega)]
      rfl
    · have hfield : ((residuals.drop cursor).take tag.residualSize).take tag.residualSize =
          (residuals.drop cursor).take tag.residualSize := by
        rw [List.take_take, Nat.min_self]
      rw [window?_of_le (Nat.le_add_right ..) hroom, Nat.add_sub_cancel_left, if_neg (by omega),
        readFrom_eq_append, List.drop_drop]
      -- the residual is as long as its tag says, so its bytes are there
      simp only
      rw [window?_zero (by omega), hfield, Option.bind_some,
        ih _ (fun i hi => ?_) (Nat.succ.inj hslots) hroom]
      · rfl
      · have hnext := htags (i + 1) (Nat.succ_lt_succ hi)
        rwa [List.getElem?_cons_succ, ← Nat.add_assoc, Nat.add_right_comm] at hnext

/-- **Decoding by position never leaves its buffers**, and comes to the same. -/
theorem decodeAt_eq (stream : List UInt8) (slice : List UInt32) :
    decodeAt stream slice = some (decodeInto stream slice) := by
  by_cases hs : slice = []
  · subst hs
    rfl
  have hcount : slice.length ≠ 0 := mt List.length_eq_zero_iff.1 hs
  rw [decodeAt, if_neg hcount]
  rcases Nat.lt_or_ge stream.length (headerSize slice.length) with hshort | hheader
  · rw [if_pos hshort, decodeInto, if_neg hcount, if_pos hshort]
  · have hstart : commonSize ≤ headerSize slice.length := Nat.le_add_right ..
    have hregion : headerSize slice.length - commonSize = tagRegionSize slice.length :=
      Nat.add_sub_cancel_left ..
    have hlength := length_tagsOf hheader
    have htags (i : Nat) (hi : i < (tagsOf slice.length stream).length) :
        Tag.at? ((stream.drop commonSize).take (tagRegionSize slice.length)) (0 + i) =
          (tagsOf slice.length stream)[i]? := by
      rw [hlength] at hi
      rw [Nat.zero_add, tagsOf, Tag.at?_eq_getElem?_unpack hi]
    have hfill := fillAt_eq (commonOf stream) 0 htags hlength.symm
      (Nat.zero_le (stream.drop (headerSize slice.length)).length)
    rw [List.drop_zero, ← Delta.sums_eq_sumsAfter] at hfill
    rw [if_neg (Nat.not_lt.2 hheader), window?_zero (Nat.le_trans hstart hheader),
      window?_of_le hstart hheader, window?_length hheader, hregion]
    simp only [Option.bind_eq_bind, Option.bind_some]
    rw [← commonOf, hfill, decodeInto_of_header hs hheader, ← read]
    simp only [Option.bind_some]
    rcases hmissing : (read slice.length stream).missing with _ | stop
    · have hall := (missing_read_eq_none_iff hheader).1 hmissing
      rw [Filled.wrote, Delta.length_sums, length_deltas_read hall]
    · rfl

end DeltaPack.Precoded
