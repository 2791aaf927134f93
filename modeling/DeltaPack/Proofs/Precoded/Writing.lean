import DeltaPack.Proofs.Precoded.Stream
import DeltaPack.Proofs.Window

/-!
# Encoding by position

The stream of some words is written here the way a program in buffers does it. The differences are
taken four at a time, one tag byte for each four. The tags of a four are put into the byte slot by
slot, and each residual is written behind a cursor that the next four go on with. Every access is
checked: `none` is an access out of range.

There is none, and the outcome is that of encoding (`encodeAt_eq`). The residuals behind the
cursor are those of the differences taken so far, and there is room for all of them.
-/

namespace DeltaPack.Precoded

/-! ### Slots -/

/-- A tag byte with more tags in the slots from one on. -/
def Tag.fillSlots : List Tag → (slot : Nat) → (byte : UInt8) → UInt8
  | [], _, byte => byte
  | tag :: tags, slot, byte =>
    fillSlots tags (slot + 1) (byte ||| (UInt8.ofNat tag.code <<< UInt8.ofNat (2 * slot)))

theorem Tag.fillSlots_four (a b c d : Tag) : fillSlots [a, b, c, d] 0 0 = packByte a b c d := by
  cases a <;> cases b <;> cases c <;> cases d <;> rfl

/-- Slots that are not filled are those of the common tag. -/
theorem Tag.fillSlots_append_replicate (tags : List Tag) (count slot : Nat) (byte : UInt8) :
    fillSlots (tags ++ List.replicate count .common) slot byte = fillSlots tags slot byte := by
  induction tags generalizing slot byte with
  | nil =>
    induction count generalizing slot with
    | zero => rfl
    | succ count ih =>
      have hzero : byte ||| (UInt8.ofNat (code .common) <<< UInt8.ofNat (2 * slot)) = byte := by
        simp [code]
      rw [List.replicate_succ, List.nil_append]
      exact (congrArg (fillSlots _ (slot + 1)) hzero).trans (ih _)
  | cons tag tags ih => exact ih _ _

/-- The tag region, byte by byte: each is filled from the next four tags. -/
theorem Tag.pack_eq_cons {tags : List Tag} (h : tags ≠ []) :
    pack tags = fillSlots (tags.take 4) 0 0 :: pack (tags.drop 4) := by
  match tags, h with
  | a :: b :: c :: d :: rest, _ => exact congrArg (· :: pack rest) (fillSlots_four a b c d).symm
  | [a, b, c], _ =>
    have hpad := fillSlots_append_replicate [a, b, c] 1 0 0
    exact congrArg (· :: []) ((fillSlots_four a b c .common).symm.trans hpad)
  | [a, b], _ =>
    have hpad := fillSlots_append_replicate [a, b] 2 0 0
    exact congrArg (· :: []) ((fillSlots_four a b .common .common).symm.trans hpad)
  | [a], _ =>
    have hpad := fillSlots_append_replicate [a] 3 0 0
    exact congrArg (· :: []) ((fillSlots_four a .common .common .common).symm.trans hpad)

/-! ### The loops -/

/-- Takes up to four differences: their tags are put into a byte from a slot on, and their
residuals are written behind the cursor. -/
def writeSlots (common : Int32) : (deltas : List Int32) → (slot : Nat) → (byte : UInt8) →
    (cursor : Nat) → (room : List UInt8) → Option (UInt8 × Nat × List UInt8)
  | [], _, byte, cursor, room => some (byte, cursor, room)
  | delta :: deltas, slot, byte, cursor, room => do
    let tag := Tag.classify common delta
    let stop := cursor + tag.residualSize
    let room ← fill? (LittleEndian.bytes tag.residualSize delta.toUInt32.toNat) cursor stop room
    writeSlots common deltas (slot + 1)
      (byte ||| (UInt8.ofNat tag.code <<< UInt8.ofNat (2 * slot))) stop room

/-- Replaces the bytes of a tag region one after the other, four differences for each. -/
def writeTags (common : Int32) : (region : List UInt8) → (deltas : List Int32) →
    (cursor : Nat) → (room : List UInt8) → Option (List UInt8 × Nat × List UInt8)
  | [], _, cursor, room => some ([], cursor, room)
  | _ :: region, deltas, cursor, room => do
    let (byte, cursor, room) ← writeSlots common (deltas.take 4) 0 0 cursor room
    let (region, cursor, room) ← writeTags common region (deltas.drop 4) cursor room
    some (byte :: region, cursor, room)

/-- Encodes words into a buffer, by position. -/
def encodeAt (words : List UInt32) (buffer : List UInt8) : Option (Filled UInt8) :=
  match Delta.mode words with
  | none => some (.wrote [] buffer)
  | some common =>
    let needed := maxSize words.length
    if buffer.length < needed then
      some (.refused (.bufferTooSmall needed buffer.length) buffer)
    else do
      let head ← window? buffer 0 commonSize
      let region ← window? buffer commonSize (headerSize words.length)
      let room ← window? buffer (headerSize words.length) buffer.length
      let head ← fill? (LittleEndian.bytes commonSize common.toUInt32.toNat) 0 commonSize head
      let (region, cursor, room) ← writeTags common region (Delta.differences words) 0 room
      some ⟨.ok (commonSize + region.length + cursor), head ++ (region ++ room)⟩

/-! ### No access out of range -/

theorem residuals_cons (common delta : Int32) (deltas : List Int32) :
    residuals common (delta :: deltas) = Tag.residual common delta ++ residuals common deltas := by
  rw [residuals, List.flatMap_cons, ← residuals]

theorem residuals_append (common : Int32) (first second : List Int32) :
    residuals common (first ++ second) = residuals common first ++ residuals common second := by
  rw [residuals, List.flatMap_append, ← residuals, ← residuals]

/-- Four differences, or fewer: the residuals go behind the cursor, one after the other. -/
theorem writeSlots_eq (common : Int32) {deltas : List Int32} (slot : Nat) (byte : UInt8)
    {cursor : Nat} {room : List UInt8}
    (h : cursor + (residuals common deltas).length ≤ room.length) :
    writeSlots common deltas slot byte cursor room =
      some (Tag.fillSlots (deltas.map (Tag.classify common)) slot byte,
        cursor + (residuals common deltas).length,
        writeAt (residuals common deltas) cursor room) := by
  induction deltas generalizing slot byte cursor room with
  | nil => rw [residuals, List.flatMap_nil, writeAt_nil]; rfl
  | cons delta deltas ih =>
    have hsize := Tag.length_residual common delta
    rw [residuals_cons, List.length_append] at h ⊢
    rw [writeSlots, ← Tag.residual, fill?_of_le (by omega) (by omega)]
    simp only [Option.bind_eq_bind, Option.bind_some]
    rw [← hsize, ih _ _ (by rw [length_writeAt (by omega)]; omega),
      writeAt_writeAt (by omega), Nat.add_assoc]
    rfl

/-- **The invariant of the loop over the tag bytes**: the differences left are those of the tag
bytes left. -/
theorem writeTags_eq (common : Int32) {region : List UInt8} {deltas : List Int32} {cursor : Nat}
    {room : List UInt8} (hregion : region.length = tagRegionSize deltas.length)
    (h : cursor + (residuals common deltas).length ≤ room.length) :
    writeTags common region deltas cursor room =
      some (Tag.pack (deltas.map (Tag.classify common)),
        cursor + (residuals common deltas).length,
        writeAt (residuals common deltas) cursor room) := by
  induction region generalizing deltas cursor room with
  | nil =>
    obtain rfl : deltas = [] := by
      rw [List.length_nil, tagRegionSize] at hregion
      exact List.eq_nil_of_length_eq_zero (by omega)
    rw [residuals, List.flatMap_nil, writeAt_nil]
    rfl
  | cons old region ih =>
    have hdeltas : deltas ≠ [] := by
      rintro rfl
      cases hregion
    have htags : deltas.map (Tag.classify common) ≠ [] := mt List.map_eq_nil_iff.1 hdeltas
    have hsplit : residuals common deltas =
        residuals common (deltas.take 4) ++ residuals common (deltas.drop 4) := by
      rw [← residuals_append, List.take_append_drop]
    have hrest : region.length = tagRegionSize (deltas.drop 4).length := by
      rw [List.length_cons, tagRegionSize] at hregion
      rw [List.length_drop, tagRegionSize]
      omega
    rw [hsplit, List.length_append] at h ⊢
    rw [writeTags, writeSlots_eq common 0 0 (by omega)]
    simp only [Option.bind_eq_bind, Option.bind_some]
    rw [ih hrest (by rw [length_writeAt (by omega)]; omega), writeAt_writeAt (by omega),
      Nat.add_assoc, Tag.pack_eq_cons htags, List.map_take, List.map_drop]
    rfl

/-- A buffer behind the stream that was written to its front, part by part. -/
theorem overlay_encodeAround (common : Int32) (deltas : List Int32) (buffer : List UInt8) :
    Filled.overlay (encodeAround common deltas) buffer =
      LittleEndian.bytes commonSize common.toUInt32.toNat ++
        (Tag.pack (deltas.map (Tag.classify common)) ++
          Filled.overlay (residuals common deltas) (buffer.drop (headerSize deltas.length))) := by
  rw [Filled.overlay, Filled.overlay, List.drop_drop, length_encodeAround, length_residuals,
    encodeAround, List.append_assoc, List.append_assoc]

/-- **Encoding by position never leaves its buffer**, and comes to the same. -/
theorem encodeAt_eq (words : List UInt32) (buffer : List UInt8) :
    encodeAt words buffer = some (encodeInto words buffer).value := by
  rw [encodeAt, encodeInto]
  rcases hmode : Delta.mode words with _ | common
  · rfl
  simp only
  rcases Nat.lt_or_ge buffer.length (maxSize words.length) with hshort | hfits
  · rw [if_pos hshort, if_pos hshort]
    rfl
  have hcount := Delta.length_differences words
  have hlength := length_encodeAround common (Delta.differences words)
  have hroom := length_encode_le words
  rw [← length_residuals, hcount] at hlength
  rw [encode, hmode] at hroom
  simp only at hroom
  have hsize : headerSize words.length = commonSize + tagRegionSize words.length := rfl
  have hhead : (buffer.take commonSize).length = commonSize := List.length_take_of_le (by omega)
  have hregion : ((buffer.drop commonSize).take (headerSize words.length - commonSize)).length =
      tagRegionSize (Delta.differences words).length := by
    rw [List.length_take, List.length_drop, hcount]
    omega
  have hspace : 0 + (residuals common (Delta.differences words)).length ≤
      (buffer.drop (headerSize words.length)).length := by
    rw [List.length_drop]
    omega
  have hbytes := hhead.trans (LittleEndian.length_bytes commonSize common.toUInt32.toNat).symm
  rw [if_neg (Nat.not_lt.2 hfits), if_neg (Nat.not_lt.2 hfits), window?_zero (by omega),
    window?_of_le (by omega) (by omega), window?_length (by omega)]
  simp only [Option.bind_eq_bind, Option.bind_some]
  rw [fill?_of_le (by omega) (by omega), Option.bind_some, writeTags_eq common hregion hspace,
    Option.bind_some]
  -- what was written part by part is the stream, in front of what is left of the buffer
  simp only [Traced.value_bind, Traced.value_pure, Filled.wrote]
  rw [overlay_encodeAround, hlength, Tag.length_pack, List.length_map, writeAt_zero, writeAt_zero,
    Filled.overlay_of_length_eq hbytes, hcount, Nat.zero_add, hsize]

end DeltaPack.Precoded
