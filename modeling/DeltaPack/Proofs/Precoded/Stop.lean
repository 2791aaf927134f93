import DeltaPack.Proofs.Precoded.Positions

/-!
# Where decoding stops

A stream is validated while its words are written, so a refusal may find the slice half written.
What it finds is fixed by the stream alone. Where each residual ends can be read off the tags
(`residualEnd`), and decoding stops at the first element whose residual ends behind the stream.

* **The words before it are final.** They are those of every longer stream, since neither the tags
  nor the residuals they were read from change when bytes are added
  (`take_buffer_decodeInto_append`).
* **The places from it on are untouched** (`drop_buffer_decodeInto`).
* **The size demanded is that of the stream up to the missing residual**, which may be less than the
  whole stream takes (`exists_of_decodeInto_error`).

A stream that is decoded stays decoded, to the same words, whatever follows it
(`decodeInto_stops`).
-/

namespace DeltaPack.Precoded

variable {count : Nat} {stream : List UInt8}

/-! ### Residuals by position -/

/-- The tag of the element at a place, from its two bits of the stream. -/
def tagAt (stream : List UInt8) (i : Nat) : Tag :=
  Tag.ofBits ((stream.getD (4 + i / 4) 0).toNat / 4 ^ (i % 4))

/-- Where the residual of the element at a place **ends**: behind the common difference, the tags of
all elements and the residuals of the elements up to this one. -/
def residualEnd (count : Nat) (stream : List UInt8) (i : Nat) : Nat :=
  4 + (count + 3) / 4 + ((List.range (i + 1)).map fun j => (tagAt stream j).residualSize).sum

/-- The tags of a stream, one by one. -/
theorem tagsOf_eq_map (h : headerSize count ≤ stream.length) :
    tagsOf count stream = (List.range count).map (tagAt stream) := by
  refine List.ext_getElem? fun i => ?_
  rcases Nat.lt_or_ge i count with hlt | hge
  · have hbyte : i / 4 < tagRegionSize count := by
      rw [tagRegionSize]
      omega
    have hstream : 4 + i / 4 < stream.length := by
      rw [headerSize, commonSize] at h
      omega
    rw [tagsOf, ← Tag.at?_eq_getElem?_unpack hlt, Tag.at?, List.getElem?_take_of_lt hbyte,
      List.getElem?_drop, commonSize, List.getElem?_map, List.getElem?_range hlt, Option.map_some,
      tagAt, List.getD_eq_getElem?_getD, List.getElem?_eq_getElem hstream, Option.map_some,
      Option.getD_some]
  · rw [List.getElem?_eq_none (by rwa [length_tagsOf h]), List.getElem?_eq_none (by simpa using hge)]

theorem residualEnd_eq (h : headerSize count ≤ stream.length) {i : Nat} (hi : i < count) :
    residualEnd count stream i =
      headerSize count + Tag.demand ((tagsOf count stream).take (i + 1)) := by
  rw [tagsOf_eq_map h, ← List.map_take, List.take_range, Nat.min_eq_left hi, Tag.demand,
    List.map_map]
  rfl

section Split

variable {before after : List Tag} {tag : Tag} (h : headerSize count ≤ stream.length)
  (htags : tagsOf count stream = before ++ tag :: after)

include h htags

theorem length_lt_of_tagsOf_eq : before.length < count := by
  rw [← length_tagsOf h, htags, List.length_append, List.length_cons]
  omega

/-- The residual of an element ends behind those of the elements before it and its own. -/
theorem residualEnd_length :
    residualEnd count stream before.length =
      headerSize count + (Tag.demand before + tag.residualSize) := by
  rw [residualEnd_eq h (length_lt_of_tagsOf_eq h htags), htags, List.take_append,
    List.take_of_length_le (Nat.le_succ _), Nat.add_sub_cancel_left, List.take_succ_cons,
    List.take_zero, Tag.demand_append, Tag.demand_cons, Tag.demand_nil, Nat.add_zero]

/-- The residuals of the elements before end before. -/
theorem residualEnd_le {j : Nat} (hj : j < before.length) :
    residualEnd count stream j ≤ headerSize count + Tag.demand before := by
  rw [residualEnd_eq h (Nat.lt_trans hj (length_lt_of_tagsOf_eq h htags)), htags,
    List.take_append_of_le_length hj]
  exact Nat.add_le_add_left (Tag.demand_take_le before (j + 1)) _

end Split

/-! ### Half-written slices -/

/-- There is a word for every tag whose residual is there. -/
theorem length_sums_readFrom {common : Int32} {tags : List Tag} {bytes : List UInt8}
    {position : Nat} (h : Tag.demand tags ≤ bytes.length) :
    (Delta.sums (readFrom common tags bytes position []).deltas).length = tags.length := by
  rw [Delta.length_sums, length_deltas_readFrom h, List.length_nil, Nat.zero_add]

section Slice

variable {slice : List UInt32} (hs : slice ≠ [])

include hs

/-- What the slice holds behind a complete header: the words that could be read, and then what it
held. -/
theorem buffer_decodeInto (h : headerSize slice.length ≤ stream.length) :
    (decodeInto stream slice).buffer =
      Filled.overlay (Delta.sums (read slice.length stream).deltas) slice := by
  rw [decodeInto_of_header hs h]
  rcases (read slice.length stream).missing with _ | stop <;> rfl

/-- The first words of a slice are fixed by the first tags and their residuals, whatever the slice
held and whatever follows these in the stream. -/
theorem take_buffer_decodeInto {before after : List Tag}
    (h : headerSize slice.length ≤ stream.length)
    (htags : tagsOf slice.length stream = before ++ after)
    (hdemand : Tag.demand before ≤ (stream.drop (headerSize slice.length)).length) :
    (decodeInto stream slice).buffer.take before.length =
      Delta.sums (readFrom (commonOf stream) before (stream.drop (headerSize slice.length)) 0
        []).deltas := by
  obtain ⟨more, hmore⟩ := Delta.isPrefix_sums_append
    (readFrom (commonOf stream) before (stream.drop (headerSize slice.length)) 0 []).deltas
    (readFrom (commonOf stream) after
      ((stream.drop (headerSize slice.length)).drop (Tag.demand before))
      (0 + Tag.demand before) []).deltas
  rw [buffer_decodeInto hs h, read, htags, deltas_readFrom_append hdemand, ← hmore, Filled.overlay,
    List.append_assoc]
  exact List.take_left' (length_sums_readFrom hdemand)

/-- Behind the words that could be read, the slice is what it was. -/
theorem drop_buffer_decodeInto {before after : List Tag} {tag : Tag}
    (h : headerSize slice.length ≤ stream.length)
    (htags : tagsOf slice.length stream = before ++ tag :: after)
    (hle : headerSize slice.length + Tag.demand before ≤ stream.length)
    (hlt : stream.length < headerSize slice.length + (Tag.demand before + tag.residualSize)) :
    (decodeInto stream slice).buffer.drop before.length = slice.drop before.length := by
  have hdemand : Tag.demand before ≤ (stream.drop (headerSize slice.length)).length := by
    rw [List.length_drop]
    omega
  have hshort : (((stream.drop (headerSize slice.length)).drop (Tag.demand before)).take
      tag.residualSize).length < tag.residualSize := by
    rw [List.length_take, List.length_drop, List.length_drop]
    omega
  -- the walk ends at the missing residual
  rw [buffer_decodeInto hs h, read, htags, deltas_readFrom_append hdemand, readFrom, if_pos hshort,
    List.reverse_nil, List.append_nil, Filled.overlay, length_sums_readFrom hdemand]
  exact List.drop_left' (length_sums_readFrom hdemand)

/-- **Words whose residuals are there are final**: they are the first words of every longer
stream. -/
theorem take_buffer_decodeInto_append {before after : List Tag}
    (h : headerSize slice.length ≤ stream.length)
    (htags : tagsOf slice.length stream = before ++ after)
    (hle : headerSize slice.length + Tag.demand before ≤ stream.length)
    (rest : List UInt8) {other : List UInt32} (hother : other.length = slice.length) :
    (decodeInto (stream ++ rest) other).buffer.take before.length =
      (decodeInto stream slice).buffer.take before.length := by
  have hne : other ≠ [] := ne_nil_of_length_eq hs hother
  have hcommon : commonOf (stream ++ rest) = commonOf stream :=
    commonOf_append (Nat.le_trans (Nat.le_add_right ..) h) rest
  have hbody : Tag.demand before ≤ (stream.drop (headerSize slice.length)).length := by
    rw [List.length_drop]
    omega
  rw [take_buffer_decodeInto hs h htags hbody]
  rw [← hother] at h htags hbody ⊢
  -- neither the header nor the residuals that were read change
  have hdrop : (stream ++ rest).drop (headerSize other.length) =
      stream.drop (headerSize other.length) ++ rest := List.drop_append_of_le_length h
  have hlonger : Tag.demand before ≤ ((stream ++ rest).drop (headerSize other.length)).length := by
    rw [hdrop, List.length_append]
    exact Nat.le_add_right_of_le hbody
  rw [take_buffer_decodeInto hne
    (Nat.le_trans h (by rw [List.length_append]; exact Nat.le_add_right ..))
    ((tagsOf_append h rest).trans htags) hlonger, hcommon, hdrop, readFrom_append hbody]

/-- **A refusal behind a complete header** comes from the first element whose residual ends behind
the stream. -/
theorem exists_of_decodeInto_error (h : headerSize slice.length ≤ stream.length)
    {reason : PackError} (hreason : (decodeInto stream slice).result = .error reason) :
    ∃ before tag after, tagsOf slice.length stream = before ++ tag :: after ∧
      headerSize slice.length + Tag.demand before ≤ stream.length ∧
      stream.length < headerSize slice.length + (Tag.demand before + tag.residualSize) ∧
      reason = .truncatedStream
        (headerSize slice.length + (Tag.demand before + tag.residualSize)) stream.length := by
  rw [decodeInto_of_header hs h] at hreason
  rcases hmissing : (read slice.length stream).missing with _ | stop
  · rw [hmissing] at hreason
    cases hreason
  rw [hmissing] at hreason
  obtain ⟨before, tag, after, htags, hle, hlt, rfl⟩ := exists_of_missing_readFrom hmissing
  rw [List.length_drop] at hle hlt
  refine ⟨before, tag, after, htags, by omega, by omega, ?_⟩
  rw [← Except.error.inj hreason, Nat.zero_add]

/-- What is decoded from a stream of its stated size, or longer, in every slice of as many
places. -/
theorem decodeInto_append_of_statedSize_le (h : statedSize slice.length stream ≤ stream.length)
    (rest : List UInt8) {other : List UInt32} (hother : other.length = slice.length) :
    decodeInto (stream ++ rest) other =
      ⟨.ok slice.length, Delta.sums (read slice.length stream).deltas⟩ := by
  have hne : other ≠ [] := ne_nil_of_length_eq hs hother
  have hlength : (Delta.sums (read slice.length stream).deltas).length = slice.length := by
    rw [Delta.length_sums, length_deltas_read h]
  rw [← hother] at h hlength ⊢
  rw [decodeInto_append hne h, decodeInto_of_statedSize_le hne h, Filled.wrote,
    Filled.overlay_of_length_eq hlength.symm, hlength]

end Slice

/-! ### All outcomes -/

/-- **A failing decoding stops at the first missing residual and exposes final words only.** This is
about every stream and every slice with a place, and decoding place by place comes to the same. If
the header is cut, its size is demanded and the slice is left alone. Behind a complete header, a
refusal comes from the least element whose residual ends behind the stream, and demands the stream
up to there. The places from this element on are untouched; the words before it are written, and
they are the first words of every longer stream, decoded or refused, in every slice of as many
places. A stream that is decoded gives the same words whatever follows it. -/
theorem decodeInto_stops {slice : List UInt32} (hs : slice ≠ []) (stream : List UInt8) :
    let outcome := decodeInto stream slice
    let header := 4 + (slice.length + 3) / 4
    decodeAt stream slice = some outcome ∧
      (stream.length < header →
        outcome.result = .error (.truncatedStream header stream.length) ∧ outcome.buffer = slice) ∧
      (header ≤ stream.length → ∀ reason, outcome.result = .error reason →
        ∃ k, k < slice.length ∧ stream.length < residualEnd slice.length stream k ∧
          (∀ j < k, residualEnd slice.length stream j ≤ stream.length) ∧
          reason = .truncatedStream (residualEnd slice.length stream k) stream.length ∧
          outcome.buffer.drop k = slice.drop k ∧
          ∀ (rest : List UInt8) (other : List UInt32), other.length = slice.length →
            (decodeInto (stream ++ rest) other).buffer.take k = outcome.buffer.take k) ∧
      ∀ n, outcome.result = .ok n → n = slice.length ∧
        ∀ (rest : List UInt8) (other : List UInt32), other.length = slice.length →
          (decodeInto (stream ++ rest) other).result = .ok n ∧
            (decodeInto (stream ++ rest) other).buffer = outcome.buffer := by
  intro outcome header
  refine ⟨decodeAt_eq stream slice, fun hcut => ?_, fun hheader reason hreason => ?_,
    fun n hn => ?_⟩
  · have hrefused : outcome = .refused (.truncatedStream header stream.length) slice :=
      (if_neg (mt List.length_eq_zero_iff.1 hs)).trans (if_pos hcut)
    rw [hrefused]
    exact ⟨rfl, rfl⟩
  · obtain ⟨before, tag, after, htags, hle, hlt, rfl⟩ :=
      exists_of_decodeInto_error hs hheader hreason
    have hend := residualEnd_length hheader htags
    refine ⟨before.length, length_lt_of_tagsOf_eq hheader htags, by rwa [hend], fun j hj => ?_,
      by rw [hend], drop_buffer_decodeInto hs hheader htags hle hlt, fun rest other hother => ?_⟩
    · exact Nat.le_trans (residualEnd_le hheader htags hj) hle
    · exact take_buffer_decodeInto_append hs hheader htags hle rest hother
  · rcases Nat.lt_or_ge stream.length (statedSize slice.length stream) with hlt | hge
    · obtain ⟨needed, hresult, -⟩ := decodeInto_of_lt_statedSize hs hlt
      exact absurd (hresult.symm.trans hn) (by simp)
    have hlonger (rest : List UInt8) (other : List UInt32) (hother : other.length = slice.length) :
        decodeInto (stream ++ rest) other =
          ⟨.ok slice.length, Delta.sums (read slice.length stream).deltas⟩ :=
      decodeInto_append_of_statedSize_le hs hge rest hother
    have houtcome : outcome = ⟨.ok slice.length, Delta.sums (read slice.length stream).deltas⟩ := by
      rw [← hlonger [] slice rfl, List.append_nil]
    rw [houtcome] at hn ⊢
    obtain rfl := Except.ok.inj hn
    refine ⟨rfl, fun rest other hother => ?_⟩
    rw [hlonger rest other hother]
    exact ⟨rfl, rfl⟩

/-- Five elements, of which the third lacks two of its four bytes and the others behind it need
none: cut there, cut in the header, and with the two bytes and one more. -/
theorem decodeInto_stops_five :
    let stream : List UInt8 := [1, 0, 0, 0, 49, 0, 7, 1, 2]
    let slice : List UInt32 := [9, 9, 9, 9, 9]
    slice ≠ [] ∧ (decodeInto stream slice).result = .error (.truncatedStream 11 9) ∧
      (decodeInto stream slice).buffer.drop 2 = [9, 9, 9] ∧
      (decodeInto (stream ++ [0]) [3, 3, 3, 3, 3]).buffer.take 2 =
        (decodeInto stream slice).buffer.take 2 ∧
      (decodeInto [1, 0] slice).result = .error (.truncatedStream 6 2) ∧
      (decodeInto ((stream ++ [0, 0]) ++ [4]) slice).result = .ok 5 := by
  intro stream slice
  have hs : slice ≠ [] := by decide
  have hresult : (decodeInto [1, 0, 0, 0, 49, 0, 7, 1, 2] [9, 9, 9, 9, 9]).result =
      .error (.truncatedStream 11 9) := rfl
  have hwhole : (decodeInto [1, 0, 0, 0, 49, 0, 7, 1, 2, 0, 0] [9, 9, 9, 9, 9]).result = .ok 5 := rfl
  obtain ⟨-, -, hstop, -⟩ := decodeInto_stops hs stream
  have hsize : 4 + (slice.length + 3) / 4 = 6 := by decide
  obtain ⟨-, hcut, -⟩ := decodeInto_stops hs [1, 0]
  rw [hsize] at hcut
  obtain ⟨-, -, -, hkept⟩ := decodeInto_stops hs (stream ++ [0, 0])
  obtain ⟨k, -, hshort, hleast, -, hrest, hfinal⟩ := hstop (by decide) _ hresult
  have hk : k = 2 := by
    rcases Nat.lt_trichotomy k 2 with hlt | heq | hgt
    · have hfirst : k = 0 ∨ k = 1 := by omega
      rcases hfirst with rfl | rfl <;> exact absurd hshort (by decide)
    · exact heq
    · exact absurd (hleast 2 hgt) (by decide)
  subst hk
  exact ⟨hs, hresult, hrest, hfinal [0] [3, 3, 3, 3, 3] rfl, (hcut (by decide)).1,
    ((hkept 5 hwhole).2 [4] slice rfl).1⟩

end DeltaPack.Precoded
