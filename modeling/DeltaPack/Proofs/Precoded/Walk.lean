import DeltaPack.Precoded.Decode
import DeltaPack.Proofs.Precoded.Tag

/-!
# Reading any stream

A stream of a known number of elements says in its tags how long it is: `statedSize` is the size of
the header and the residual bytes that its tags ask for. Whatever its bytes are, this size alone
decides what becomes of a stream.

* If the stream is at least as long, it is decoded, and bytes behind the stated size are ignored
  (`decodeInto_of_statedSize_le`, `decodeInto_append`).
* If it is shorter, it is refused as truncated. The size that the refusal demands is larger than
  the stream and at most the stated size: the header, if that is cut, or the end of the first
  missing residual (`decodeInto_of_lt_statedSize`).
-/

namespace DeltaPack.Precoded

variable {count : Nat} {stream : List UInt8}

/-! ### The header -/

theorem commonOf_append (h : commonSize ≤ stream.length) (rest : List UInt8) :
    commonOf (stream ++ rest) = commonOf stream := by
  rw [commonOf, commonOf, List.take_append_of_le_length h]

/-- The tags stand in the header. -/
theorem tagsOf_append (h : headerSize count ≤ stream.length) (rest : List UInt8) :
    tagsOf count (stream ++ rest) = tagsOf count stream := by
  rw [headerSize] at h
  have hdrop : tagRegionSize count ≤ (stream.drop commonSize).length := by
    rw [List.length_drop]
    omega
  rw [tagsOf, tagsOf, List.drop_append_of_le_length (by omega),
    List.take_append_of_le_length hdrop]

theorem length_tagsOf (h : headerSize count ≤ stream.length) :
    (tagsOf count stream).length = count := by
  rw [headerSize] at h
  refine Tag.length_unpack ?_
  rw [List.length_take, List.length_drop]
  omega

/-- The size of a stream of `count` elements **as its own tags state it**. -/
def statedSize (count : Nat) (stream : List UInt8) : Nat :=
  headerSize count + Tag.demand (tagsOf count stream)

theorem headerSize_le_statedSize (count : Nat) (stream : List UInt8) :
    headerSize count ≤ statedSize count stream := Nat.le_add_right ..

theorem statedSize_append (h : headerSize count ≤ stream.length) (rest : List UInt8) :
    statedSize count (stream ++ rest) = statedSize count stream := by
  rw [statedSize, statedSize, tagsOf_append h]

/-! ### The walk over the tags -/

section Walk

variable {common : Int32} {tags : List Tag} {bytes : List UInt8} {position : Nat}
  {done : List Int32}

/-- Differences that were read before stand in front. -/
theorem readFrom_eq_append (common : Int32) (tags : List Tag) (bytes : List UInt8)
    (position : Nat) (done : List Int32) :
    readFrom common tags bytes position done =
      ⟨done.reverse ++ (readFrom common tags bytes position []).deltas,
        (readFrom common tags bytes position []).missing⟩ := by
  induction tags generalizing bytes position done with
  | nil => simp [readFrom]
  | cons tag tags ih =>
    rw [readFrom, readFrom]
    split_ifs with hshort
    · simp
    · rw [ih, ih _ _ [_]]
      simp

/-- **A walk misses a residual exactly if the tags ask for more bytes than there are.** -/
theorem missing_readFrom_eq_none_iff (common : Int32) (tags : List Tag) (bytes : List UInt8)
    (position : Nat) (done : List Int32) :
    (readFrom common tags bytes position done).missing = none ↔
      Tag.demand tags ≤ bytes.length := by
  induction tags generalizing bytes position done with
  | nil => simp [readFrom]
  | cons tag tags ih =>
    rw [readFrom, Tag.demand_cons]
    by_cases h : (bytes.take tag.residualSize).length < tag.residualSize
    · rw [List.length_take] at h
      rw [if_pos (by rwa [List.length_take])]
      simp only [reduceCtorEq, false_iff]
      omega
    · rw [if_neg h, ih, List.length_drop]
      rw [List.length_take] at h
      omega

/-- **A walk that misses a residual** stops at the first tag that asks for more bytes than are left
behind the residuals of the tags before it. -/
theorem exists_of_missing_readFrom {stop : Nat}
    (h : (readFrom common tags bytes position done).missing = some stop) :
    ∃ before tag after, tags = before ++ tag :: after ∧ Tag.demand before ≤ bytes.length ∧
      bytes.length < Tag.demand before + tag.residualSize ∧
      stop = position + (Tag.demand before + tag.residualSize) := by
  induction tags generalizing bytes position done with
  | nil => simp [readFrom] at h
  | cons tag tags ih =>
    rw [readFrom] at h
    split_ifs at h with hshort
    · rw [List.length_take] at hshort
      refine ⟨[], tag, tags, rfl, Nat.zero_le _, ?_, ?_⟩
      · rw [Tag.demand_nil]
        omega
      · rw [Tag.demand_nil, Nat.zero_add]
        exact (Option.some.inj h).symm
    · rw [List.length_take] at hshort
      obtain ⟨before, next, after, rfl, hle, hlt, rfl⟩ := ih h
      rw [List.length_drop] at hle hlt
      refine ⟨tag :: before, next, after, rfl, ?_, ?_, ?_⟩ <;> rw [Tag.demand_cons] <;> omega

/-- The first missing residual ends behind the bytes there are, and not behind the last one. -/
theorem bounds_of_missing_readFrom {stop : Nat}
    (h : (readFrom common tags bytes position done).missing = some stop) :
    position + bytes.length < stop ∧ stop ≤ position + Tag.demand tags := by
  obtain ⟨before, tag, after, rfl, -, hlt, rfl⟩ := exists_of_missing_readFrom h
  rw [Tag.demand_append, Tag.demand_cons]
  omega

/-- A walk over some tags whose residuals are all there, and then over others, reads the first ones
and goes on behind their residuals. -/
theorem deltas_readFrom_append {before : List Tag} (h : Tag.demand before ≤ bytes.length)
    (after : List Tag) :
    (readFrom common (before ++ after) bytes position []).deltas =
      (readFrom common before bytes position []).deltas ++
        (readFrom common after (bytes.drop (Tag.demand before)) (position + Tag.demand before)
          []).deltas := by
  induction before generalizing bytes position with
  | nil => rfl
  | cons tag before ih =>
    rw [Tag.demand_cons] at h
    have hfield : ¬(bytes.take tag.residualSize).length < tag.residualSize := by
      rw [List.length_take]
      omega
    rw [List.cons_append, readFrom, readFrom, if_neg hfield, if_neg hfield, readFrom_eq_append,
      readFrom_eq_append common before, ih (by rw [List.length_drop]; omega), List.drop_drop,
      Tag.demand_cons, Nat.add_assoc, List.append_assoc]

/-- A walk that misses nothing reads a difference for every tag. -/
theorem length_deltas_readFrom (h : Tag.demand tags ≤ bytes.length) :
    (readFrom common tags bytes position done).deltas.length = done.length + tags.length := by
  induction tags generalizing bytes position done with
  | nil => simp [readFrom]
  | cons tag tags ih =>
    rw [Tag.demand_cons] at h
    have hfield : ¬(bytes.take tag.residualSize).length < tag.residualSize := by
      rw [List.length_take]
      omega
    rw [readFrom, if_neg hfield, ih (by rw [List.length_drop]; omega), List.length_cons,
      List.length_cons]
    omega

/-- A walk that misses nothing does not look at the bytes behind. -/
theorem readFrom_append (h : Tag.demand tags ≤ bytes.length) (rest : List UInt8) :
    readFrom common tags (bytes ++ rest) position done =
      readFrom common tags bytes position done := by
  induction tags generalizing bytes position done with
  | nil => rw [readFrom, readFrom]
  | cons tag tags ih =>
    rw [Tag.demand_cons] at h
    have hfield : ¬(bytes.take tag.residualSize).length < tag.residualSize := by
      rw [List.length_take]
      omega
    rw [readFrom, readFrom, List.take_append_of_le_length (by omega),
      List.drop_append_of_le_length (by omega), if_neg hfield, if_neg hfield,
      ih (by rw [List.length_drop]; omega)]

end Walk

/-- No residual is missing exactly in streams of their stated size, or longer. -/
theorem missing_read_eq_none_iff (h : headerSize count ≤ stream.length) :
    (read count stream).missing = none ↔ statedSize count stream ≤ stream.length := by
  rw [read, missing_readFrom_eq_none_iff, List.length_drop, statedSize]
  omega

/-- A stream of its stated size, or longer, has a difference for every element. -/
theorem length_deltas_read (h : statedSize count stream ≤ stream.length) :
    (read count stream).deltas.length = count := by
  have hheader := Nat.le_trans (headerSize_le_statedSize count stream) h
  rw [statedSize] at h
  rw [read, length_deltas_readFrom (by rw [List.length_drop]; omega), length_tagsOf hheader]
  exact Nat.zero_add count

theorem read_append (h : statedSize count stream ≤ stream.length) (rest : List UInt8) :
    read count (stream ++ rest) = read count stream := by
  have hheader := Nat.le_trans (headerSize_le_statedSize count stream) h
  have hcommon : commonSize ≤ stream.length := Nat.le_trans (Nat.le_add_right ..) hheader
  rw [statedSize] at h
  rw [read, read, commonOf_append hcommon, tagsOf_append hheader,
    List.drop_append_of_le_length hheader, readFrom_append (by rw [List.length_drop]; omega)]

/-! ### Decoding -/

/-- Of words and places for as many, neither are empty if the others are not. -/
theorem ne_nil_of_length_eq {words slice : List UInt32} (hw : words ≠ [])
    (h : slice.length = words.length) : slice ≠ [] := by
  rintro rfl
  exact hw (List.eq_nil_of_length_eq_zero h.symm)

section Decode

variable {slice : List UInt32}

/-- Behind a complete header, the outcome is that of the walk. -/
theorem decodeInto_of_header (hs : slice ≠ []) (h : headerSize slice.length ≤ stream.length) :
    decodeInto stream slice =
      match (read slice.length stream).missing with
      | none => .wrote (Delta.sums (read slice.length stream).deltas) slice
      | some stop =>
        .refused (.truncatedStream (headerSize slice.length + stop) stream.length)
          (Filled.overlay (Delta.sums (read slice.length stream).deltas) slice) := by
  have hcount : slice.length ≠ 0 := mt List.length_eq_zero_iff.1 hs
  rw [decodeInto]
  exact (if_neg hcount).trans (if_neg (Nat.not_lt.2 h))

/-- **A stream of its stated size, or longer, is decoded.** -/
theorem decodeInto_of_statedSize_le (hs : slice ≠ [])
    (h : statedSize slice.length stream ≤ stream.length) :
    decodeInto stream slice = .wrote (Delta.sums (read slice.length stream).deltas) slice := by
  have hheader := Nat.le_trans (headerSize_le_statedSize slice.length stream) h
  rw [decodeInto_of_header hs hheader, (missing_read_eq_none_iff hheader).2 h]

/-- **A stream shorter than its stated size is refused as truncated.** More is demanded than
there is, and no more than is stated. -/
theorem decodeInto_of_lt_statedSize (hs : slice ≠ [])
    (h : stream.length < statedSize slice.length stream) :
    ∃ needed, (decodeInto stream slice).result = .error (.truncatedStream needed stream.length) ∧
      stream.length < needed ∧ needed ≤ statedSize slice.length stream ∧
      (stream.length < headerSize slice.length → needed = headerSize slice.length) := by
  rcases Nat.lt_or_ge stream.length (headerSize slice.length) with hheader | hheader
  · refine ⟨headerSize slice.length, ?_, hheader, headerSize_le_statedSize _ _, fun _ => rfl⟩
    rw [decodeInto, if_neg (mt List.length_eq_zero_iff.1 hs), if_pos hheader]
    rfl
  · rw [decodeInto_of_header hs hheader]
    rcases hmissing : (read slice.length stream).missing with _ | stop
    · exact absurd ((missing_read_eq_none_iff hheader).1 hmissing) (Nat.not_le.2 h)
    · obtain ⟨hlo, hhi⟩ := bounds_of_missing_readFrom hmissing
      rw [List.length_drop] at hlo
      rw [statedSize]
      exact ⟨headerSize slice.length + stop, rfl, by omega, by omega, by omega⟩

/-- The number of elements is reached exactly in streams of their stated size, or longer. -/
theorem decodeInto_result_eq_ok_iff (hs : slice ≠ []) :
    (decodeInto stream slice).result = .ok slice.length ↔
      statedSize slice.length stream ≤ stream.length := by
  rcases Nat.lt_or_ge stream.length (statedSize slice.length stream) with hlt | hge
  · obtain ⟨needed, hresult, -⟩ := decodeInto_of_lt_statedSize hs hlt
    rw [hresult]
    exact iff_of_false nofun (Nat.not_le.2 hlt)
  · have hlength : (Delta.sums (read slice.length stream).deltas).length = slice.length := by
      rw [Delta.length_sums, length_deltas_read hge]
    rw [decodeInto_of_statedSize_le hs hge]
    exact iff_of_true (congrArg Except.ok hlength) hge

/-- A decoding fills the slice or refuses the stream as truncated. -/
theorem decodeInto_result_cases (stream : List UInt8) (slice : List UInt32) :
    (decodeInto stream slice).result = .ok slice.length ∨
      ∃ needed, (decodeInto stream slice).result =
        .error (.truncatedStream needed stream.length) := by
  by_cases hs : slice = []
  · subst hs
    exact .inl rfl
  · rcases Nat.lt_or_ge stream.length (statedSize slice.length stream) with hlt | hge
    · obtain ⟨needed, hresult, -⟩ := decodeInto_of_lt_statedSize hs hlt
      exact .inr ⟨needed, hresult⟩
    · exact .inl ((decodeInto_result_eq_ok_iff hs).2 hge)

/-- Bytes behind the stated size are ignored. -/
theorem decodeInto_append (hs : slice ≠ [])
    (h : statedSize slice.length stream ≤ stream.length) (rest : List UInt8) :
    decodeInto (stream ++ rest) slice = decodeInto stream slice := by
  have hheader := Nat.le_trans (headerSize_le_statedSize slice.length stream) h
  have hlonger : statedSize slice.length (stream ++ rest) ≤ (stream ++ rest).length := by
    rw [statedSize_append hheader, List.length_append]
    omega
  rw [decodeInto_of_statedSize_le hs hlonger, decodeInto_of_statedSize_le hs h, read_append h]

/-- **A cut before the stated size is refused as truncated.** -/
theorem decodeInto_of_cut (hs : slice ≠ []) {cut : List UInt8} (hcut : cut <+: stream)
    (h : cut.length < statedSize slice.length stream) :
    ∃ needed, (decodeInto cut slice).result = .error (.truncatedStream needed cut.length) := by
  have hlt : cut.length < statedSize slice.length cut := by
    rcases Nat.lt_or_ge cut.length (headerSize slice.length) with hheader | hheader
    · exact Nat.lt_of_lt_of_le hheader (headerSize_le_statedSize _ _)
    -- a cut behind the header leaves the tags as they were
    · obtain ⟨rest, rfl⟩ := hcut
      rwa [statedSize_append hheader] at h
  obtain ⟨needed, hresult, -⟩ := decodeInto_of_lt_statedSize hs hlt
  exact ⟨needed, hresult⟩

end Decode

end DeltaPack.Precoded
