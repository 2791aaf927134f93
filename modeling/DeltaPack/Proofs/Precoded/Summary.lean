import DeltaPack.Precoded.Summary
import DeltaPack.Proofs.Precoded.Stream

/-!
# Inspection agrees with decoding

An inspection adds up the residuals of all tags before it looks at the length of the stream; a
decoder takes one residual after the other and stops at the first that is not there. They
accept the same streams, those that are at least of their stated size, since that is where either
of them compares the same sum (`summarize_of_statedSize_le`, `summarize_of_lt_statedSize`). On a
stream that is too short they differ in what they demand: the decoder may stop before the last
residual, so it never demands more.

A summary that was given says where the stream ends: the decoder reads no byte behind that, and
accepts no prefix that ends before it. The summary of a written stream gives back what its writer
chose (`summarize_agrees`).
-/

namespace DeltaPack.Precoded

/-! ### Counts -/

/-- Every tag is counted once. -/
theorem TagCounts.sum_ofTags (tags : List Tag) :
    (ofTags tags).count .common + (ofTags tags).count .one + (ofTags tags).count .two +
      (ofTags tags).count .four = tags.length := by
  simp only [count, ofTags]
  induction tags with
  | nil => rfl
  | cons tag tags ih =>
    cases tag <;> simp <;> omega

/-- The residual bytes of the counts are those that the tags ask for. -/
theorem TagCounts.residualBytes_ofTags (tags : List Tag) :
    (ofTags tags).residualBytes = Tag.demand tags := by
  simp only [residualBytes, ofTags, Tag.residualSize]
  induction tags with
  | nil => rfl
  | cons tag tags ih =>
    rw [Tag.demand_cons, ← ih]
    cases tag <;> simp [Tag.residualSize] <;> omega

/-! ### Inspection -/

variable {count : Nat} {stream : List UInt8} {slice : List UInt32}

/-- The summary of a stream of its stated size, or longer. -/
def Summary.ofStream (count : Nat) (stream : List UInt8) : Summary where
  count
  common := commonOf stream
  tagCounts := .ofTags (tagsOf count stream)
  tagBytes := tagRegionSize count
  residualBytes := Tag.demand (tagsOf count stream)
  totalSize := statedSize count stream

theorem summarize_of_header (hcount : count ≠ 0) (h : headerSize count ≤ stream.length) :
    summarize stream count =
      if stream.length < statedSize count stream then
        .error (.truncatedStream (statedSize count stream) stream.length)
      else .ok (.ofStream count stream) := by
  rw [summarize, if_neg hcount, if_neg (Nat.not_lt.2 h)]
  simp only [TagCounts.residualBytes_ofTags]
  rfl

theorem summarize_of_statedSize_le (hcount : count ≠ 0)
    (h : statedSize count stream ≤ stream.length) :
    summarize stream count = .ok (.ofStream count stream) := by
  have hheader := Nat.le_trans (headerSize_le_statedSize count stream) h
  rw [summarize_of_header hcount hheader, if_neg (Nat.not_lt.2 h)]

/-- An inspection demands the header if it is cut, otherwise the whole stream. -/
theorem summarize_of_lt_statedSize (hcount : count ≠ 0)
    (h : stream.length < statedSize count stream) :
    summarize stream count = .error (.truncatedStream
      (if stream.length < headerSize count then headerSize count else statedSize count stream)
      stream.length) := by
  rcases Nat.lt_or_ge stream.length (headerSize count) with hheader | hheader
  · rw [summarize, if_neg hcount, if_pos hheader, if_pos hheader]
  · rw [summarize_of_header hcount hheader, if_pos h, if_neg (Nat.not_lt.2 hheader)]

/-- Exactly the streams of their stated size, or longer, have a summary. -/
theorem exists_summarize_eq_ok_iff (hcount : count ≠ 0) :
    (∃ summary, summarize stream count = .ok summary) ↔
      statedSize count stream ≤ stream.length := by
  rcases Nat.lt_or_ge stream.length (statedSize count stream) with hlt | hge
  · rw [summarize_of_lt_statedSize hcount hlt]
    refine iff_of_false ?_ (Nat.not_le.2 hlt)
    rintro ⟨summary, hsummary⟩
    cases hsummary
  · rw [summarize_of_statedSize_le hcount hge]
    exact iff_of_true ⟨_, rfl⟩ hge

/-! ### Agreement -/

/-- **The same streams are accepted.** -/
theorem summarize_ok_iff_decodeInto_ok (stream : List UInt8) (slice : List UInt32) :
    (∃ summary, summarize stream slice.length = .ok summary) ↔
      (decodeInto stream slice).result = .ok slice.length := by
  by_cases hs : slice = []
  · subst hs
    exact iff_of_true ⟨Summary.empty, rfl⟩ rfl
  · rw [exists_summarize_eq_ok_iff (mt List.length_eq_zero_iff.1 hs),
      decodeInto_result_eq_ok_iff hs]

/-- **Both refusals are truncations**, and the decoder demands no more than the inspection. -/
theorem summarize_error_of {reason : PackError}
    (h : summarize stream slice.length = .error reason) :
    ∃ demanded needed, reason = .truncatedStream demanded stream.length ∧
      (decodeInto stream slice).result = .error (.truncatedStream needed stream.length) ∧
      stream.length < needed ∧ needed ≤ demanded ∧
      (stream.length < headerSize slice.length → needed = demanded) := by
  have hs : slice ≠ [] := by
    rintro rfl
    cases h
  have hcount : slice.length ≠ 0 := mt List.length_eq_zero_iff.1 hs
  have hlt : stream.length < statedSize slice.length stream := by
    refine Nat.lt_of_not_le fun hge => ?_
    rw [summarize_of_statedSize_le hcount hge] at h
    cases h
  obtain ⟨needed, hresult, hmore, hle, hheader⟩ := decodeInto_of_lt_statedSize hs hlt
  rw [summarize_of_lt_statedSize hcount hlt] at h
  refine ⟨_, needed, (Except.error.inj h).symm, hresult, hmore, ?_, fun hcut => ?_⟩
  · split_ifs with hcut
    · exact Nat.le_of_eq (hheader hcut)
    · exact hle
  · rw [if_pos hcut]
    exact hheader hcut

/-- **A summary says where the stream ends.** -/
theorem decodeInto_of_summarize (hs : slice ≠ []) {summary : Summary}
    (h : summarize stream slice.length = .ok summary) :
    summary = .ofStream slice.length stream ∧ summary.totalSize ≤ stream.length ∧
      decodeInto (stream.take summary.totalSize) slice = decodeInto stream slice ∧
      ∀ cut, cut <+: stream → cut.length < summary.totalSize →
        ∃ needed, (decodeInto cut slice).result = .error (.truncatedStream needed cut.length) := by
  have hcount : slice.length ≠ 0 := mt List.length_eq_zero_iff.1 hs
  have hge := (exists_summarize_eq_ok_iff hcount).1 ⟨summary, h⟩
  rw [summarize_of_statedSize_le hcount hge] at h
  obtain rfl := Except.ok.inj h
  refine ⟨rfl, hge, ?_, fun cut hcut hlt => decodeInto_of_cut hs hcut hlt⟩
  change decodeInto (stream.take (statedSize slice.length stream)) slice = _
  -- the front of the stream has the same header, and so the same stated size
  have hlength : (stream.take (statedSize slice.length stream)).length =
      statedSize slice.length stream := List.length_take_of_le hge
  have hsame : statedSize slice.length (stream.take (statedSize slice.length stream)) =
      statedSize slice.length stream := by
    rw [← statedSize_append (by rw [hlength]; exact headerSize_le_statedSize _ _)
      (stream.drop (statedSize slice.length stream)), List.take_append_drop]
  rw [← decodeInto_append hs (Nat.le_of_eq (hsame.trans hlength.symm))
    (stream.drop (statedSize slice.length stream)), List.take_append_drop]

/-- The summary of a written stream. -/
theorem summarize_encode (words : List UInt32) :
    ∃ summary, summarize (encode words) words.length = .ok summary ∧
      summary.totalSize = (encode words).length ∧
      (words ≠ [] → Delta.mode words = some summary.common) ∧
      summary.tagCounts.count .common = (Delta.differences words).count summary.common := by
  by_cases hw : words = []
  · subst hw
    exact ⟨Summary.empty, rfl, by rw [encode_nil]; rfl, fun h => absurd rfl h, rfl⟩
  · obtain ⟨common, hmode, hstream⟩ := exists_encode_eq hw
    have htags := tagsOf_encodeAround common (Delta.differences words)
    rw [Delta.length_differences, ← hstream] at htags
    have hcommon : commonOf (encode words) = common := by rw [hstream, commonOf_encodeAround]
    have hsize := statedSize_encode hw
    refine ⟨_, summarize_of_statedSize_le (mt List.length_eq_zero_iff.1 hw) (Nat.le_of_eq hsize),
      hsize, fun _ => ?_, ?_⟩
    · exact hmode.trans (congrArg some hcommon.symm)
    · change (tagsOf words.length (encode words)).count .common =
        (Delta.differences words).count (commonOf (encode words))
      rw [htags, hcommon, Tag.count_common_map_classify]

/-- **Inspection and decoding agree on every byte string**, for every number of elements. They
accept the same ones and refuse the others as truncated, the decoder demanding no more than the
inspection. A summary counts every element once, and its sizes add up to where the stream ends: up
to there it decodes to the same words, and no shorter prefix decodes. Of a stream that was written
for some words it gives the number of bytes written, their most frequent difference and how often
that occurs. -/
theorem summarize_agrees (stream : List UInt8) (slice : List UInt32) :
    ((∃ summary, summarize stream slice.length = .ok summary) ↔
        (decodeInto stream slice).result = .ok slice.length) ∧
      (∀ reason, summarize stream slice.length = .error reason →
        ∃ demanded needed, reason = .truncatedStream demanded stream.length ∧
          (decodeInto stream slice).result = .error (.truncatedStream needed stream.length) ∧
          stream.length < needed ∧ needed ≤ demanded ∧
          (stream.length < 4 + (slice.length + 3) / 4 → needed = demanded)) ∧
      (∀ summary, summarize stream slice.length = .ok summary → slice ≠ [] →
        let count := summary.tagCounts.count
        count .common + count .one + count .two + count .four = slice.length ∧
          summary.residualBytes = count .one + 2 * count .two + 4 * count .four ∧
          summary.totalSize = 4 + (slice.length + 3) / 4 + summary.residualBytes ∧
          summary.totalSize ≤ stream.length ∧
          decodeInto (stream.take summary.totalSize) slice = decodeInto stream slice ∧
          ∀ cut, cut <+: stream → cut.length < summary.totalSize →
            ∃ needed, (decodeInto cut slice).result =
              .error (.truncatedStream needed cut.length)) ∧
      ∀ (words : List UInt32) (buffer : List UInt8) (n : Nat), slice.length = words.length →
        (encodeInto words buffer).value.result = .ok n →
        stream = (encodeInto words buffer).value.buffer.take n →
        ∃ summary, summarize stream slice.length = .ok summary ∧ summary.totalSize = n ∧
          (words ≠ [] → Delta.mode words = some summary.common) ∧
          summary.tagCounts.count .common = (Delta.differences words).count summary.common := by
  refine ⟨summarize_ok_iff_decodeInto_ok stream slice, fun reason h => summarize_error_of h,
    fun summary h hs => ?_, fun words buffer n hlength hn hstream => ?_⟩
  · obtain ⟨rfl, hle, hfront, hcut⟩ := decodeInto_of_summarize hs h
    have hheader := Nat.le_trans (headerSize_le_statedSize slice.length stream) hle
    refine ⟨?_, ?_, rfl, hle, hfront, hcut⟩
    · exact (TagCounts.sum_ofTags _).trans (length_tagsOf hheader)
    · change Tag.demand (tagsOf slice.length stream) = _
      rw [← TagCounts.residualBytes_ofTags, TagCounts.residualBytes, Tag.residualSize,
        Tag.residualSize, Tag.residualSize, Nat.mul_one, Nat.mul_comm _ 2, Nat.mul_comm _ 4]
      rfl
  · obtain ⟨rfl, hbytes⟩ := take_encodeInto_of_ok hn
    rw [hstream, hbytes, hlength]
    exact summarize_encode words

/-- Two elements: a stream that lacks both residuals but for a byte, and one with a byte too
many. -/
theorem summarize_agrees_two :
    let cut : List UInt8 := [0, 0, 0, 0, 15, 1]
    let long : List UInt8 := [1, 0, 0, 0, 1, 5, 99]
    summarize cut 2 = .error (.truncatedStream 13 6) ∧
      (∃ needed, (decodeInto cut [7, 7]).result = .error (.truncatedStream needed 6) ∧
        6 < needed ∧ needed ≤ 13) ∧
      ∃ summary, summarize long 2 = .ok summary ∧ summary.totalSize = 6 ∧
        decodeInto (long.take 6) [7, 7] = decodeInto long [7, 7] ∧
        ∃ needed, (decodeInto (long.take 5) [7, 7]).result =
          .error (.truncatedStream needed 5) := by
  intro cut long
  have hcut : summarize cut ([7, 7] : List UInt32).length = .error (.truncatedStream 13 6) := rfl
  obtain ⟨-, hrefused, -⟩ := summarize_agrees cut [7, 7]
  obtain ⟨demanded, needed, hreason, hresult, hmore, hle, -⟩ := hrefused _ hcut
  obtain ⟨rfl, -⟩ := PackError.truncatedStream.inj hreason
  obtain ⟨-, -, haccepted, -⟩ := summarize_agrees long [7, 7]
  obtain ⟨-, -, -, -, hfront, hshort⟩ := haccepted _ rfl (by decide)
  exact ⟨rfl, ⟨needed, hresult, hmore, hle⟩, _, rfl, rfl, hfront,
    hshort _ (List.take_prefix 5 long) (by decide)⟩

end DeltaPack.Precoded
