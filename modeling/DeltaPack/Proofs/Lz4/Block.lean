import DeltaPack.Lz4.Block
import Mathlib.Tactic.SplitIfs

/-!
# What a block decoder depends on

Statements about all blocks, well-formed or not, from what one step of the decoder can do
(`step_eq_finished_iff`, `step_eq_continued_iff`, `stepMatch_eq_continued_iff`).

* **The output only grows.** What was decoded before a step is a prefix of what the block decodes
  to (`isPrefix_of_decodeFrom`).
* **The room is only a limit.** A block that decodes in some room decodes to the same bytes in
  every room that holds them, and in no other (`decodeBlock_eq_ok_iff_of_ok`).
* **A cut block is not mistaken for the whole.** A strict prefix of a block that decodes is refused
  or decodes to fewer bytes (`decodeBlock_of_cut`): it can be accepted only where it ends right
  behind a run of literals, and the match that was cut off would have added bytes.
-/

namespace DeltaPack.Lz4

/-! ### Lengths -/

theorem readExtension_append {total length : Nat} {input rest : List UInt8}
    (h : readExtension total input = some (length, rest)) (more : List UInt8) :
    readExtension total (input ++ more) = some (length, rest ++ more) := by
  induction input generalizing total with
  | nil => simp [readExtension] at h
  | cons b tail ih =>
    rw [readExtension] at h
    rw [List.cons_append, readExtension]
    split_ifs at h ⊢ with hb
    · exact ih h
    · simp only [Option.some.injEq, Prod.mk.injEq] at h ⊢
      exact ⟨h.1, by rw [h.2]⟩

/-- A length that was read is read with more input behind it. -/
theorem readLength_append {bits length : Nat} {input rest : List UInt8}
    (h : readLength bits input = some (length, rest)) (more : List UInt8) :
    readLength bits (input ++ more) = some (length, rest ++ more) := by
  rw [readLength] at h ⊢
  split_ifs at h ⊢ with hbits
  · exact readExtension_append h more
  · simp only [Option.some.injEq, Prod.mk.injEq] at h ⊢
    exact ⟨h.1, by rw [h.2]⟩

/-! ### One step -/

theorem size_append_literals (output : Array UInt8) (literals : List UInt8) :
    (output ++ literals).size = output.size + literals.length := by
  rw [← Array.length_toList, Array.toList_appendList, List.length_append, Array.length_toList]

/-- A match never ends a block. -/
theorem stepMatch_ne_finished {room bits : Nat} {output output' : Array UInt8}
    {input : List UInt8} : stepMatch room bits output input ≠ .finished output' := by
  match input with
  | [] | [_] => simp [stepMatch]
  | low :: high :: tail =>
    rw [stepMatch]
    rcases readLength bits tail with _ | ⟨length, rest⟩
    · simp only
      split_ifs <;> simp
    · simp only
      split_ifs <;> simp

/-- A match goes on behind its two bytes of offset and the rest of its length, if the offset
stays inside the output and the copy fits. -/
theorem stepMatch_eq_continued_iff {room bits : Nat} {output output' : Array UInt8}
    {input input' : List UInt8} :
    stepMatch room bits output input = .continued input' output' ↔
      ∃ low high tail length, input = low :: high :: tail ∧
        readLength bits tail = some (length, input') ∧
        0 < low.toNat + 256 * high.toNat ∧ low.toNat + 256 * high.toNat ≤ output.size ∧
        output.size + (length + minMatch) ≤ room ∧
        output' = copyMatch output (low.toNat + 256 * high.toNat) (length + minMatch) := by
  constructor
  · intro h
    match input with
    | [] | [_] => simp [stepMatch] at h
    | low :: high :: tail =>
      rw [stepMatch] at h
      rcases hread : readLength bits tail with _ | ⟨length, rest⟩
      · simp only [hread] at h
        split_ifs at h
      · simp only [hread] at h
        split_ifs at h with hzero hroom hoffset
        obtain ⟨rfl, rfl⟩ := Step.continued.inj h
        exact ⟨low, high, tail, length, rfl, hread, by omega, by omega, by omega, rfl⟩
  · rintro ⟨low, high, tail, length, rfl, hread, hpos, hoffset, hroom, rfl⟩
    rw [stepMatch]
    simp only [hread]
    rw [if_neg (by omega), if_neg (by omega), if_neg (by omega)]

/-- A step that does not fail reads a token and a run of literals that is there and fits. -/
theorem exists_literals_of_step {room : Nat} {output : Array UInt8} {input : List UInt8}
    (h : ∀ fault, step room output input ≠ .failed fault) :
    ∃ token tail literals rest, input = token :: tail ∧
      readLength (token.toNat / 16) tail = some (literals.length, literals ++ rest) ∧
      output.size + literals.length ≤ room := by
  match input with
  | [] => exact absurd rfl (h .inputExhausted)
  | token :: tail =>
    rw [step] at h
    rcases hread : readLength (token.toNat / 16) tail with _ | ⟨length, rest⟩
    · simp only [hread] at h
      exact absurd rfl (h .inputExhausted)
    · simp only [hread] at h
      split_ifs at h with hliteral hroom
      · exact absurd rfl (h .literalOutOfBounds)
      · exact absurd rfl (h _)
      have hlength : (rest.take length).length = length :=
        Nat.le_antisymm (List.length_take_le ..) (Nat.le_of_not_lt hliteral)
      exact ⟨token, tail, rest.take length, rest.drop length, rfl,
        by rw [hread, hlength, List.take_append_drop], by omega⟩

/-- What a step does behind its literals. -/
theorem step_of_literals {room : Nat} {output : Array UInt8} {token : UInt8}
    {tail literals rest : List UInt8}
    (hread : readLength (token.toNat / 16) tail = some (literals.length, literals ++ rest))
    (hroom : output.size + literals.length ≤ room) :
    step room output (token :: tail) =
      if rest = [] then .finished (output ++ literals)
      else stepMatch room (token.toNat % 16) (output ++ literals) rest := by
  rw [step]
  simp only [hread, List.take_left, List.drop_left]
  rw [if_neg (Nat.lt_irrefl _), if_neg (Nat.not_lt.2 hroom)]
  cases rest with
  | nil => rfl
  | cons b rest => rfl

/-- A step ends the block behind a run of literals that uses up the input and fits. -/
theorem step_eq_finished_iff {room : Nat} {output output' : Array UInt8} {input : List UInt8} :
    step room output input = .finished output' ↔
      ∃ token tail literals, input = token :: tail ∧
        readLength (token.toNat / 16) tail = some (literals.length, literals) ∧
        output.size + literals.length ≤ room ∧ output' = output ++ literals := by
  constructor
  · intro h
    have hok : ∀ fault, step room output input ≠ .failed fault := by simp [h]
    obtain ⟨token, tail, literals, rest, rfl, hread, hroom⟩ := exists_literals_of_step hok
    rw [step_of_literals hread hroom] at h
    split_ifs at h with hrest
    · rw [hrest, List.append_nil] at hread
      exact ⟨token, tail, literals, rfl, hread, hroom, (Step.finished.inj h).symm⟩
    · exact absurd h stepMatch_ne_finished
  · rintro ⟨token, tail, literals, rfl, hread, hroom, rfl⟩
    rw [step_of_literals (by rwa [List.append_nil]) hroom, if_pos rfl]

/-- A step goes on with the match behind a run of literals that fits and leaves some input. -/
theorem step_eq_continued_iff {room : Nat} {output output' : Array UInt8}
    {input input' : List UInt8} :
    step room output input = .continued input' output' ↔
      ∃ token tail literals rest, input = token :: tail ∧ rest ≠ [] ∧
        readLength (token.toNat / 16) tail = some (literals.length, literals ++ rest) ∧
        output.size + literals.length ≤ room ∧
        stepMatch room (token.toNat % 16) (output ++ literals) rest =
          .continued input' output' := by
  constructor
  · intro h
    have hok : ∀ fault, step room output input ≠ .failed fault := by simp [h]
    obtain ⟨token, tail, literals, rest, rfl, hread, hroom⟩ := exists_literals_of_step hok
    rw [step_of_literals hread hroom] at h
    split_ifs at h with hrest
    exact ⟨token, tail, literals, rest, rfl, hrest, hread, hroom, h⟩
  · rintro ⟨token, tail, literals, rest, rfl, hrest, hread, hroom, hmatch⟩
    rw [step_of_literals hread hroom, if_neg hrest, hmatch]

/-! ### The output only grows -/

/-- A copy appends as many bytes as it counts. -/
theorem exists_toList_copyMatch (output : Array UInt8) (offset count : Nat) :
    ∃ copied : List UInt8, copied.length = count ∧
      (copyMatch output offset count).toList = output.toList ++ copied := by
  induction count generalizing output with
  | zero => exact ⟨[], rfl, by simp [copyMatch]⟩
  | succ count ih =>
    obtain ⟨copied, hlength, hcopied⟩ := ih (output.push (output.getD (output.size - offset) 0))
    refine ⟨output.getD (output.size - offset) 0 :: copied, by simp [hlength], ?_⟩
    rw [copyMatch, hcopied, Array.toList_push, List.append_assoc, List.singleton_append]

/-- A match appends at least four bytes. -/
theorem exists_toList_of_stepMatch {room bits : Nat} {output output' : Array UInt8}
    {input input' : List UInt8} (h : stepMatch room bits output input = .continued input' output') :
    ∃ copied : List UInt8, minMatch ≤ copied.length ∧
      output'.toList = output.toList ++ copied := by
  obtain ⟨low, high, tail, length, -, -, -, -, -, rfl⟩ := stepMatch_eq_continued_iff.1 h
  obtain ⟨copied, hlength, hcopied⟩ :=
    exists_toList_copyMatch output (low.toNat + 256 * high.toNat) (length + minMatch)
  exact ⟨copied, by omega, hcopied⟩

theorem isPrefix_of_step_continued {room : Nat} {output output' : Array UInt8}
    {input input' : List UInt8} (h : step room output input = .continued input' output') :
    output.toList <+: output'.toList := by
  obtain ⟨token, tail, literals, rest, -, -, -, -, hmatch⟩ := step_eq_continued_iff.1 h
  obtain ⟨copied, -, hcopied⟩ := exists_toList_of_stepMatch hmatch
  rw [hcopied, Array.toList_appendList, List.append_assoc]
  exact List.prefix_append _ _

theorem isPrefix_of_step_finished {room : Nat} {output output' : Array UInt8}
    {input : List UInt8} (h : step room output input = .finished output') :
    output.toList <+: output'.toList := by
  obtain ⟨token, tail, literals, -, -, -, rfl⟩ := step_eq_finished_iff.1 h
  rw [Array.toList_appendList]
  exact List.prefix_append _ _

/-- What was decoded before is a prefix of what a block decodes to. -/
theorem isPrefix_of_decodeFrom {room : Nat} {input : List UInt8} {output : Array UInt8}
    {restored : List UInt8} (h : decodeFrom room input output = .ok restored) :
    output.toList <+: restored := by
  fun_induction decodeFrom room input output with
  | case1 input output output' hstep =>
    rw [← Except.ok.inj h]
    exact isPrefix_of_step_finished hstep
  | case2 input output input' output' hstep ih =>
    exact (isPrefix_of_step_continued hstep).trans (ih h)
  | case3 input output fault hstep => exact absurd h (by simp)

theorem decodeFrom_of_finished {room : Nat} {output output' : Array UInt8} {input : List UInt8}
    (h : step room output input = .finished output') :
    decodeFrom room input output = .ok output'.toList := by
  rw [decodeFrom]
  split <;> simp_all

theorem decodeFrom_of_continued {room : Nat} {output output' : Array UInt8}
    {input input' : List UInt8} (h : step room output input = .continued input' output') :
    decodeFrom room input output = decodeFrom room input' output' := by
  rw [decodeFrom]
  split <;> simp_all

/-- Where a block decodes, its next step ends it or goes on. -/
theorem step_of_decodeFrom {room : Nat} {output : Array UInt8} {input restored : List UInt8}
    (h : decodeFrom room input output = .ok restored) :
    step room output input = .finished restored.toArray ∨
      ∃ input' output', step room output input = .continued input' output' ∧
        decodeFrom room input' output' = .ok restored := by
  rw [decodeFrom] at h
  split at h
  · left
    next output' hstep => rw [hstep, ← Except.ok.inj h]
  · right
    next input' output' hstep => exact ⟨input', output', hstep, h⟩
  · exact absurd h (by simp)

/-! ### The room is only a limit -/

theorem size_copyMatch (output : Array UInt8) (offset count : Nat) :
    (copyMatch output offset count).size = output.size + count := by
  obtain ⟨copied, hlength, hcopied⟩ := exists_toList_copyMatch output offset count
  rw [← Array.length_toList, hcopied, List.length_append, hlength, Array.length_toList]

/-- A step that goes on does the same in every room that holds its output. -/
theorem step_continued_of_room {room room' : Nat} {output output' : Array UInt8}
    {input input' : List UInt8} (h : step room output input = .continued input' output')
    (hroom : output'.size ≤ room') : step room' output input = .continued input' output' := by
  obtain ⟨token, tail, literals, rest, rfl, hrest, hread, -, hmatch⟩ := step_eq_continued_iff.1 h
  obtain ⟨low, high, rest', length, rfl, hread', hpos, hoffset, -, rfl⟩ :=
    stepMatch_eq_continued_iff.1 hmatch
  rw [size_copyMatch] at hroom
  have hsize := size_append_literals output literals
  exact step_eq_continued_iff.2 ⟨token, tail, literals, _, rfl, hrest, hread, by omega,
    stepMatch_eq_continued_iff.2 ⟨low, high, rest', length, rfl, hread', hpos, hoffset, hroom, rfl⟩⟩

/-- A block that decodes in some room decodes in every room that holds the result. -/
theorem decodeFrom_of_room {room room' : Nat} {input : List UInt8} {output : Array UInt8}
    {restored : List UInt8} (h : decodeFrom room input output = .ok restored)
    (hroom : restored.length ≤ room') : decodeFrom room' input output = .ok restored := by
  fun_induction decodeFrom room input output with
  | case1 input output output' hstep =>
    obtain ⟨token, tail, literals, rfl, hread, -, rfl⟩ := step_eq_finished_iff.1 hstep
    have hlength : restored.length = output.size + literals.length := by
      rw [← Except.ok.inj h, Array.length_toList, size_append_literals]
    rw [← h]
    exact decodeFrom_of_finished
      (step_eq_finished_iff.2 ⟨token, tail, literals, rfl, hread, by omega, rfl⟩)
  | case2 input output input' output' hstep ih =>
    -- the output so far is part of the result, so it fits as well
    have hsize : output'.size ≤ room' :=
      Nat.le_trans (isPrefix_of_decodeFrom h).length_le hroom
    rw [decodeFrom_of_continued (step_continued_of_room hstep hsize)]
    exact ih h
  | case3 input output fault hstep => exact absurd h (by simp)

theorem length_le_of_decodeFrom {room : Nat} {input : List UInt8} {output : Array UInt8}
    {restored : List UInt8} (h : decodeFrom room input output = .ok restored) :
    restored.length ≤ room := by
  fun_induction decodeFrom room input output with
  | case1 input output output' hstep =>
    obtain ⟨token, tail, literals, -, -, hroom, rfl⟩ := step_eq_finished_iff.1 hstep
    rwa [← Except.ok.inj h, Array.length_toList, size_append_literals]
  | case2 input output input' output' hstep ih => exact ih h
  | case3 input output fault hstep => exact absurd h (by simp)

/-- **A block that decodes in some room decodes in exactly the rooms that hold the result.** -/
theorem decodeBlock_eq_ok_iff_of_ok {room room' : Nat} {block restored : List UInt8}
    (h : decodeBlock room block = .ok restored) :
    decodeBlock room' block = .ok restored ↔ restored.length ≤ room' :=
  ⟨length_le_of_decodeFrom, decodeFrom_of_room h⟩

/-- A block that decodes is refused in a room that does not hold the result. -/
theorem decodeBlock_eq_error_of_ok {room room' : Nat} {block restored : List UInt8}
    (h : decodeBlock room block = .ok restored) (hroom : room' < restored.length) :
    ∃ fault, decodeBlock room' block = .error fault := by
  rcases hsmall : decodeBlock room' block with fault | restored'
  · exact ⟨fault, rfl⟩
  · have hlt := length_le_of_decodeFrom hsmall
    -- both results are that of the larger room
    have hlarge := (decodeBlock_eq_ok_iff_of_ok hsmall).2 (Nat.le_trans hlt (Nat.le_of_lt hroom))
    have hsame := (decodeBlock_eq_ok_iff_of_ok h).2 (Nat.le_refl restored.length)
    rw [Except.ok.inj (hlarge.symm.trans hsame)] at hlt
    omega

/-! ### Cut blocks -/

/-- A step that goes on does the same with more input behind the block. -/
theorem step_continued_append {room : Nat} {output output' : Array UInt8}
    {input input' : List UInt8} (h : step room output input = .continued input' output')
    (more : List UInt8) :
    step room output (input ++ more) = .continued (input' ++ more) output' := by
  obtain ⟨token, tail, literals, rest, rfl, hrest, hread, hroom, hmatch⟩ :=
    step_eq_continued_iff.1 h
  obtain ⟨low, high, rest', length, rfl, hread', hpos, hoffset, hroom', rfl⟩ :=
    stepMatch_eq_continued_iff.1 hmatch
  refine step_eq_continued_iff.2 ⟨token, tail ++ more, literals, low :: high :: rest' ++ more, rfl,
    by simp, ?_, hroom, ?_⟩
  · rw [← List.append_assoc]
    exact readLength_append hread more
  · exact stepMatch_eq_continued_iff.2 ⟨low, high, rest' ++ more, length, rfl,
      readLength_append hread' more, hpos, hoffset, hroom', rfl⟩

/-- Where a block would end, more input is the match of a sequence. -/
theorem step_append_of_finished {room : Nat} {output output' : Array UInt8} {input : List UInt8}
    (h : step room output input = .finished output') {more : List UInt8} (hmore : more ≠ []) :
    ∃ bits, step room output (input ++ more) = stepMatch room bits output' more := by
  obtain ⟨token, tail, literals, rfl, hread, hroom, rfl⟩ := step_eq_finished_iff.1 h
  refine ⟨token.toNat % 16, ?_⟩
  rw [List.cons_append, step_of_literals (readLength_append hread more) hroom, if_neg hmore]

private theorem decodeFrom_of_cut {room : Nat} {input more : List UInt8} {output : Array UInt8}
    {part whole : List UInt8} (hmore : more ≠ []) (hpart : decodeFrom room input output = .ok part)
    (hwhole : decodeFrom room (input ++ more) output = .ok whole) :
    part <+: whole ∧ part.length + minMatch ≤ whole.length := by
  fun_induction decodeFrom room input output with
  | case1 input output output' hstep =>
    -- the cut is accepted here, where the whole goes on with the match that was cut off
    obtain ⟨bits, happend⟩ := step_append_of_finished hstep hmore
    obtain rfl := Except.ok.inj hpart
    rcases step_of_decodeFrom hwhole with hend | ⟨rest, output'', hmatch, hrest⟩
    · exact absurd (happend.symm.trans hend) stepMatch_ne_finished
    · obtain ⟨copied, hlength, hcopied⟩ := exists_toList_of_stepMatch (happend.symm.trans hmatch)
      have hgrows := isPrefix_of_decodeFrom hrest
      have hle := hgrows.length_le
      rw [hcopied] at hgrows hle
      rw [List.length_append] at hle
      exact ⟨(List.prefix_append _ _).trans hgrows, by omega⟩
  | case2 input output input' output' hstep ih =>
    rw [decodeFrom_of_continued (step_continued_append hstep more)] at hwhole
    exact ih hpart hwhole
  | case3 input output fault hstep => exact absurd hpart (by simp)

/-- **A cut block is refused or decodes to fewer bytes**, which are the first ones of the whole
and lack at least a match. -/
theorem decodeBlock_of_cut {room : Nat} {block cut part whole : List UInt8}
    (hcut : cut <+: block) (hne : cut ≠ block) (hpart : decodeBlock room cut = .ok part)
    (hwhole : decodeBlock room block = .ok whole) :
    part <+: whole ∧ part.length + minMatch ≤ whole.length := by
  obtain ⟨more, rfl⟩ := hcut
  have hmore : more ≠ [] := by
    rintro rfl
    exact hne (List.append_nil cut).symm
  exact decodeFrom_of_cut hmore hpart hwhole

end DeltaPack.Lz4
