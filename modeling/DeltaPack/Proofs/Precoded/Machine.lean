import DeltaPack.Proofs.Machine
import DeltaPack.Proofs.Precoded.Stream

/-!
# The pre-coded stream in machine words

The sizes of a stream and the cursor among its residuals, computed in words of 64 bits with every
sum and product checked: `none` is an overflow.

Of as many words as an object of less than `2 ^ 63` bytes holds, there is none. The bound on the
stream is hardly above `2 ^ 63` then (`maxSize_le`), and all else is bounded by it: the cursor
moves over residuals, whose sizes are added up in the bound, and what a refusal demands ends with
one of them.
-/

namespace DeltaPack.Precoded

open Machine

variable {count : Nat}

/-! ### Sizes -/

/-- Bytes of the tag region of `count` elements. -/
def tagRegionSize? (count : Nat) : Option Nat := ceilDiv? count 4

/-- Bytes before the residuals. -/
def headerSize? (count : Nat) : Option Nat := do
  let region ← tagRegionSize? count
  fit (commonSize + region)

/-- The largest size of a pre-coded list of `count` words. -/
def maxSize? (count : Nat) : Option Nat :=
  if count = 0 then some 0
  else do
    let header ← headerSize? count
    let residuals ← fit (count * 4)
    fit (header + residuals)

/-- Bytes of working space that unpacking `count` words needs. -/
def workspaceSize? (count : Nat) : Option Nat := maxSize? count

theorem tagRegionSize?_eq (h : count < 2 ^ 64) :
    tagRegionSize? count = some (tagRegionSize count) := ceilDiv?_eq (by decide) h

theorem headerSize?_eq (h : count < 2 ^ 64) : headerSize? count = some (headerSize count) := by
  rw [headerSize?, tagRegionSize?_eq h]
  refine fit_of_lt ?_
  rw [commonSize, tagRegionSize]
  omega

/-- **The bound is computed without overflow if it fits.** -/
theorem maxSize?_eq (h : count < 2 ^ 64) : maxSize? count = fit (maxSize count) := by
  rw [maxSize?, maxSize]
  split_ifs with hcount
  · rfl
  · rw [headerSize?_eq h, Nat.mul_comm 4]
    exact fit_bind (Nat.le_add_left ..) fun _ => rfl

/-- The bound for the longest list of words there may be. -/
theorem maxSize_le (h : count ≤ 2 ^ 61 - 1) : maxSize count ≤ 2 ^ 63 + 2 ^ 59 := by
  rw [maxSize, headerSize, commonSize, tagRegionSize]
  split_ifs <;> omega

theorem headerSize_add_le_maxSize (hcount : count ≠ 0) {size : Nat} (h : size ≤ 4 * count) :
    headerSize count + size ≤ maxSize count := by
  rw [maxSize_eq hcount]
  exact Nat.add_le_add_left h _

/-! ### Encoding -/

/-- Moves a cursor behind the residuals of some tags, one after the other. -/
def cursor? : List Tag → (cursor : Nat) → Option Nat
  | [], cursor => some cursor
  | tag :: tags, cursor => do
    let cursor ← fit (cursor + tag.residualSize)
    cursor? tags cursor

theorem cursor?_eq {tags : List Tag} {cursor : Nat} (h : cursor + Tag.demand tags < 2 ^ 64) :
    cursor? tags cursor = some (cursor + Tag.demand tags) := by
  induction tags generalizing cursor with
  | nil => rfl
  | cons tag tags ih =>
    rw [Tag.demand_cons, ← Nat.add_assoc] at h ⊢
    exact (fit_bind_of_lt (by omega) _).trans (ih h)

/-- The result of encoding words into a buffer: the bound, the cursor behind the residuals, and the
number of bytes written. -/
def encodeResult? (words : List UInt32) (buffer : List UInt8) : Option (Except PackError Nat) :=
  match Delta.mode words with
  | none => some (.ok 0)
  | some common => do
    let needed ← maxSize? words.length
    if buffer.length < needed then some (.error (.bufferTooSmall needed buffer.length))
    else do
      let region ← tagRegionSize? words.length
      let cursor ← cursor? ((Delta.differences words).map (Tag.classify common)) 0
      let header ← fit (commonSize + region)
      let written ← fit (header + cursor)
      some (.ok written)

/-- **Encoding never overflows**, and comes to the same. -/
theorem encodeResult?_eq {words : List UInt32} (h : words.length ≤ 2 ^ 61 - 1)
    (buffer : List UInt8) :
    encodeResult? words buffer = some (encodeInto words buffer).value.result := by
  have hword : words.length < 2 ^ 64 := by omega
  have hmax : maxSize words.length < 2 ^ 64 := by
    have := maxSize_le h
    omega
  rw [encodeResult?, encodeInto]
  rcases hmode : Delta.mode words with _ | common
  · rfl
  have hcount : words.length ≠ 0 := by
    intro hzero
    rw [Delta.mode_eq_none_iff.2 (List.eq_nil_of_length_eq_zero hzero)] at hmode
    cases hmode
  simp only [maxSize?_eq hword, fit_of_lt hmax, Option.bind_eq_bind, Option.bind_some]
  split_ifs with hshort
  · rfl
  · have hdemand := Tag.demand_le ((Delta.differences words).map (Tag.classify common))
    rw [List.length_map, Delta.length_differences] at hdemand
    have hwritten := headerSize_add_le_maxSize hcount hdemand
    have hlength := length_encodeAround common (Delta.differences words)
    rw [Delta.length_differences] at hlength
    rw [tagRegionSize?_eq hword, Option.bind_some, cursor?_eq (by omega), Option.bind_some,
      Nat.zero_add, ← headerSize, fit_bind_of_lt (by omega), fit_bind_of_lt (by omega)]
    simp only [Traced.value_bind, Traced.value_pure, Filled.wrote, hlength]

/-! ### Decoding -/

/-- Walks the tags with a cursor among so many residual bytes. The outcome is where the first
missing residual would have ended, if one is missing. -/
def missing? : List Tag → (available cursor : Nat) → Option (Option Nat)
  | [], _, _ => some none
  | tag :: tags, available, cursor => do
    let stop ← fit (cursor + tag.residualSize)
    if available < stop then some (some stop) else missing? tags available stop

theorem missing?_eq (common : Int32) {tags : List Tag} (bytes : List UInt8) {cursor : Nat}
    (done : List Int32) (h : cursor + Tag.demand tags < 2 ^ 64) :
    missing? tags (cursor + bytes.length) cursor =
      some (readFrom common tags bytes cursor done).missing := by
  induction tags generalizing bytes cursor done with
  | nil => rfl
  | cons tag tags ih =>
    rw [Tag.demand_cons] at h
    rw [missing?, readFrom, Option.bind_eq_bind, fit_bind_of_lt (by omega), List.length_take]
    rcases Nat.lt_or_ge bytes.length tag.residualSize with hshort | hlong
    · rw [if_pos (by omega), if_pos (by omega)]
    · have hrest : cursor + bytes.length =
          cursor + tag.residualSize + (bytes.drop tag.residualSize).length := by
        rw [List.length_drop]
        omega
      rw [if_neg (by omega), if_neg (by omega), hrest]
      exact ih _ _ (by omega)

/-- The result of decoding a stream into a slice: the header, the cursor, and the size that a refusal
demands. -/
def decodeResult? (stream : List UInt8) (slice : List UInt32) : Option (Except PackError Nat) :=
  if slice.length = 0 then some (.ok 0)
  else do
    let header ← headerSize? slice.length
    if stream.length < header then some (.error (.truncatedStream header stream.length))
    else
      match ← missing? (tagsOf slice.length stream) (stream.length - header) 0 with
      | none => some (.ok slice.length)
      | some stop => do
        let needed ← fit (header + stop)
        some (.error (.truncatedStream needed stream.length))

/-- **Decoding never overflows**, and comes to the same. -/
theorem decodeResult?_eq {slice : List UInt32} (h : slice.length ≤ 2 ^ 61 - 1)
    (stream : List UInt8) :
    decodeResult? stream slice = some (decodeInto stream slice).result := by
  have hmax := maxSize_le h
  rw [decodeResult?]
  split_ifs with hcount
  · rw [decodeInto, if_pos hcount]
    rfl
  simp only [headerSize?_eq (show slice.length < 2 ^ 64 by omega), Option.bind_eq_bind,
    Option.bind_some]
  split_ifs with hcut
  · rw [decodeInto, if_neg hcount, if_pos hcut]
    rfl
  · have hheader : headerSize slice.length ≤ stream.length := Nat.le_of_not_lt hcut
    have hdemand := Tag.demand_le (tagsOf slice.length stream)
    rw [length_tagsOf hheader] at hdemand
    have hstated := headerSize_add_le_maxSize hcount hdemand
    have hfit : 0 + Tag.demand (tagsOf slice.length stream) < 2 ^ 64 := by omega
    have hmissing := missing?_eq (commonOf stream) (stream.drop (headerSize slice.length)) [] hfit
    rw [Nat.zero_add, List.length_drop, ← read] at hmissing
    rw [hmissing, Option.bind_some, decodeInto_of_header (by simpa using hcount) hheader]
    rcases hstop : (read slice.length stream).missing with _ | stop
    · have hall := (missing_read_eq_none_iff hheader).1 hstop
      simp only [Filled.wrote, Delta.length_sums, length_deltas_read hall]
    -- the missing residual ends before those of all tags do
    · obtain ⟨-, hle⟩ := bounds_of_missing_readFrom hstop
      simp only
      rw [fit_bind_of_lt (by omega)]
      rfl

end DeltaPack.Precoded
