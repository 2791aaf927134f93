/-!
# Wrapping differences of a word list

The pre-coder replaces each word by its signed difference to the word before it, with zero
before the first. Differences wrap modulo `2 ^ 32`, so the same arithmetic serves signed and
unsigned lists, and `Delta.sums` and `Delta.differences` undo each other (`Delta.sums_differences`,
`Delta.differences_sums`).
-/

namespace DeltaPack.Delta

/-- The signed difference of each word to its predecessor, with zero before the first. -/
def differences (words : List UInt32) : List Int32 :=
  List.zipWith (fun word before => word.toInt32 - before.toInt32) words (0 :: words)

/-- Collects running sums behind the words already rebuilt, which stand last first. -/
private def sumsOnto : Int32 → List UInt32 → List Int32 → List UInt32
  | _, done, [] => done.reverse
  | total, done, delta :: rest =>
    sumsOnto (total + delta) ((total + delta).toUInt32 :: done) rest

/-- The running wrapping sums of a list of differences, as words. -/
def sums (deltas : List Int32) : List UInt32 :=
  sumsOnto 0 [] deltas

/-- The running sums that follow a given total, one cell at a time. -/
def sumsAfter : Int32 → List Int32 → List UInt32
  | _, [] => []
  | total, delta :: rest => (total + delta).toUInt32 :: sumsAfter (total + delta) rest

private theorem sumsOnto_eq (total : Int32) (done : List UInt32) (deltas : List Int32) :
    sumsOnto total done deltas = done.reverse ++ sumsAfter total deltas := by
  induction deltas generalizing total done with
  | nil => simp [sumsOnto, sumsAfter]
  | cons delta rest ih => simp [sumsOnto, sumsAfter, ih]

theorem sums_eq_sumsAfter (deltas : List Int32) : sums deltas = sumsAfter 0 deltas := by
  simp [sums, sumsOnto_eq]

@[simp]
theorem length_sumsAfter (total : Int32) (deltas : List Int32) :
    (sumsAfter total deltas).length = deltas.length := by
  induction deltas generalizing total with
  | nil => rfl
  | cons delta rest ih => simp [sumsAfter, ih]

@[simp]
theorem length_sums (deltas : List Int32) : (sums deltas).length = deltas.length := by
  simp [sums_eq_sumsAfter]

/-- More differences leave the running sums before them as they are. -/
theorem isPrefix_sums_append (first rest : List Int32) : sums first <+: sums (first ++ rest) := by
  rw [sums_eq_sumsAfter, sums_eq_sumsAfter]
  generalize (0 : Int32) = total
  induction first generalizing total with
  | nil => exact List.nil_prefix
  | cons delta first ih => exact List.cons_prefix_cons.2 ⟨rfl, ih (total + delta)⟩

@[simp]
theorem length_differences (words : List UInt32) :
    (differences words).length = words.length := by
  simp [differences]

private theorem sumsAfter_zipWith (before : UInt32) (words : List UInt32) :
    sumsAfter before.toInt32
      (List.zipWith (fun word b => word.toInt32 - b.toInt32) words (before :: words)) =
      words := by
  induction words generalizing before with
  | nil => rfl
  | cons word rest ih =>
    have h : before.toInt32 + (word.toInt32 - before.toInt32) = word.toInt32 := by
      rw [Int32.add_comm, Int32.sub_add_cancel]
    simp only [List.zipWith_cons_cons, sumsAfter, h, UInt32.toUInt32_toInt32, ih]

/-- **Differences lose nothing**: their running sums are the words they were taken from. -/
theorem sums_differences (words : List UInt32) : sums (differences words) = words := by
  rw [sums_eq_sumsAfter]
  exact sumsAfter_zipWith 0 words

private theorem zipWith_sumsAfter (before : Int32) (deltas : List Int32) :
    List.zipWith (fun word b => word.toInt32 - b.toInt32) (sumsAfter before deltas)
      (before.toUInt32 :: sumsAfter before deltas) = deltas := by
  induction deltas generalizing before with
  | nil => rfl
  | cons delta rest ih =>
    have h : before + delta - before = delta := by
      rw [Int32.add_comm, Int32.add_sub_cancel]
    simp only [sumsAfter, List.zipWith_cons_cons, Int32.toInt32_toUInt32, h, ih]

/-- No two lists of differences have the same running sums. -/
theorem differences_sums (deltas : List Int32) : differences (sums deltas) = deltas := by
  rw [sums_eq_sumsAfter]
  exact zipWith_sumsAfter 0 deltas

end DeltaPack.Delta
