import DeltaPack.Error

/-!
# Buffers owned by the caller

Operations that write into a caller's buffer answer with two things: how many elements they
wrote, or why not, and what the buffer holds afterwards. A success leaves the
elements past the counted ones as they were, which `Filled.wrote` makes so by construction.
-/

namespace DeltaPack

/-- The outcome of writing into a caller's buffer, with the whole buffer after the call. -/
structure Filled (α : Type) where
  /-- The number of elements written, or the reason for the refusal. -/
  result : Except PackError Nat
  /-- The buffer after the call. -/
  buffer : List α

namespace Filled

variable {α : Type}

/-- A buffer whose first elements are replaced by the given ones. -/
def overlay (items buffer : List α) : List α :=
  items ++ buffer.drop items.length

/-- Success: the given elements stand at the front of the buffer. -/
def wrote (items buffer : List α) : Filled α :=
  ⟨.ok items.length, overlay items buffer⟩

/-- Refusal that leaves the buffer untouched. -/
def refused (reason : PackError) (buffer : List α) : Filled α :=
  ⟨.error reason, buffer⟩

/-- The same outcome with another view of the buffer's elements. -/
def map {β : Type} (f : α → β) (filled : Filled α) : Filled β :=
  ⟨filled.result, filled.buffer.map f⟩

/-- The elements written, if the call succeeded. -/
def taken (filled : Filled α) : Except PackError (List α) :=
  filled.result.map filled.buffer.take

end Filled

/-- The elements stand at the start of the buffer. -/
theorem Filled.take_overlay {α : Type} (items buffer : List α) :
    (overlay items buffer).take items.length = items := List.take_left

@[simp]
theorem Filled.taken_wrote {α : Type} (items buffer : List α) :
    (wrote items buffer).taken = .ok items := by
  simp only [taken, wrote, Except.map, take_overlay]

@[simp]
theorem Filled.taken_refused {α : Type} (reason : PackError) (buffer : List α) :
    (refused reason buffer).taken = .error reason := rfl

/-- Elements that fill the buffer are all that it holds. -/
theorem Filled.overlay_of_length_eq {α : Type} {items buffer : List α}
    (h : buffer.length = items.length) : overlay items buffer = items := by
  rw [overlay, List.drop_of_length_le (Nat.le_of_eq h), List.append_nil]

theorem Filled.length_overlay {α : Type} {items buffer : List α}
    (h : items.length ≤ buffer.length) : (overlay items buffer).length = buffer.length := by
  simp only [overlay, List.length_append, List.length_drop]
  omega

end DeltaPack
