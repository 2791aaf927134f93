import DeltaPack.Buffer

/-!
# Parts of a buffer by position

Taking and dropping elements of a list cannot go wrong. A program that works in buffers names
positions instead, and each has to be in range. `window?` reads the elements from one position up
to another and `fill?` replaces elements of such a window, both with `none` where the positions
are out of order or behind the end, or the elements do not fit. What a buffer holds after it was
filled is `writeAt`, and filling it piece by piece comes to the same as filling it at once
(`writeAt_writeAt`).
-/

namespace DeltaPack

variable {α : Type} {xs items target : List α} {start stop position : Nat}

/-! ### Reading -/

/-- The elements from one position up to another, if both are **in range** and in order. -/
def window? (xs : List α) (start stop : Nat) : Option (List α) :=
  if start ≤ stop ∧ stop ≤ xs.length then some ((xs.drop start).take (stop - start)) else none

theorem window?_of_le (h : start ≤ stop) (hstop : stop ≤ xs.length) :
    window? xs start stop = some ((xs.drop start).take (stop - start)) := if_pos ⟨h, hstop⟩

theorem window?_of_lt (h : xs.length < stop) : window? xs start stop = none :=
  if_neg fun hin => Nat.not_le.2 h hin.2

/-- The front of a list. -/
theorem window?_zero (h : stop ≤ xs.length) : window? xs 0 stop = some (xs.take stop) :=
  window?_of_le (Nat.zero_le stop) h

/-- The rest of a list. -/
theorem window?_length (h : start ≤ xs.length) :
    window? xs start xs.length = some (xs.drop start) := by
  rw [window?_of_le h (Nat.le_refl _), ← List.length_drop, List.take_length]

/-! ### Writing -/

/-- Behind the elements that were put in front, a buffer is what it was. -/
theorem Filled.getElem?_overlay {i : Nat} (h : items.length ≤ i) :
    (Filled.overlay items target)[i]? = target[i]? := by
  rw [Filled.overlay, List.getElem?_append_right h, List.getElem?_drop, Nat.add_sub_cancel' h]

/-- A buffer whose elements from a position on are **replaced** by the given ones. -/
def writeAt (items : List α) (position : Nat) (target : List α) : List α :=
  target.take position ++ Filled.overlay items (target.drop position)

/-- Replaces the first elements of a window, if the window is **in range** and holds them. -/
def fill? (items : List α) (start stop : Nat) (target : List α) : Option (List α) :=
  if start + items.length ≤ stop ∧ stop ≤ target.length then some (writeAt items start target)
  else none

theorem fill?_of_le (h : start + items.length ≤ stop) (hstop : stop ≤ target.length) :
    fill? items start stop target = some (writeAt items start target) := if_pos ⟨h, hstop⟩

theorem writeAt_nil (position : Nat) (target : List α) : writeAt [] position target = target := by
  rw [writeAt, Filled.overlay, List.nil_append, List.length_nil, List.drop_zero,
    List.take_append_drop]

theorem writeAt_zero (items target : List α) :
    writeAt items 0 target = Filled.overlay items target := by
  rw [writeAt, List.take_zero, List.nil_append, List.drop_zero]

theorem length_writeAt (h : position + items.length ≤ target.length) :
    (writeAt items position target).length = target.length := by
  have hrest : items.length ≤ (target.drop position).length := by
    rw [List.length_drop]
    omega
  rw [writeAt, List.length_append, List.length_take, Filled.length_overlay hrest, List.length_drop]
  omega

/-- What is written behind other elements could have been written with them. -/
theorem writeAt_writeAt (h : position ≤ target.length) (more : List α) :
    writeAt more (position + items.length) (writeAt items position target) =
      writeAt (items ++ more) position target := by
  have hfront : (target.take position ++ items).length = position + items.length := by
    rw [List.length_append, List.length_take_of_le h]
  have hsplit (rest : List α) : target.take position ++ (items ++ rest) =
      (target.take position ++ items) ++ rest := (List.append_assoc ..).symm
  simp only [writeAt, Filled.overlay]
  rw [hsplit, ← hfront, List.take_left, List.drop_left, List.append_assoc, List.append_assoc,
    List.drop_drop, List.length_append]

end DeltaPack
