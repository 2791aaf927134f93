import DeltaPack.Lz4.Search
import Mathlib.Tactic.SplitIfs

/-!
# What the match search finds

A parse is good for a source if its sequences describe it from the front, one behind the other,
and its last literals are what is left. `Sequence.Describes` says this of one sequence: its
literals stand at its position and its match repeats bytes that stand before. `Covers` chains
sequences from one position of the source to another, and `Parse.Describes` adds the last literals.

The search keeps two invariants (`describes_search`). The sequences found so far cover the source up
to the start of the pending literals, and the table remembers only positions before the one that is
tried (`Behind`), because the search always goes on behind what it puts there. A remembered position
is used only if it is near and its next four bytes are the same. The extension back and the extension
forward compare every byte they take in, so each match repeats its source.
-/

namespace DeltaPack.Lz4

/-! ### Parses that describe a source -/

/-- The number of source bytes that a sequence stands for. -/
def Sequence.span (s : Sequence) : Nat := s.literals.length + s.length

/-- A sequence describes the source from a position on: its literals stand there, and its match
repeats bytes that start `offset` before. -/
structure Sequence.Describes (source : Array UInt8) (position : Nat) (s : Sequence) : Prop where
  literals_eq : s.literals = slice source position (position + s.literals.length)
  offset_pos : 0 < s.offset
  offset_le_max : s.offset ≤ maxOffset
  offset_le : s.offset ≤ position + s.literals.length
  minMatch_le : minMatch ≤ s.length
  stop_le : position + s.span ≤ source.size
  repeats : ∀ i, position + s.literals.length ≤ i → i < position + s.span →
    byteAt source (i - s.offset) = byteAt source i

/-- Sequences describe the source from one position to another. -/
inductive Covers (source : Array UInt8) : Nat → List Sequence → Nat → Prop
  | nil (position : Nat) : Covers source position [] position
  | cons {position stop : Nat} {s : Sequence} {rest : List Sequence}
      (head : s.Describes source position) (tail : Covers source (position + s.span) rest stop) :
      Covers source position (s :: rest) stop

/-- A parse describes a source: its sequences cover the front and its last literals are the
rest. -/
def Parse.Describes (source : Array UInt8) (p : Parse) : Prop :=
  ∃ stop, stop ≤ source.size ∧ Covers source 0 p.sequences stop ∧
    p.last = slice source stop source.size

theorem Covers.append_singleton {source : Array UInt8} {start position : Nat}
    {sequences : List Sequence} {s : Sequence} (h : Covers source start sequences position)
    (hs : s.Describes source position) :
    Covers source start (sequences ++ [s]) (position + s.span) := by
  induction h with
  | nil position => exact .cons hs (.nil _)
  | cons head tail ih => exact .cons head (ih hs)

theorem length_slice {source : Array UInt8} {start stop : Nat} (h : stop ≤ source.size) :
    (slice source start stop).length = stop - start := by
  rw [slice, Array.length_toList, Array.size_extract_of_le h]

/-! ### Matches -/

section Match

variable {source : Array UInt8} {anchor limit earlier position i : Nat}

theorem matchStart_le : matchStart source anchor earlier position ≤ position := by
  fun_induction matchStart source anchor earlier position with
  | case1 earlier position h ih => omega
  | case2 earlier position h => omega
  | case3 earlier position h => omega

theorem anchor_le_matchStart (h : anchor ≤ position) :
    anchor ≤ matchStart source anchor earlier position := by
  fun_induction matchStart source anchor earlier position with
  | case1 earlier position heq ih =>
    simp only [Bool.and_eq_true, decide_eq_true_eq] at heq
    exact ih (by omega)
  | case2 | case3 => exact h

/-- A match is not extended back beyond the front of the source. -/
theorem offset_le_matchStart (h : earlier ≤ position) :
    position - earlier ≤ matchStart source anchor earlier position := by
  fun_induction matchStart source anchor earlier position with
  | case1 earlier position heq ih =>
    have := ih (by omega)
    omega
  | case2 | case3 => omega

/-- The bytes that a match gains at its front repeat the source. -/
theorem byteAt_of_matchStart_le (h : earlier ≤ position)
    (hstart : matchStart source anchor earlier position ≤ i) (hi : i < position) :
    byteAt source (i - (position - earlier)) = byteAt source i := by
  fun_induction matchStart source anchor earlier position with
  | case1 earlier position heq ih =>
    simp only [Bool.and_eq_true, beq_iff_eq] at heq
    rcases Nat.lt_or_ge i position with hlt | hge
    · rw [show position + 1 - (earlier + 1) = position - earlier by omega]
      exact ih (by omega) hstart hlt
    · obtain rfl : i = position := by omega
      rw [show i - (i + 1 - (earlier + 1)) = earlier by omega]
      exact heq.2
  | case2 | case3 => omega

theorem matchEnd_le (h : position ≤ limit) : matchEnd source limit earlier position ≤ limit := by
  fun_induction matchEnd source limit earlier position with
  | case1 earlier position heq ih =>
    simp only [Bool.and_eq_true, decide_eq_true_eq] at heq
    exact ih heq.1
  | case2 => exact h

/-- The bytes that a match gains at its end repeat the source. -/
theorem byteAt_of_lt_matchEnd (h : earlier ≤ position) (hi : position ≤ i)
    (hend : i < matchEnd source limit earlier position) :
    byteAt source (i - (position - earlier)) = byteAt source i := by
  fun_induction matchEnd source limit earlier position with
  | case1 earlier position heq ih =>
    simp only [Bool.and_eq_true, beq_iff_eq] at heq
    rcases Nat.lt_or_ge position i with hlt | hge
    · rw [show position - earlier = position + 1 - (earlier + 1) by omega]
      exact ih (by omega) hlt hend
    · obtain rfl : i = position := by omega
      rw [show i - (i - earlier) = earlier by omega]
      exact heq.2
  | case2 => omega

/-- An accepted position is near and its next four bytes are the same. -/
theorem accepts_iff : accepts source earlier position = true ↔
    position - earlier ≤ maxOffset ∧
      ∀ k, k < minMatch → byteAt source (earlier + k) = byteAt source (position + k) := by
  simp only [accepts, sameWord, Bool.and_eq_true, decide_eq_true_eq, beq_iff_eq, minMatch,
    and_assoc]
  refine and_congr_right fun _ => ⟨?_, fun h => ?_⟩
  · rintro ⟨h0, h1, h2, h3⟩ k hk
    match k with
    | 0 => exact h0
    | 1 => exact h1
    | 2 => exact h2
    | 3 => exact h3
  · exact ⟨h 0 (by omega), h 1 (by omega), h 2 (by omega), h 3 (by omega)⟩

end Match

/-! ### Remembered positions -/

/-- A table remembers only positions **before** the given one. -/
def Behind (table : Array Nat) (position : Nat) : Prop := ∀ slot, table.getD slot 0 < position

theorem Behind.mono {table : Array Nat} {position next : Nat} (h : Behind table position)
    (hle : position ≤ next) : Behind table next := fun slot => Nat.lt_of_lt_of_le (h slot) hle

theorem behind_replicate (count : Nat) {position : Nat} (h : 0 < position) :
    Behind (Array.replicate count 0) position := by
  intro slot
  rw [Array.getD_eq_getD_getElem?, Array.getElem?_replicate]
  split_ifs <;> exact h

/-- What stands in a slot was remembered there now or before. -/
theorem Behind.setIfInBounds {table : Array Nat} {position passed : Nat}
    (h : Behind table position) (hpassed : passed < position) (slot : Nat) :
    Behind (table.setIfInBounds slot passed) position := by
  intro other
  have hother := h other
  rw [Array.getD_eq_getD_getElem?] at hother ⊢
  rw [Array.getElem?_setIfInBounds]
  split_ifs with hslot hin
  · exact hpassed
  · exact Nat.zero_lt_of_lt hpassed
  · exact hother

/-! ### The search -/

/-- The sequence that an accepted position yields describes the source from the pending literals
on. -/
private theorem describes_of_accepts {source : Array UInt8} {anchor earlier position : Nat}
    (hanchor : anchor ≤ position) (hearlier : earlier < position)
    (hposition : position + startMargin ≤ source.size)
    (haccepts : accepts source earlier position = true) :
    let start := matchStart source anchor earlier position
    let stop := matchEnd source (source.size - endMargin) (earlier + minMatch) (position + minMatch)
    let s : Sequence := ⟨slice source anchor start, position - earlier, stop - start⟩
    s.Describes source anchor ∧ anchor + s.span = stop ∧ stop ≤ source.size := by
  intro start stop s
  obtain ⟨hnear, hsame⟩ := accepts_iff.1 haccepts
  have hstart : start ≤ position := matchStart_le
  have hpending : anchor ≤ start := anchor_le_matchStart hanchor
  have hfront : position - earlier ≤ start := offset_le_matchStart (Nat.le_of_lt hearlier)
  have hend : position + minMatch ≤ stop := le_matchEnd ..
  have hstop : stop ≤ source.size - endMargin :=
    matchEnd_le (by simp only [startMargin, minMatch, endMargin] at *; omega)
  have hlength : s.literals.length = start - anchor := length_slice (by omega)
  have hspan : anchor + s.span = stop := by
    rw [Sequence.span, hlength]
    change anchor + (start - anchor + (stop - start)) = stop
    omega
  have hliterals : anchor + s.literals.length = start := by omega
  refine ⟨⟨by rw [hliterals], ?_, hnear, by rw [hliterals]; exact hfront, ?_, by omega, ?_⟩,
    hspan, by omega⟩
  · change 0 < position - earlier
    omega
  · change minMatch ≤ stop - start
    omega
  · intro i hi hlt
    rw [hliterals] at hi
    rw [hspan] at hlt
    change byteAt source (i - (position - earlier)) = byteAt source i
    -- the byte stands before, in or behind the four that were compared first
    rcases Nat.lt_or_ge i position with hbefore | hge
    · exact byteAt_of_matchStart_le (Nat.le_of_lt hearlier) hi hbefore
    rcases Nat.lt_or_ge i (position + minMatch) with hin | hbehind
    · have := hsame (i - position) (by omega)
      rwa [show earlier + (i - position) = i - (position - earlier) by omega,
        show position + (i - position) = i by omega] at this
    · have := byteAt_of_lt_matchEnd (Nat.add_le_add_right (Nat.le_of_lt hearlier) minMatch) hbehind
        hlt
      rwa [Nat.add_sub_add_right] at this

/-- The invariants of the search: with a table of positions that were passed, sequences that cover
the source up to the pending literals are completed to a parse that describes it. -/
theorem describes_search {source : Array UInt8} {table : Array Nat}
    {anchor position misses : Nat} {found : List Sequence} (htable : Behind table position)
    (hanchor : anchor ≤ position) (hsize : anchor ≤ source.size)
    (hfound : Covers source 0 found.reverse anchor) :
    (search source table anchor position misses found).Describes source := by
  fun_induction search source table anchor position misses found with
  | case1 table anchor position misses found hposition slot earlier table' haccepts start stop
      sequence ih =>
    obtain ⟨hsequence, hspan, hstop⟩ :=
      describes_of_accepts hanchor (htable slot) hposition haccepts
    have hcovers := hfound.append_singleton hsequence
    rw [hspan, ← List.reverse_cons] at hcovers
    -- the search goes on behind the match, and both positions it remembers lie in front of that
    have hpassed : position + minMatch ≤ stop := le_matchEnd ..
    rw [minMatch] at hpassed
    have hnext : Behind table' stop :=
      (htable.mono (by omega)).setIfInBounds (by omega) slot
    exact ih (hnext.setIfInBounds (by omega) _) (Nat.le_refl _) hstop hcovers
  | case2 table anchor position misses found hposition slot earlier table' haccepts ih =>
    have hnext : Behind table' (position + (32 + misses) / 32) :=
      (htable.mono (by omega)).setIfInBounds (by omega) slot
    exact ih hnext (by omega) hsize hfound
  | case3 table anchor position misses found hposition =>
    exact ⟨anchor, hsize, hfound, rfl⟩

/-- **The parse of a source describes it.** -/
theorem describes_ofSource (source : List UInt8) :
    (Parse.ofSource source).Describes source.toArray :=
  describes_search (behind_replicate slotCount Nat.one_pos) (Nat.zero_le 1) (Nat.zero_le _) (.nil 0)

end DeltaPack.Lz4
