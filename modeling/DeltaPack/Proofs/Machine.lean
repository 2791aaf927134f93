import Mathlib.Algebra.GroupWithZero.Nat
import Mathlib.Tactic.SplitIfs

/-!
# Sizes in machine words

The sizes of this library are natural numbers and have no limit. A program that runs keeps them in
words of 64 bits. `fit` is a number in such a word, with `none` where it does not fit, so that a
computation whose sums and products all pass through `fit` has a result exactly if none of them
overflows.

Not every step has to be looked at for itself. Sizes are added up and multiplied, and never
subtracted, so what comes of an intermediate value is no smaller: the last step overflows if any
does (`fit_bind`).
-/

namespace DeltaPack.Machine

variable {a b n d : Nat}

/-- A number in a **machine word**, if it fits. -/
def fit (n : Nat) : Option Nat := if n < 2 ^ 64 then some n else none

theorem fit_of_lt (h : n < 2 ^ 64) : fit n = some n := if_pos h

theorem fit_of_le (h : 2 ^ 64 ≤ n) : fit n = none := if_neg (Nat.not_lt.2 h)

theorem fit_eq_none_iff : fit n = none ↔ 2 ^ 64 ≤ n := by
  rw [fit]
  split_ifs with h
  · exact iff_of_false nofun (Nat.not_le.2 h)
  · exact iff_of_true rfl (Nat.le_of_not_lt h)

/-- An intermediate value that fits is handed on. -/
theorem fit_bind_of_lt {α : Type} (h : n < 2 ^ 64) (next : Nat → Option α) :
    (fit n).bind next = next n := by
  rw [fit_of_lt h, Option.bind_some]

/-- **An intermediate value needs no check of its own** if what comes of it is no smaller. -/
theorem fit_bind {next : Nat → Option Nat} (h : a ≤ b) (hnext : a < 2 ^ 64 → next a = fit b) :
    (fit a).bind next = fit b := by
  rcases Nat.lt_or_ge a (2 ^ 64) with hlt | hge
  · rw [fit_bind_of_lt hlt, hnext hlt]
  · rw [fit_of_le hge, fit_of_le (Nat.le_trans hge h)]
    rfl

/-- A quotient, rounded up: one more than the quotient if there is a remainder. -/
def ceilDiv? (n d : Nat) : Option Nat := if n % d = 0 then some (n / d) else fit (n / d + 1)

/-- Rounding up does not leave the words, and comes to the same as adding first. -/
theorem ceilDiv?_eq (hd : 0 < d) (h : n < 2 ^ 64) : ceilDiv? n d = some ((n + d - 1) / d) := by
  have hmod : n % d < d := Nat.mod_lt n hd
  have hn : d * (n / d) + n % d = n := Nat.div_add_mod n d
  rw [ceilDiv?]
  split_ifs with hexact
  · have hsum : n + d - 1 = d * (n / d) + (d - 1) := by omega
    have hlast : d - 1 < d := Nat.sub_lt hd Nat.one_pos
    rw [hsum, Nat.mul_add_div hd, Nat.div_eq_of_lt hlast, Nat.add_zero]
  · have hsum : n + d - 1 = d * (n / d + 1) + (n % d - 1) := by
      rw [Nat.mul_succ]
      omega
    have hlast : n % d - 1 < d := Nat.lt_of_le_of_lt (Nat.sub_le ..) hmod
    have hhalf : n / d ≤ n / 2 := Nat.div_le_div_left (by omega) Nat.two_pos
    rw [hsum, Nat.mul_add_div hd, Nat.div_eq_of_lt hlast, Nat.add_zero,
      fit_of_lt (by omega)]

end DeltaPack.Machine
