import DeltaPack.Delta.Basic
import Std.Data.TreeMap

/-!
# The most frequent difference

One difference of a list is stored once and referred to by an empty residual: its mode, and among
equally frequent differences the lowest as a signed number. Occurrences are tallied in a search
tree. The choice among the tallied differences does not depend on their order, since it is made by
`Delta.beats`, a strict total order on (difference, count) pairs with distinct differences.
-/

namespace DeltaPack.Delta

/-- Each difference that occurs, with how often. -/
def tally (deltas : List Int32) : List (Int32 × Nat) :=
  (deltas.foldl (fun counts delta => counts.insert delta (counts.getD delta 0 + 1))
    (∅ : Std.TreeMap Int32 Nat)).toList

/-- Whether one tallied difference is preferred to another: it occurs more often, or equally
often and is lower. -/
def beats (a b : Int32 × Nat) : Bool :=
  b.2 < a.2 || (a.2 == b.2 && a.1 < b.1)

/-- The preferred difference of a tally. -/
def preferred : List (Int32 × Nat) → Option Int32
  | [] => none
  | entry :: rest =>
    some (rest.foldl (fun best other => if beats other best then other else best) entry).1

/-- The lowest of the most frequent differences of a word list, or `none` for no words. -/
def mode (words : List UInt32) : Option Int32 :=
  preferred (tally (differences words))

end DeltaPack.Delta
