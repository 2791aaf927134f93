import DeltaPack.Lz4.Sequence

/-!
# The greedy match search

The search divides a source into LZ4 sequences. It remembers, in a table of 4096 slots, the last
position whose next bytes hashed to each slot, and takes the first remembered position whose next
four bytes are the same and which is near enough. A match is then extended in both directions,
back into the pending literals and forward up to six bytes before the end. The longer no match
is found, the larger the steps become.

The table holds only positions that were passed, so what it proposes lies before the position that
is tried. It is compared byte by byte before it is used.
-/

namespace DeltaPack.Lz4

/-- The byte at a position, zero past the end. -/
def byteAt (source : Array UInt8) (position : Nat) : UInt8 := source.getD position 0

/-! ### Hashing -/

/-- The four bytes from a position on, as a little-endian word. -/
def word32At (source : Array UInt8) (position : Nat) : UInt32 :=
  (byteAt source position).toUInt32 ||| (byteAt source (position + 1)).toUInt32 <<< 8 |||
    (byteAt source (position + 2)).toUInt32 <<< 16 |||
    (byteAt source (position + 3)).toUInt32 <<< 24

/-- The eight bytes from a position on, as a little-endian word. -/
def word64At (source : Array UInt8) (position : Nat) : UInt64 :=
  (word32At source position).toUInt64 ||| (word32At source (position + 4)).toUInt64 <<< 32

/-- The number of slots of the table. -/
def slotCount : Nat := 4096

/-- The slot of a position: the top twelve bits of a multiplicative hash, of the next four bytes
in a short source and of the next five in a long one. -/
def slotOf (source : Array UInt8) (position : Nat) : Nat :=
  if source.size < 65535 then
    ((word32At source position * 2654435761) >>> 20).toNat
  else
    (((word64At source position <<< 24) * 889523592379) >>> 52).toNat

/-! ### Matches -/

/-- Whether the same four bytes follow two positions. -/
def sameWord (source : Array UInt8) (a b : Nat) : Bool :=
  byteAt source a == byteAt source b && byteAt source (a + 1) == byteAt source (b + 1) &&
    byteAt source (a + 2) == byteAt source (b + 2) && byteAt source (a + 3) == byteAt source (b + 3)

/-- The farthest distance of a match. -/
def maxOffset : Nat := 65535

/-- Whether a match at a position may start from an earlier one. -/
def accepts (source : Array UInt8) (earlier position : Nat) : Bool :=
  position - earlier ≤ maxOffset && sameWord source earlier position

/-- Where a match ends: the first position at or after `position`, and before `limit`, at which
the source differs from its copy that started at `earlier`. -/
def matchEnd (source : Array UInt8) (limit earlier position : Nat) : Nat :=
  if position < limit && byteAt source earlier == byteAt source position then
    matchEnd source limit (earlier + 1) (position + 1)
  else position
termination_by limit - position
decreasing_by simp_all; omega

theorem le_matchEnd (source : Array UInt8) (limit earlier position : Nat) :
    position ≤ matchEnd source limit earlier position := by
  fun_induction matchEnd source limit earlier position with
  | case1 earlier position _ ih => omega
  | case2 => omega

/-- Where a match starts when it is extended back over equal bytes, not before `anchor`. -/
def matchStart (source : Array UInt8) (anchor : Nat) : (earlier position : Nat) → Nat
  | earlier + 1, position + 1 =>
    if anchor < position + 1 && byteAt source earlier == byteAt source position then
      matchStart source anchor earlier position
    else position + 1
  | _, position => position

/-! ### The search -/

/-- Bytes before the end at which no match starts. -/
def startMargin : Nat := 12

/-- Bytes before the end into which no match extends. -/
def endMargin : Nat := 6

/-- A slice of the source. -/
def slice (source : Array UInt8) (start stop : Nat) : List UInt8 :=
  (source.extract start stop).toList

/-- Continues the search at a position, with the pending literals from `anchor` on, the number of
positions tried since the last match, and the sequences found so far, last first. -/
def search (source : Array UInt8) (table : Array Nat) (anchor position misses : Nat)
    (found : List Sequence) : Parse :=
  if _h : position + startMargin ≤ source.size then
    let slot := slotOf source position
    let earlier := table.getD slot 0
    let table := table.setIfInBounds slot position
    if accepts source earlier position then
      let start := matchStart source anchor earlier position
      let stop := matchEnd source (source.size - endMargin) (earlier + minMatch)
        (position + minMatch)
      let sequence : Sequence := ⟨slice source anchor start, position - earlier, stop - start⟩
      search source (table.setIfInBounds (slotOf source (stop - 2)) (stop - 2)) stop stop 0
        (sequence :: found)
    else
      search source table anchor (position + (32 + misses) / 32) (misses + 1) found
  else ⟨found.reverse, slice source anchor source.size⟩
termination_by source.size - position
decreasing_by
  · simp only [startMargin] at _h
    exact Nat.sub_lt_sub_left (by omega)
      (Nat.lt_of_lt_of_le (by simp [minMatch]) (le_matchEnd ..))
  · simp only [startMargin] at _h
    omega

/-- **The parse of a source** into sequences. The first byte is always a literal. -/
def Parse.ofSource (source : List UInt8) : Parse :=
  search source.toArray (Array.replicate slotCount 0) 0 1 0 []

end DeltaPack.Lz4
