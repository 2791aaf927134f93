/-!
# Sizes of the pre-coded stream

A pre-coded list of `n ≥ 1` words is a four-byte common difference, a region of two-bit tags
and the residuals. Its size depends on the words, but never exceeds `Precoded.maxSize n`, in
which every residual takes four bytes. The empty list is stored as no bytes at all.
-/

namespace DeltaPack.Precoded

/-- Bytes of the common difference at the head of a stream. -/
def commonSize : Nat := 4

/-- Bytes of the tag region of `count` elements, four tags to a byte. -/
def tagRegionSize (count : Nat) : Nat := (count + 3) / 4

/-- Bytes before the residuals. -/
def headerSize (count : Nat) : Nat := commonSize + tagRegionSize count

/-- The largest size of a pre-coded list of `count` words. -/
def maxSize (count : Nat) : Nat :=
  if count = 0 then 0 else headerSize count + 4 * count

/-- Bytes of working space that unpacking `count` words needs: room for any pre-coded stream of
that many words. -/
def workspaceSize (count : Nat) : Nat := maxSize count

end DeltaPack.Precoded
