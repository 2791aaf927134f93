import DeltaPack.Proofs.Lz4.Compress
import Mathlib.Data.Nat.Basic
import Mathlib.Order.Monotone.Defs

/-!
# The bound on a container

A buffer is reserved for the longest source there may be and the bound is checked for the one
there is, so the bound has to grow with the source (`maxCompressedSize_mono`). It is given by two
formulas, one for a source that fits a block and one that adds up whole chunks and a part of one,
and both divide. It grows all the same: a part of a chunk never reserves more than a whole one
does, so neither the step from one block to several nor that to one more whole chunk goes down.

`maxCompressedSize_lt` says that the bound fits a word of 64 bits, for all sources that are accepted
and far beyond.
-/

namespace DeltaPack.Lz4

theorem maxBlockSize_le_maxBlockSize {a b : Nat} (h : a ≤ b) : maxBlockSize a ≤ maxBlockSize b := by
  rw [maxBlockSize, maxBlockSize]
  exact Nat.add_le_add_left (Nat.div_le_div_right (Nat.mul_le_mul_right _ h)) _

/-- The room that is reserved for the last, partial chunk, if there is one. -/
def partBound (part : Nat) : Nat := if part = 0 then 0 else chunkBound part

theorem partBound_le_chunkBound {part length : Nat} (h : part ≤ length) :
    partBound part ≤ chunkBound length := by
  rw [partBound]
  split_ifs
  · exact Nat.zero_le _
  · exact Nat.add_le_add_left (maxBlockSize_le_maxBlockSize h) _

theorem partBound_le_partBound {a b : Nat} (h : a ≤ b) : partBound a ≤ partBound b := by
  by_cases hb : b = 0
  · subst hb
    exact Nat.le_of_eq (congrArg partBound (Nat.le_zero.1 h))
  · rw [partBound.eq_1 b, if_neg hb]
    exact partBound_le_chunkBound h

theorem maxFramedSize_of_le {limit length : Nat} (h : length ≤ limit) :
    maxFramedSize limit length = 1 + maxBlockSize length := if_pos h

/-- Several chunks reserve what their whole chunks and the partial one do. -/
theorem maxFramedSize_of_lt {limit length : Nat} (h : limit < length) :
    maxFramedSize limit length =
      1 + (length / limit * chunkBound limit + partBound (length % limit)) := by
  rw [maxFramedSize, if_neg (Nat.not_le.2 h), partBound]
  simp only [chunkBound]
  split_ifs <;> omega

/-- What several chunks reserve grows with the source: either another chunk is whole, or the last
one is longer. -/
private theorem chunks_le_chunks {limit a b : Nat} (hlimit : 0 < limit) (h : a ≤ b) :
    a / limit * chunkBound limit + partBound (a % limit) ≤
      b / limit * chunkBound limit + partBound (b % limit) := by
  rcases Nat.lt_or_eq_of_le (Nat.div_le_div_right h : a / limit ≤ b / limit) with hdiv | hdiv
  · have hpart : partBound (a % limit) ≤ chunkBound limit :=
      partBound_le_chunkBound (Nat.le_of_lt (Nat.mod_lt a hlimit))
    calc a / limit * chunkBound limit + partBound (a % limit)
        ≤ a / limit * chunkBound limit + chunkBound limit := Nat.add_le_add_left hpart _
      _ = (a / limit + 1) * chunkBound limit := (Nat.succ_mul ..).symm
      _ ≤ b / limit * chunkBound limit := Nat.mul_le_mul_right _ hdiv
      _ ≤ b / limit * chunkBound limit + partBound (b % limit) := Nat.le_add_right ..
  · have hmod : a % limit ≤ b % limit := by
      have ha := Nat.div_add_mod a limit
      have hb := Nat.div_add_mod b limit
      rw [hdiv] at ha
      omega
    rw [hdiv]
    exact Nat.add_le_add_left (partBound_le_partBound hmod) _

theorem maxFramedSize_le_maxFramedSize {limit a b : Nat} (hlimit : 0 < limit) (h : a ≤ b) :
    maxFramedSize limit a ≤ maxFramedSize limit b := by
  rcases Nat.lt_or_ge limit b with hb | hb
  · rw [maxFramedSize_of_lt hb]
    rcases Nat.lt_or_ge limit a with ha | ha
    · rw [maxFramedSize_of_lt ha]
      exact Nat.add_le_add_left (chunks_le_chunks hlimit h) 1
    -- the longer source has one whole chunk at least, the shorter one is no more than that
    · have hwhole : 1 * chunkBound limit ≤ b / limit * chunkBound limit :=
        Nat.mul_le_mul_right _ (Nat.div_pos (Nat.le_of_lt hb) hlimit)
      have hblock := maxBlockSize_le_maxBlockSize ha
      rw [maxFramedSize_of_le ha]
      rw [Nat.one_mul] at hwhole
      rw [chunkBound] at hwhole ⊢
      omega
  · rw [maxFramedSize_of_le hb, maxFramedSize_of_le (Nat.le_trans h hb)]
    exact Nat.add_le_add_left (maxBlockSize_le_maxBlockSize h) 1

/-- **The bound grows with the source.** -/
theorem maxCompressedSize_mono (c : Lz4) : Monotone c.maxCompressedSize :=
  fun _ _ h => maxFramedSize_le_maxFramedSize c.chunkLimit_pos h

/-- The bound is at most what is reserved for the whole chunks and one more. -/
theorem maxFramedSize_le {limit length : Nat} (hlimit : 0 < limit) :
    maxFramedSize limit length ≤ 1 + (length / limit + 1) * chunkBound limit := by
  rw [Nat.succ_mul]
  rcases Nat.lt_or_ge limit length with hlt | hle
  · have hpart : partBound (length % limit) ≤ chunkBound limit :=
      partBound_le_chunkBound (Nat.le_of_lt (Nat.mod_lt length hlimit))
    rw [maxFramedSize_of_lt hlt]
    omega
  · have hblock := maxBlockSize_le_maxBlockSize hle
    rw [maxFramedSize_of_le hle]
    simp only [chunkBound]
    omega

/-- The bound of a source of at most a million chunks fits a word of 64 bits. -/
theorem maxCompressedSize_lt {c : Lz4} {count length : Nat} (hcount : count ≤ 1000000)
    (h : length ≤ count * c.chunkLimit) : c.maxCompressedSize length < 2 ^ 64 := by
  have hlimit := c.chunkLimit_le
  have hchunks : length / c.chunkLimit ≤ count := Nat.div_le_of_le_mul (by rwa [Nat.mul_comm])
  have hchunk : chunkBound c.chunkLimit ≤ 3000000000 := by
    rw [maxBlockInput] at hlimit
    rw [chunkBound, chunkLengthSize, maxBlockSize]
    omega
  calc c.maxCompressedSize length
      ≤ 1 + (length / c.chunkLimit + 1) * chunkBound c.chunkLimit :=
        maxFramedSize_le c.chunkLimit_pos
    _ ≤ 1 + 1000001 * 3000000000 :=
        Nat.add_le_add_left (Nat.mul_le_mul (by omega) hchunk) 1
    _ < 2 ^ 64 := by decide

end DeltaPack.Lz4
