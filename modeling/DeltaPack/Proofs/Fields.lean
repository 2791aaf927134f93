import DeltaPack.Bytes.LittleEndian
import Mathlib.Algebra.GroupWithZero.Nat

/-!
# Fixed-width fields read back

A field of `width` bytes holds a natural number below `LittleEndian.capacity width`, or a signed
number in the balanced range of that width. Within its range a number is read back as it was
written; `signed_bytes_word` says what a narrow field keeps of a 32-bit integer, which is what
sign extension restores.
-/

namespace DeltaPack.LittleEndian

theorem capacity_eq_pow (width : Nat) : capacity width = 256 ^ width := by
  induction width with
  | zero => rfl
  | succ width ih => rw [capacity, ih, Nat.pow_succ, Nat.mul_comm]

/-- A number that fits its field is read back. -/
theorem value_bytes_of_lt {width n : Nat} (h : n < capacity width) : value (bytes width n) = n := by
  rw [value_bytes, Nat.mod_eq_of_lt h]

/-- Reading a field in two's complement gives the balanced representative of what was written. -/
theorem signed_bytes (width n : Nat) : signed (bytes width n) = Int.bmod n (capacity width) := by
  rw [signed, length_bytes, value_bytes, Int.natCast_emod, Int.emod_bmod]

/-- The low bytes of a 32-bit word are a residue of it. -/
theorem capacity_dvd {width : Nat} (h : width ≤ 4) : capacity width ∣ 2 ^ 32 := by
  rw [capacity_eq_pow, show 2 ^ 32 = 256 ^ 4 from rfl]
  exact Nat.pow_dvd_pow 256 h

theorem toInt_eq_bmod (d : Int32) : d.toInt = Int.bmod d.toUInt32.toNat (2 ^ 32) :=
  d.toBitVec.toInt_eq_toNat_bmod

/-- A field of at most four bytes keeps the balanced residue of a 32-bit integer. -/
theorem signed_bytes_word {width : Nat} (h : width ≤ 4) (d : Int32) :
    signed (bytes width d.toUInt32.toNat) = Int.bmod d.toInt (capacity width) := by
  rw [signed_bytes, toInt_eq_bmod, Int.bmod_bmod_of_dvd (capacity_dvd h)]

/-- An integer in the balanced range of its field is read back. -/
theorem signed_bytes_word_of_mem {width : Nat} (h : width ≤ 4) {d : Int32}
    (hlo : -(capacity width : Int) ≤ d.toInt * 2) (hhi : d.toInt * 2 < capacity width) :
    signed (bytes width d.toUInt32.toNat) = d.toInt := by
  rw [signed_bytes_word h, Int.bmod_eq_of_le_mul_two hlo hhi]

/-! ### Fields written back -/

/-- A field is the form of every number with its value in the low bytes. -/
theorem bytes_of_value_eq {field : List UInt8} {n : Nat}
    (h : value field = n % capacity field.length) : bytes field.length n = field := by
  induction field generalizing n with
  | nil => rfl
  | cons b rest ih =>
    have hb : b.toNat < 256 := b.toNat_lt
    rw [value, List.length_cons, capacity, Nat.mod_mul] at h
    have hlow : n % 256 = b.toNat := by omega
    rw [List.length_cons, bytes, ih (by omega)]
    congr 1
    rw [← UInt8.toNat_inj, UInt8.toNat_ofNat', hlow]

/-- **A field of at most four bytes is that of the integer it is read as.** -/
theorem bytes_ofInt_signed {field : List UInt8} (h : field.length ≤ 4) :
    bytes field.length (Int32.ofInt (signed field)).toUInt32.toNat = field := by
  have hdvd : (capacity field.length : Int) ∣ (2 ^ 32 : Nat) := Int.ofNat_dvd.2 (capacity_dvd h)
  have hresidue (x : Int) : Int.bmod x (2 ^ 32) % capacity field.length =
      x % capacity field.length := by
    rw [← Int.emod_emod_of_dvd _ hdvd, Int.bmod_emod, Int.emod_emod_of_dvd _ hdvd]
  refine bytes_of_value_eq (Int.ofNat_inj.1 ?_)
  calc (value field : Int)
      = value field % capacity field.length := by
        rw [← Int.natCast_emod, Nat.mod_eq_of_lt (value_lt field)]
    _ = signed field % capacity field.length := Int.bmod_emod.symm
    _ = (Int32.ofInt (signed field)).toInt % capacity field.length := by
        rw [Int32.toInt_ofInt]
        exact (hresidue _).symm
    _ = _ := by rw [toInt_eq_bmod, hresidue, Int.natCast_emod]

/-- The range of a signed field. -/
theorem signed_mem_range (field : List UInt8) :
    -(capacity field.length : Int) ≤ signed field * 2 ∧
      signed field * 2 < capacity field.length := by
  have hpos : 0 < capacity field.length := Nat.zero_lt_of_lt (value_lt field)
  have hlo := Int.le_bmod (x := value field) hpos
  have hhi := Int.bmod_lt (x := value field) hpos
  rw [← signed] at hlo hhi
  omega

/-! ### Signs -/

/-- A field in the lower half of its range is not negative. -/
theorem signed_of_lt {field : List UInt8} (h : 2 * value field < capacity field.length) :
    signed field = value field := by
  have hpos : 0 ≤ (value field : Int) := Int.natCast_nonneg _
  refine Int.bmod_eq_of_le_mul_two ?_ ?_ <;> omega

/-- A field in the upper half of its range is negative. -/
theorem signed_neg_of_le {field : List UInt8} (h : capacity field.length ≤ 2 * value field) :
    signed field < 0 := by
  have hlt := value_lt field
  have hmod : (value field : Int) % (capacity field.length : Int) = value field :=
    Int.emod_eq_of_lt (Int.natCast_nonneg _) (Int.ofNat_lt.2 hlt)
  rw [signed, Int.bmod_def, hmod, if_neg (by omega)]
  omega

end DeltaPack.LittleEndian
