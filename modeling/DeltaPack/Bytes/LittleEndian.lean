/-!
# Little-endian bytes of naturals

Every fixed-width field of the pre-coded stream and of the compressed containers is the
little-endian form of a natural number.

* `LittleEndian.bytes w n` is the low `w` bytes of `n`, least significant byte first;
  `LittleEndian.value` reads any run of bytes back. The round trip is `value_bytes`: reading
  what was written gives `n` modulo `LittleEndian.capacity w`, the number of values of `w` bytes.
* `LittleEndian.signed` reads the same bytes in two's complement, so that a one-, two- or
  four-byte field is sign-extended from its own width.
-/

namespace DeltaPack.LittleEndian

/-- The low `width` bytes of a natural number, least significant first; higher bytes are
dropped. -/
def bytes : Nat → Nat → List UInt8
  | 0, _ => []
  | width + 1, n => UInt8.ofNat n :: bytes width (n / 256)

/-- The natural number with the given little-endian bytes. -/
def value : List UInt8 → Nat
  | [] => 0
  | b :: rest => b.toNat + 256 * value rest

/-- The number of values that so many bytes can tell apart. -/
def capacity : Nat → Nat
  | 0 => 1
  | width + 1 => 256 * capacity width

/-- The two's-complement integer with the given little-endian bytes: the representative of
`value` in the balanced range of its own width. -/
def signed (field : List UInt8) : Int :=
  Int.bmod (value field) (capacity field.length)

@[simp]
theorem length_bytes (width n : Nat) : (bytes width n).length = width := by
  induction width generalizing n with
  | zero => rfl
  | succ width ih => simp [bytes, ih]

/-- Reading back what was written keeps exactly the bytes that fit. -/
theorem value_bytes (width n : Nat) : value (bytes width n) = n % capacity width := by
  induction width generalizing n with
  | zero => simp [bytes, value, capacity, Nat.mod_one]
  | succ width ih =>
    rw [bytes, value, ih, capacity, Nat.mod_mul]
    simp

theorem value_lt (field : List UInt8) : value field < capacity field.length := by
  induction field with
  | nil => simp [value, capacity]
  | cons b rest ih =>
    have hb : b.toNat < 256 := b.toNat_lt
    simp only [value, List.length_cons, capacity]
    omega

end DeltaPack.LittleEndian
