import DeltaPack.Bytes.LittleEndian

/-!
# Tags and residuals

Every difference of a pre-coded list carries a two-bit tag that says how it is stored: as the
stream's common difference, or in the narrowest of one, two or four bytes that holds it in
two's complement. Four tags share a byte, the first in its lowest bits.
-/

namespace DeltaPack.Precoded

/-- How one difference is represented among the residuals. -/
inductive Tag where
  /-- It is the stream's common difference and has no residual. -/
  | common
  /-- It fits in one signed byte. -/
  | one
  /-- It fits in two signed bytes. -/
  | two
  /-- It takes four bytes. -/
  | four
  deriving DecidableEq, Repr

namespace Tag

/-- The two-bit code. -/
def code : Tag → Nat
  | common => 0
  | one => 1
  | two => 2
  | four => 3

/-- The tag whose code stands in the low two bits. -/
def ofBits (bits : Nat) : Tag :=
  match bits % 4 with
  | 0 => common
  | 1 => one
  | 2 => two
  | _ => four

@[simp]
theorem ofBits_code (tag : Tag) : ofBits tag.code = tag := by
  cases tag <;> rfl

/-- The number of residual bytes. -/
def residualSize : Tag → Nat
  | common => 0
  | one => 1
  | two => 2
  | four => 4

/-- The tag of a difference. Equality with the common difference wins over magnitude; otherwise
the narrowest width that holds the difference. -/
def classify (common delta : Int32) : Tag :=
  if delta = common then .common
  else if -128 ≤ delta.toInt ∧ delta.toInt ≤ 127 then one
  else if -32768 ≤ delta.toInt ∧ delta.toInt ≤ 32767 then two
  else four

/-- The residual of a difference: as many of its low bytes as its tag allows. -/
def residual (common delta : Int32) : List UInt8 :=
  LittleEndian.bytes (classify common delta).residualSize delta.toUInt32.toNat

/-- The difference that a tag and its residual stand for. -/
def delta (common : Int32) : Tag → List UInt8 → Int32
  | .common, _ => common
  | _, field => Int32.ofInt (LittleEndian.signed field)

/-! ### Four tags to a byte -/

/-- Four tags in one byte, the first in its lowest bits. -/
def packByte (a b c d : Tag) : UInt8 :=
  UInt8.ofNat (a.code + 4 * b.code + 16 * c.code + 64 * d.code)

/-- The tag region of a list of tags; slots after the last tag are zero, which is the code of
the common difference. -/
def pack : List Tag → List UInt8
  | a :: b :: c :: d :: rest => packByte a b c d :: pack rest
  | [a, b, c] => [packByte a b c common]
  | [a, b] => [packByte a b common common]
  | [a] => [packByte a common common common]
  | [] => []

/-- The four tags of a byte. -/
def unpackByte (byte : UInt8) : List Tag :=
  [ofBits byte.toNat, ofBits (byte.toNat / 4), ofBits (byte.toNat / 16), ofBits (byte.toNat / 64)]

/-- The first `count` tags of a tag region. -/
def unpack (count : Nat) (region : List UInt8) : List Tag :=
  (region.flatMap unpackByte).take count

end Tag

end DeltaPack.Precoded
