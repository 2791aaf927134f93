/-!
# Shortest decimals

A binary floating-point number stands for all reals that round to it. `Decimal.shortest` is the
decimal of fewest digits among them, and of two such decimals the one nearer to the number. It
is found by exact arithmetic: for one digit, two digits and so on, the number's two neighbours on
the grid of that many digits are tested.
-/

namespace DeltaPack

/-- The number `digits * 10 ^ exponent`. -/
structure Decimal where
  /-- The digits, as one natural number. -/
  digits : Nat
  /-- The power of ten they are scaled by. -/
  exponent : Int
  deriving DecidableEq, Repr

namespace Decimal

/-- The factor between places of a decimal. -/
def tens (places : Nat) : Nat := Nat.pow 10 places

/-- A finite positive floating-point number and the interval of reals that round to it, as
numerators over one denominator. -/
structure Neighbourhood where
  /-- The lower end. -/
  low : Nat
  /-- The number. -/
  value : Nat
  /-- The upper end. -/
  high : Nat
  /-- The denominator of all three. -/
  scale : Nat
  /-- Whether the ends round to the number. -/
  closed : Bool

/-- The neighbourhood of `significand * 2 ^ exponent`. Below a power of two the numbers lie twice
as close, unless they are subnormal. -/
def Neighbourhood.ofParts (significand : Nat) (exponent : Int) (atPower : Bool) :
    Neighbourhood :=
  let unit := Nat.pow 2 (exponent - 2).toNat
  { low := (4 * significand - if atPower then 1 else 2) * unit
    value := 4 * significand * unit
    high := (4 * significand + 2) * unit
    scale := Nat.pow 2 (2 - exponent).toNat
    closed := significand % 2 == 0 }

/-- The bit that a significand has in front of those that are stored. -/
def hiddenBit : Nat := 0x10000000000000

/-- The neighbourhood of the absolute value of a finite number that is not zero. -/
def Neighbourhood.ofFloat (x : Float) : Neighbourhood :=
  let bits : Nat := x.toBits.toNat
  let fraction : Nat := bits % hiddenBit
  let biased : Nat := bits / hiddenBit % 2048
  if biased = 0 then .ofParts fraction (-1074) false
  else .ofParts (hiddenBit + fraction) (biased - 1075 : Int) (fraction == 0 && biased != 1)

/-- The number of decimal digits of a positive natural number. -/
def width (n : Nat) : Nat := (Nat.toDigits 10 n).length

/-- The power of ten just above a positive fraction. -/
def magnitude (value scale : Nat) : Int :=
  if scale ≤ value then width (value / scale) else 1 - (width ((scale - 1) / value) : Int)

/-- Whether a decimal lies in a neighbourhood. -/
def Neighbourhood.holds (n : Neighbourhood) (d : Decimal) : Bool :=
  let lifted := d.digits * tens d.exponent.toNat * n.scale
  let unit := tens (-d.exponent).toNat
  if n.closed then n.low * unit ≤ lifted && lifted ≤ n.high * unit
  else n.low * unit < lifted && lifted < n.high * unit

/-- The decimal in a neighbourhood with the given number of digits that is nearest to the number,
if there is one. -/
def Neighbourhood.onGrid (n : Neighbourhood) (digits : Nat) : Option Decimal :=
  let exponent := magnitude n.value n.scale - digits
  let unit := tens exponent.toNat * n.scale
  let value := n.value * tens (-exponent).toNat
  let below : Decimal := ⟨value / unit, exponent⟩
  let above : Decimal := ⟨value / unit + 1, exponent⟩
  let rest := value % unit
  match n.holds below, n.holds above with
  | true, true =>
    let upwards := unit < 2 * rest || (unit == 2 * rest && below.digits % 2 == 1)
    some (if upwards then above else below)
  | true, false => some below
  | false, true => some above
  | false, false => none

/-- The decimal of fewest digits in a neighbourhood, from the given number of digits on. -/
def Neighbourhood.fewest (n : Neighbourhood) : (grids digits : Nat) → Option Decimal
  | 0, _ => none
  | grids + 1, digits =>
    match n.onGrid digits with
    | some d => some d
    | none => n.fewest grids (digits + 1)

/-- The same number with a last digit that is not zero, as far as one zero goes. A neighbour
above may have one digit more than its grid, and is then a power of ten. -/
def dropZero (d : Decimal) : Decimal :=
  if d.digits ≠ 0 ∧ d.digits % 10 = 0 then ⟨d.digits / 10, d.exponent + 1⟩ else d

/-- The shortest decimal that rounds to the absolute value of a finite number. Seventeen digits
are always enough. -/
def shortest (x : Float) : Decimal :=
  if x == 0 then ⟨0, 0⟩ else (((Neighbourhood.ofFloat x).fewest 17 1).getD ⟨0, 0⟩).dropZero

end Decimal

end DeltaPack
