import DeltaPack.Json.Reader

/-!
# Numbers of a document

A number without a fraction and an exponent is an integer if it fits in 64 bits, signed or not;
every other number, and minus zero, is floating-point. Its significand holds as many digits as fit
in 64 bits; from the first digit that does not fit on, digits of the whole part only scale it, and
digits of the fraction are dropped.
-/

namespace DeltaPack.Json

/-- A number of a document. -/
inductive Number where
  | integer (value : Int)
  | float (value : Float)

/-- The number as a value met in a document. -/
def Number.found : Number → Found
  | .integer value => .integer value
  | .float value => .float value

/-- The value of a decimal digit. -/
def digit? (c : Char) : Option Nat :=
  if '0' ≤ c ∧ c ≤ '9' then some (c.toNat - '0'.toNat) else none

/-- The largest significand. -/
def maxSignificand : Nat := 0xFFFFFFFFFFFFFFFF

/-- The largest exponent. -/
def maxExponent : Nat := 0x7FFFFFFF

/-- A natural number with a sign, without fraction and exponent. -/
def wholeNumber (negative : Bool) (significand : Nat) : Number :=
  if !negative then .integer significand
  else if 1 ≤ significand ∧ significand ≤ 0x8000000000000000 then .integer (-significand)
  else .float (-significand.toUInt64.toFloat)

/-! ### Scaling -/

/-- A power of ten. -/
def tenTo (places : Nat) : Float := Float.ofScientific 1 false places

/-- The largest exponent of ten in range. -/
def maxPlaces : Nat := 308

/-- A float divided by a power of ten, in steps that are in range. -/
def shrink (x : Float) (places : Nat) : Float :=
  if places ≤ maxPlaces then x / tenTo places
  else if x == 0 then x
  else shrink (x / tenTo maxPlaces) (places - maxPlaces)
termination_by places
decreasing_by simp only [maxPlaces] at *; omega

/-- A significand scaled by a power of ten, if it is in range. -/
def scaled? (significand : Nat) (exponent : Int) : Option Float :=
  let x := significand.toUInt64.toFloat
  if exponent < 0 then some (shrink x exponent.natAbs)
  else if exponent.toNat ≤ maxPlaces then
    let y := x * tenTo exponent.toNat
    if y.isInf then none else some y
  else if x == 0 then some x
  else none

namespace Reader

/-- Appends the digits that follow to a number as long as it stays within a limit: the number, and
how many digits it took. -/
def digitsWithin (limit : Nat) : (value taken : Nat) → Reader (Nat × Nat)
  | value, taken, [] => .ok (value, taken) []
  | value, taken, byte :: rest =>
    match digit? (Char.ofUInt8 byte) with
    | none => .ok (value, taken) (byte :: rest)
    | some digit =>
      if 10 * value + digit ≤ limit then digitsWithin limit (10 * value + digit) (taken + 1) rest
      else .ok (value, taken) (byte :: rest)

/-- Passes over digits: how many there were. -/
def skipDigits : Reader Nat := fun rest =>
  let isDigit := fun byte : UInt8 => (digit? (Char.ofUInt8 byte)).isSome
  .ok (rest.takeWhile isDigit).length (rest.dropWhile isDigit)

/-- The float of a significand and an exponent, with a sign. -/
def finishFloat (negative : Bool) (significand : Nat) (exponent : Int) : Reader Float :=
  match scaled? significand exponent with
  | none => failHere .numberOutOfRange
  | some x => return if negative then -x else x

/-- The exponent, whose letter comes next, and with it the float. -/
def exponent (negative : Bool) (significand : Nat) (start : Int) : Reader Float := do
  skip
  let sign ← peek?
  if sign = some '+' ∨ sign = some '-' then skip
  match ← next? with
  | none => failHere (.ended .value)
  | some c =>
    match digit? c with
    | none => failHere .invalidNumber
    | some digit => do
      let (power, _) ← digitsWithin maxExponent digit 0
      if ((← peek?).bind digit?).isSome then
        skip
        if significand ≠ 0 ∧ sign ≠ some '-' then failHere .numberOutOfRange
        else
          let _ ← skipDigits
          return if negative then -0.0 else 0.0
      else
        finishFloat negative significand (if sign = some '-' then start - power else start + power)

/-- What follows the digits of a float: an exponent or nothing. -/
def exponentOrEnd (negative : Bool) (significand : Nat) (start : Int) : Reader Float := do
  match ← peek? with
  | some 'e' | some 'E' => exponent negative significand start
  | _ => finishFloat negative significand start

/-- The fraction, whose point comes next, and with it the float. -/
def fraction (negative : Bool) (significand : Nat) (start : Int) : Reader Float := do
  skip
  let (significand, taken) ← digitsWithin maxSignificand significand 0
  let dropped ← skipDigits
  if taken + dropped = 0 then
    match ← peek? with
    | some _ => failAhead .invalidNumber
    | none => failAhead (.ended .value)
  else exponentOrEnd negative significand (start - taken)

/-- What follows the whole part of a number. -/
def afterWhole (negative : Bool) (significand ignored : Nat) : Reader Number := do
  match ← peek? with
  | some '.' => return .float (← fraction negative significand ignored)
  | some 'e' | some 'E' => return .float (← exponent negative significand ignored)
  | _ =>
    if ignored = 0 then return wholeNumber negative significand
    else return .float (← finishFloat negative significand ignored)

/-- A number whose sign was consumed. -/
def number (negative : Bool) : Reader Number := do
  match ← next? with
  | none => failHere (.ended .value)
  | some c =>
    match digit? c with
    | none => failHere .invalidNumber
    | some 0 =>
      if ((← peek?).bind digit?).isSome then failAhead .invalidNumber
      else afterWhole negative 0 0
    | some digit => do
      let (significand, _) ← digitsWithin maxSignificand digit 0
      let ignored ← skipDigits
      afterWhole negative significand ignored

/-! ### Passing over numbers -/

/-- Passes over an exponent, whose letter comes next. -/
def skimExponent : Reader Unit := do
  skip
  let sign ← peek?
  if sign = some '+' ∨ sign = some '-' then skip
  if ((← next?).bind digit?).isSome then
    let _ ← skipDigits
  else failHere .invalidNumber

/-- Passes over a fraction, whose point comes next, and an exponent. -/
def skimFraction : Reader Unit := do
  skip
  if (← skipDigits) = 0 then failAhead .invalidNumber
  else
    match ← peek? with
    | some 'e' | some 'E' => skimExponent
    | _ => return

/-- Passes over a number whose sign was consumed. -/
def skimNumber : Reader Unit := do
  match (← next?).bind digit? with
  | none => failHere .invalidNumber
  | some digit => do
    if digit = 0 then
      if ((← peek?).bind digit?).isSome then failAhead .invalidNumber
    else
      let _ ← skipDigits
    match ← peek? with
    | some '.' => skimFraction
    | some 'e' | some 'E' => skimExponent
    | _ => return

end Reader

end DeltaPack.Json
