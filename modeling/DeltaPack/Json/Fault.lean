import DeltaPack.Decimal.Shortest
import DeltaPack.Text.Quoted

/-!
# Faults of a document

A document that is not what was asked for is refused with a cause and a place. The place is a
line and a column in bytes, both of the last byte that was read or looked at: lines count from
one, and column zero means that nothing of the line was read.

`Found` is what a message tells of a value that stands in the wrong place.
-/

namespace DeltaPack.Json

/-- A value as far as a message tells of it. -/
inductive Found where
  | null
  | boolean (value : Bool)
  | integer (value : Int)
  | float (value : Float)
  | string (text : List UInt8)
  | sequence
  | map

/-- The characters of bytes in UTF-8; no text if they are malformed. -/
def textOf (bytes : List UInt8) : String :=
  (String.fromUTF8? ⟨bytes.toArray⟩).getD ""

/-! ### The layout of a floating-point number -/

/-- Digits with a decimal point in front of the place given, or zeros as far as it is outside
the digits. There is always a digit on both sides. -/
def positional (digits : List Char) (point : Int) : List Char :=
  if point ≤ 0 then
    '0' :: '.' :: (List.replicate (-point).toNat '0' ++ digits)
  else if digits.length ≤ point then
    digits ++ List.replicate (point.toNat - digits.length) '0' ++ ['.', '0']
  else digits.take point.toNat ++ '.' :: digits.drop point.toNat

/-- Digits in scientific notation, with a sign before the exponent. -/
def scientific (digits : List Char) (point : Int) : List Char :=
  let exponent := point - 1
  let fraction := if digits.length ≤ 1 then [] else '.' :: digits.drop 1
  digits.take 1 ++ fraction ++ ['e', if exponent < 0 then '-' else '+'] ++
    Nat.toDigits 10 exponent.natAbs

/-- The shortest text of a finite number. Numbers from `0.00001` up to sixteen digits before the
point are written in positional notation. -/
def floatText (x : Float) : String :=
  let d := Decimal.shortest x
  let digits := Nat.toDigits 10 d.digits
  let point := d.exponent + digits.length
  let magnitude :=
    if -5 < point ∧ point ≤ 16 then positional digits point else scientific digits point
  String.ofList (if x.toBits.toNat < 0x8000000000000000 then magnitude else '-' :: magnitude)

/-- The wording of a value. -/
def Found.describe : Found → String
  | .null => "null"
  | .boolean value => s!"boolean `{value}`"
  | .integer value => s!"integer `{value}`"
  | .float value => "floating point `" ++ floatText value ++ "`"
  | .string text => "string " ++ Text.quoted (textOf text)
  | .sequence => "sequence"
  | .map => "map"

/-! ### Causes -/

/-- A part of a document that can be cut short. -/
inductive Part where
  | value
  | object
  | list
  | string
  deriving DecidableEq, Repr

/-- The name of a part with its article. -/
def Part.name : Part → String
  | .value => "a value"
  | .object => "an object"
  | .list => "a list"
  | .string => "a string"

/-- Why a document is refused. -/
inductive Cause where
  /-- The document ends inside a part. -/
  | ended (part : Part)
  | expectedValue
  | expectedIdent
  | expectedColon
  | expectedCommaOrBrace
  | expectedCommaOrBracket
  | keyNotString
  | trailingComma
  | trailingCharacters
  | invalidNumber
  | numberOutOfRange
  | invalidEscape
  | controlCharacter
  | loneSurrogate
  | incompletePair
  | tooDeep
  | missingField (name : String)
  | duplicateField (name : String)
  | unknownVariant (text : List UInt8) (variants : List String)
  | invalidType (found : Found) (expected : String)
  | invalidValue (found : Found) (expected : String)
  | invalidLength (length : Nat) (expected : String)

/-- A name between grave accents. -/
def accented (name : String) : String := s!"`{name}`"

/-- The wording of a cause. -/
def Cause.message : Cause → String
  | .ended part => "EOF while parsing " ++ part.name
  | .expectedValue => "expected value"
  | .expectedIdent => "expected ident"
  | .expectedColon => "expected `:`"
  | .expectedCommaOrBrace => "expected `,` or `\x7d`"
  | .expectedCommaOrBracket => "expected `,` or `]`"
  | .keyNotString => "key must be a string"
  | .trailingComma => "trailing comma"
  | .trailingCharacters => "trailing characters"
  | .invalidNumber => "invalid number"
  | .numberOutOfRange => "number out of range"
  | .invalidEscape => "invalid escape"
  | .controlCharacter => "control character (\\u0000-\\u001F) found while parsing a string"
  | .loneSurrogate => "lone leading surrogate in hex escape"
  | .incompletePair => "unexpected end of hex escape"
  | .tooDeep => "recursion limit exceeded"
  | .missingField name => "missing field " ++ accented name
  | .duplicateField name => "duplicate field " ++ accented name
  | .unknownVariant text variants =>
    "unknown variant " ++ accented (textOf text) ++ ", expected " ++
      " or ".intercalate (variants.map accented)
  | .invalidType found expected => s!"invalid type: {found.describe}, expected {expected}"
  | .invalidValue found expected => s!"invalid value: {found.describe}, expected {expected}"
  | .invalidLength length expected => s!"invalid length {length}, expected {expected}"

/-! ### Places -/

/-- A place in a document. -/
structure Position where
  /-- The line, from one. -/
  line : Nat
  /-- The bytes of the line up to the place. -/
  column : Nat
  deriving DecidableEq, Repr

/-- The byte that ends a line. -/
def newline : UInt8 := 10

/-- The place behind the given number of bytes. -/
def Position.behind (document : List UInt8) (index : Nat) : Position :=
  let before := document.take index
  { line := 1 + before.count newline
    column := (before.reverse.takeWhile (· != newline)).length }

/-- A refused document: why and where. -/
structure Refusal where
  /-- Why the document is refused. -/
  cause : Cause
  /-- Where the reader stood. -/
  position : Position

/-- The sentence shown to a user. -/
def Refusal.message (refusal : Refusal) : String :=
  s!"{refusal.cause.message} at line {refusal.position.line} column {refusal.position.column}"

end DeltaPack.Json
