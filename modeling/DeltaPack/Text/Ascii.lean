/-!
# ASCII text as bytes

Documents are read and written as bytes. Their fixed parts are ASCII, one byte to a character.
-/

namespace DeltaPack.Text

/-- The bytes of a text whose characters are all ASCII. -/
def ascii (text : String) : List UInt8 := text.toList.map Char.toUInt8

/-- A natural number in decimal. -/
def decimal (n : Nat) : List UInt8 := (Nat.toDigits 10 n).map Char.toUInt8

/-- An integer in decimal, with a minus sign in front of a negative one. -/
def signedDecimal : Int → List UInt8
  | .ofNat n => decimal n
  | .negSucc n => '-'.toUInt8 :: decimal (n + 1)

end DeltaPack.Text
