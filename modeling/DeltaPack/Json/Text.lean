import DeltaPack.Json.Reader

/-!
# Strings of a document

A string is scanned one byte at a time by a small machine, `Scan`, whose states say what an escape
still lacks. A strict scan yields the bytes the string stands for and demands that surrogates come
in pairs. A lax scan is for strings that nobody asked for: it passes over lone surrogates, and it
stops before a control character rather than behind it.
-/

namespace DeltaPack.Json

/-- Where a scan stands inside a string. -/
inductive Scan where
  /-- Between characters. -/
  | plain
  /-- Behind a backslash. -/
  | escape
  /-- Behind `\u` and some of its digits, which stand last first, perhaps with a leading surrogate
  in front. -/
  | hex (leading : Option Nat) (digits : List Char)
  /-- Behind a leading surrogate, before the backslash of the trailing one. -/
  | surrogate (leading : Nat)
  /-- Behind that backslash. -/
  | surrogateEscape (leading : Nat)
  deriving DecidableEq, Repr

/-- What a byte does to a scan. -/
inductive ScanStep where
  /-- The scan goes on, and the string has more bytes. -/
  | more (next : Scan) (bytes : List UInt8)
  /-- The string ends. -/
  | done
  /-- The string is malformed with this byte. -/
  | failed (cause : Cause)
  /-- The string is malformed before this byte, which is not read. -/
  | stopped (cause : Cause)

/-- The value of a hexadecimal digit. -/
def hexDigit? (c : Char) : Option Nat :=
  if '0' ≤ c ∧ c ≤ '9' then some (c.toNat - '0'.toNat)
  else if 'a' ≤ c ∧ c ≤ 'f' then some (c.toNat - 'a'.toNat + 10)
  else if 'A' ≤ c ∧ c ≤ 'F' then some (c.toNat - 'A'.toNat + 10)
  else none

/-- The value of four hexadecimal digits. -/
def hexValue? (digits : List Char) : Option Nat :=
  digits.foldlM (fun value c => (hexDigit? c).map (16 * value + ·)) 0

/-- The character of a short escape. -/
def shortEscape? : Char → Option Char
  | '"' => some '"'
  | '\\' => some '\\'
  | '/' => some '/'
  | 'b' => some '\x08'
  | 'f' => some '\x0c'
  | 'n' => some '\n'
  | 'r' => some '\r'
  | 't' => some '\t'
  | _ => none

/-- The bytes of a code point in UTF-8. -/
def utf8 (code : Nat) : List UInt8 := String.utf8EncodeChar (Char.ofNat code)

/-- Whether a code unit leads a surrogate pair. -/
def isLeading (unit : Nat) : Bool := 0xD800 ≤ unit && unit ≤ 0xDBFF

/-- Whether a code unit trails in a surrogate pair. -/
def isTrailing (unit : Nat) : Bool := 0xDC00 ≤ unit && unit ≤ 0xDFFF

/-- The code point of a surrogate pair. -/
def pairCode (leading trailing : Nat) : Nat :=
  0x10000 + (leading - 0xD800) * 0x400 + (trailing - 0xDC00)

/-- What a strict scan makes of a code unit. -/
def unitStep : (leading : Option Nat) → (unit : Nat) → ScanStep
  | none, unit =>
    if isTrailing unit then .failed .loneSurrogate
    else if isLeading unit then .more (.surrogate unit) []
    else .more .plain (utf8 unit)
  | some leading, unit =>
    if isTrailing unit then .more .plain (utf8 (pairCode leading unit))
    else .failed .loneSurrogate

/-- What the next byte does to a scan. -/
def Scan.step (strict : Bool) (scan : Scan) (byte : UInt8) : ScanStep :=
  let c := Char.ofUInt8 byte
  match scan with
  | .plain =>
    if c = '"' then .done
    else if c = '\\' then .more .escape []
    else if byte < 32 then
      if strict then .failed .controlCharacter else .stopped .controlCharacter
    else .more .plain [byte]
  | .escape =>
    if c = 'u' then .more (.hex none []) []
    else
      match shortEscape? c with
      | some character => .more .plain [character.toUInt8]
      | none => .failed .invalidEscape
  | .hex leading digits =>
    if digits.length < 3 then .more (.hex leading (c :: digits)) []
    else
      match hexValue? (c :: digits).reverse with
      | none => .failed .invalidEscape
      | some unit => if strict then unitStep leading unit else .more .plain []
  | .surrogate leading =>
    if c = '\\' then .more (.surrogateEscape leading) [] else .failed .incompletePair
  | .surrogateEscape leading =>
    if c = 'u' then .more (.hex (some leading) []) [] else .failed .incompletePair

namespace Reader

/-- Scans to the end of a string, behind the bytes found so far, which stand last first. -/
def scanString (strict : Bool) : Scan → (found : List UInt8) → Reader (List UInt8)
  | _, _, [] => .error ⟨.ended .string, some 0⟩ []
  | scan, found, byte :: rest =>
    match scan.step strict byte with
    | .more scan bytes => scanString strict scan (bytes.reverse ++ found) rest
    | .done => .ok found.reverse rest
    | .failed cause => .error ⟨cause, some rest.length⟩ rest
    | .stopped cause => .error ⟨cause, some (rest.length + 1)⟩ (byte :: rest)

/-- The bytes of a string whose quote was consumed. -/
def string : Reader (List UInt8) := scanString true .plain []

/-- Passes over a string whose quote was consumed. -/
def skimString : Reader Unit := do
  let _ ← scanString false .plain []

/-- The bytes of a key, whose quote comes next. -/
def key : Reader (List UInt8) := do
  skip
  string

end Reader

end DeltaPack.Json
