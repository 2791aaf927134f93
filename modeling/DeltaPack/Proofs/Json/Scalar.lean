import DeltaPack.Json.Value
import DeltaPack.Proofs.Json.Token

/-!
# Scalars read back

Inside brackets a mark follows every value, so a reader `Reads` a value if it takes its tokens
before any mark. Strings of plain characters are read back, and so are integers: those that
`Reader.int32` asks for always, and those that `Reader.size` asks for as long as they fit in 64
bits.
-/

namespace DeltaPack.Json

/-! ### Integers -/

/-- An integer that was kept still is the signed 32-bit integer that was written. -/
theorem Found.toInt32_toInt (x : Int32) : (Found.integer x.toInt).toInt32 = .ok x := by
  rw [toInt32, if_pos ⟨x.le_toInt, x.toInt_lt⟩, Int32.ofInt_toInt]

/-! ### Strings -/

/-- Whether a byte stands for itself in a string: it is no control character, quote or
backslash. -/
def isPlain (byte : UInt8) : Bool := 32 ≤ byte && byte != 34 && byte != 92

theorem Scan.step_plain {byte : UInt8} (h : isPlain byte = true) (strict : Bool) :
    Scan.step strict .plain byte = .more .plain [byte] := by
  rw [isPlain, Bool.and_eq_true, Bool.and_eq_true, decide_eq_true_iff, bne_iff_ne, bne_iff_ne] at h
  obtain ⟨⟨hlo, hquote⟩, hbackslash⟩ := h
  have hvalue : (Char.ofUInt8 byte).toNat = byte.toNat := rfl
  have hnotQuote : Char.ofUInt8 byte ≠ '"' := fun hc => by
    rw [hc] at hvalue
    exact hquote (UInt8.toNat_inj.1 hvalue.symm)
  have hnotBackslash : Char.ofUInt8 byte ≠ '\\' := fun hc => by
    rw [hc] at hvalue
    exact hbackslash (UInt8.toNat_inj.1 hvalue.symm)
  rw [Scan.step, if_neg hnotQuote, if_neg hnotBackslash, if_neg (UInt8.not_lt.2 hlo)]

namespace Reader

variable {α : Type}

/-- Plain bytes are scanned up to the quote behind them. -/
theorem runs_scanString {bytes : List UInt8} (h : bytes.all isPlain = true)
    (found rest : List UInt8) :
    Runs (scanString true .plain found) (bytes ++ '"'.toUInt8 :: rest) (found.reverse ++ bytes)
      rest := by
  induction bytes generalizing found with
  | nil =>
    rw [List.nil_append, List.append_nil]
    rfl
  | cons byte bytes ih =>
    rw [List.all_cons, Bool.and_eq_true] at h
    obtain ⟨hbyte, hothers⟩ := h
    have hrun := ih hothers (byte :: found)
    rw [List.reverse_cons, List.append_assoc, List.singleton_append] at hrun
    rw [Runs, List.cons_append, scanString, Scan.step_plain hbyte]
    exact hrun

/-- A key, from its quote on, is the text of its string. -/
theorem takes_key {text : String} (h : (Text.ascii text).all isPlain = true)
    (tokens : List Token) :
    Takes key (Flush (.string text) tokens) (Text.ascii text) (Spaced tokens) := by
  rintro _ ⟨rest, rfl, htail⟩
  have hskip : Runs skip ((Token.string text).bytes ++ rest) ()
      (Text.ascii text ++ '"'.toUInt8 :: rest) := by
    rw [Token.bytes, List.cons_append, List.append_assoc]
    rfl
  exact ⟨rest, hskip.bind (runs_scanString h [] rest), htail⟩

/-! ### Values looked at -/

/-- A string is found with its text. -/
theorem takes_found_string {text : String} (h : (Text.ascii text).all isPlain = true)
    (tokens : List Token) :
    Takes found (Spaced (.string text :: tokens)) (.string (Text.ascii text)) (Spaced tokens) := by
  have hkey : Takes (do let text ← key; return Found.string text)
      (Flush (.string text) tokens) (.string (Text.ascii text)) (Spaced tokens) :=
    (takes_key h tokens).bind (.pure _ _)
  exact (takes_token?_of_first? (Token.first?_string text) tokens).bind hkey

/-- The brace of an object is only seen. -/
theorem takes_found_openBrace (tokens : List Token) :
    Takes found (Spaced (.mark .openBrace :: tokens)) .map (Flush (.mark .openBrace) tokens) :=
  (takes_token?_mark .openBrace tokens).bind (.pure _ _)

/-- The bracket of a list is only seen. -/
theorem takes_found_openBracket (tokens : List Token) :
    Takes found (Spaced (.mark .openBracket :: tokens)) .sequence
      (Flush (.mark .openBracket) tokens) :=
  (takes_token?_mark .openBracket tokens).bind (.pure _ _)

/-- A natural number in 64 bits is found before a mark. -/
theorem takes_found_natural {n : Nat} (h : n ≤ maxSignificand) (m : Mark) (tokens : List Token) :
    Takes found (Spaced (.integer n :: .mark m :: tokens)) (.integer n)
      (Spaced (.mark m :: tokens)) := by
  obtain ⟨c, hdigit, hfirst⟩ := Token.exists_first?_natural n
  have hother (d : Char) (hd : d.isDigit = false) : some c ≠ some d := by
    rintro ⟨⟩
    rw [hd] at hdigit
    exact Bool.noConfusion hdigit
  refine (takes_token?_of_first? hfirst _).bind ?_
  split
  · next hc => exact absurd hc (Option.some_ne_none c)
  -- no other value begins with a digit
  iterate 7
    · next hc => exact absurd hc (hother _ rfl)
  · next hc =>
    cases hc
    rw [digit?_of_isDigit hdigit, if_pos Option.isSome_some]
    rintro _ ⟨rest, rfl, htail⟩
    exact ⟨rest, (runs_number (endsNumber_of_spaced htail) h false).bind (.pure _ _), htail⟩

/-- A negative number in 64 bits is found before a mark. -/
theorem takes_found_negative {n : Nat} (h : n < 0x8000000000000000) (m : Mark)
    (tokens : List Token) :
    Takes found (Spaced (.integer (.negSucc n) :: .mark m :: tokens)) (.integer (.negSucc n))
      (Spaced (.mark m :: tokens)) := by
  have hwhole : (wholeNumber true (n + 1)).found = .integer (.negSucc n) := by
    rw [wholeNumber, if_neg (by decide), if_pos ⟨Nat.le_add_left 1 n, h⟩]
    rfl
  have hnumber : Takes (do skip; return (← number true).found)
      (Flush (.integer (.negSucc n)) (.mark m :: tokens)) (.integer (.negSucc n))
      (Spaced (.mark m :: tokens)) := by
    rintro _ ⟨rest, rfl, htail⟩
    have hskip : Runs skip ((Token.integer (.negSucc n)).bytes ++ rest) ()
        (Text.decimal (n + 1) ++ rest) := rfl
    have hrun := runs_number (endsNumber_of_spaced htail) (n := n + 1)
      (by rw [maxSignificand]; omega) true
    have hfound := hrun.bind (f := fun x => pure x.found) (.pure _ _)
    rw [hwhole] at hfound
    exact ⟨rest, hskip.bind hfound, htail⟩
  exact (takes_token?_of_first? (Token.first?_negative n) _).bind hnumber

/-! ### Values read -/

/-- A reader **reads** the tokens of a value, whatever mark follows them. -/
def Reads (r : Reader α) (value : List Token) (a : α) : Prop :=
  ∀ m following,
    Takes r (Spaced (value ++ .mark m :: following)) a (Spaced (.mark m :: following))

/-- The integers in 64 bits, signed or not, are found before any mark. -/
theorem reads_found_integer {n : Int} (hlo : -0x8000000000000000 ≤ n)
    (hhi : n ≤ 0xFFFFFFFFFFFFFFFF) : Reads found [.integer n] (.integer n) := by
  intro m following
  cases n with
  | ofNat n => exact takes_found_natural (Int.ofNat_le.1 hhi) m following
  | negSucc n => exact takes_found_negative (by omega) m following

theorem reads_found_int32 (x : Int32) : Reads found [.integer x.toInt] (.integer x.toInt) := by
  have hlo := x.le_toInt
  have hhi := x.toInt_lt
  exact reads_found_integer (by omega) (by omega)

/-- **Every signed 32-bit integer is read back.** -/
theorem reads_int32 (x : Int32) : Reads int32 [.integer x.toInt] x := fun m following =>
  ((reads_found_int32 x m following).bind (.lift (Found.toInt32_toInt x) _)).placed

/-- **Every size is read back.** -/
theorem reads_size {n : Nat} (h : n < 2 ^ 64) : Reads size [.integer n] n := by
  intro m following
  have hvalue : (Found.integer n).toSize = .ok n := if_pos ⟨Int.natCast_nonneg n, by omega⟩
  have hfound := reads_found_integer (n := n) (by omega) (by omega)
  exact ((hfound m following).bind (.lift hvalue _)).placed

/-- A signed 32-bit integer is kept also if nobody asked for it. -/
theorem reads_anyValue_int32 (x : Int32) (levels : Nat) :
    Reads (anyValue levels) [.integer x.toInt] (.integer x.toInt) := by
  intro m following
  rw [anyValue.eq_def]
  refine ((reads_found_int32 x m following).bind ?_).placed
  exact .pure _ _

end Reader

end DeltaPack.Json
