import DeltaPack.Proofs.Json.Run
import DeltaPack.Text.Ascii
import Mathlib.Data.Nat.Digits.Defs

/-!
# Decimal numbers read back

An integer is written without a leading zero, a fraction or an exponent, and is read back as long as
it fits in 64 bits (`Reader.runs_number`). A number has no end of its own: the reader takes digits
as long as there are any, and then looks for a point or an exponent. So the bytes behind a number
must not continue it (`EndsNumber`).
-/

namespace DeltaPack

/-! ### Digits -/

namespace Text

/-- A character of one byte is the one of its byte. -/
theorem ofUInt8_toUInt8 {c : Char} (h : c.toNat < 256) : Char.ofUInt8 c.toUInt8 = c := by
  refine Char.ext (UInt32.toNat_inj.1 ?_)
  change (c.val.toUInt8.toUInt32).toNat = c.val.toNat
  rw [UInt8.toNat_toUInt32, UInt32.toNat_toUInt8]
  exact Nat.mod_eq_of_lt h

end Text

namespace Json

theorem toNat_of_isDigit {c : Char} (h : c.isDigit = true) : 48 ≤ c.toNat ∧ c.toNat ≤ 57 := by
  rw [Char.isDigit, Bool.and_eq_true, decide_eq_true_iff, decide_eq_true_iff] at h
  exact ⟨UInt32.le_iff_toNat_le.1 h.1, UInt32.le_iff_toNat_le.1 h.2⟩

theorem digit?_of_isDigit {c : Char} (h : c.isDigit = true) :
    digit? c = some (c.toNat - '0'.toNat) := by
  obtain ⟨hlo, hhi⟩ := toNat_of_isDigit h
  refine if_pos ⟨?_, ?_⟩
  · exact UInt32.le_iff_toNat_le.2 hlo
  · exact UInt32.le_iff_toNat_le.2 hhi

/-- A digit in front, as the byte of its character. -/
theorem digit?_ofUInt8_toUInt8 {c : Char} (h : c.isDigit = true) :
    digit? (Char.ofUInt8 c.toUInt8) = some (c.toNat - '0'.toNat) := by
  have hhi := (toNat_of_isDigit h).2
  rw [Text.ofUInt8_toUInt8 (by omega), digit?_of_isDigit h]

/-- The digits of a number: none but that of zero begins with a zero. -/
theorem exists_toDigits_eq (n : Nat) :
    ∃ d digits, Nat.toDigits 10 n = d.digitChar :: digits ∧ d < 10 ∧
      (d = 0 → n = 0 ∧ digits = []) := by
  induction n using Nat.strongRecOn with
  | ind n ih =>
    rcases Nat.lt_or_ge n 10 with hlt | hge
    · exact ⟨n, [], Nat.toDigits_of_lt_base hlt, hlt, fun h => ⟨h, rfl⟩⟩
    · obtain ⟨d, digits, hdigits, hd, hzero⟩ := ih (n / 10) (by omega)
      refine ⟨d, digits ++ [(n % 10).digitChar], ?_, hd, fun h => ?_⟩
      · rw [Nat.toDigits_of_base_le (by decide) hge, hdigits, List.cons_append]
      · obtain ⟨hnone, -⟩ := hzero h
        omega

/-- Bytes that **do not continue a number** in front of them. -/
def EndsNumber (rest : List UInt8) : Prop :=
  ∀ byte ∈ rest.head?, digit? (Char.ofUInt8 byte) = none ∧ Char.ofUInt8 byte ≠ '.' ∧
    Char.ofUInt8 byte ≠ 'e' ∧ Char.ofUInt8 byte ≠ 'E'

namespace EndsNumber

variable {rest : List UInt8} (h : EndsNumber rest)

include h

theorem digit?_eq_none : (rest.head?.map Char.ofUInt8).bind digit? = none := by
  rcases hhead : rest.head? with _ | byte
  · rfl
  · exact (h byte hhead).1

theorem takeWhile_digit :
    rest.takeWhile (fun byte => (digit? (Char.ofUInt8 byte)).isSome) = [] := by
  match rest with
  | [] => rfl
  | byte :: rest => simp [(h byte rfl).1]

theorem dropWhile_digit :
    rest.dropWhile (fun byte => (digit? (Char.ofUInt8 byte)).isSome) = rest := by
  match rest with
  | [] => rfl
  | byte :: rest => simp [(h byte rfl).1]

end EndsNumber

/-! ### The reader of a number -/

namespace Reader

variable {rest : List UInt8} {limit : Nat}

/-- Digits within the limit are taken to their end. -/
theorem runs_digitsWithin {digits : List Char} (hdigits : ∀ c ∈ digits, c.isDigit = true)
    {value : Nat} (hlimit : Nat.ofDigitChars 10 digits value ≤ limit) (hrest : EndsNumber rest)
    (taken : Nat) :
    Runs (digitsWithin limit value taken) (digits.map Char.toUInt8 ++ rest)
      (Nat.ofDigitChars 10 digits value, taken + digits.length) rest := by
  induction digits generalizing value taken with
  | nil =>
    match rest with
    | [] => rfl
    | byte :: rest =>
      rw [Runs, List.map_nil, List.nil_append, digitsWithin, (hrest byte rfl).1]
      rfl
  | cons c digits ih =>
    obtain ⟨hc, hothers⟩ := List.forall_mem_cons.1 hdigits
    rw [Nat.ofDigitChars_cons] at hlimit ⊢
    -- more digits do not make a number smaller
    have hvalue : 10 * value + (c.toNat - '0'.toNat) ≤ limit := by
      rw [Nat.ofDigitChars_eq_ofDigitChars_zero] at hlimit
      have hpow : 1 ≤ 10 ^ digits.length := Nat.one_le_pow _ _ (by decide)
      have hscaled := Nat.mul_le_mul_right (10 * value + (c.toNat - '0'.toNat)) hpow
      omega
    have hrun := ih hothers hlimit (taken + 1)
    rw [Nat.add_assoc, Nat.add_comm 1] at hrun
    rw [Runs, List.map_cons, List.cons_append, digitsWithin, digit?_ofUInt8_toUInt8 hc]
    simp only [if_pos hvalue]
    exact hrun

section EndsNumber

variable (hrest : EndsNumber rest)

include hrest

theorem runs_skipDigits : Runs skipDigits rest 0 rest := by
  rw [Runs, skipDigits, hrest.takeWhile_digit, hrest.dropWhile_digit]
  rfl

/-- Behind the digits of a number that ends there, nothing is scaled. -/
theorem runs_afterWhole (negative : Bool) (significand : Nat) :
    Runs (afterWhole negative significand 0) rest (wholeNumber negative significand) rest := by
  match rest with
  | [] => rfl
  | byte :: rest =>
    obtain ⟨-, hpoint, hlower, hupper⟩ := hrest byte rfl
    have hpeek : Runs peek? (byte :: rest) (some (Char.ofUInt8 byte)) (byte :: rest) := rfl
    refine hpeek.bind ?_
    rw [if_pos rfl]
    split
    · next hc => exact absurd (Option.some.inj hc) hpoint
    · next hc => exact absurd (Option.some.inj hc) hlower
    · next hc => exact absurd (Option.some.inj hc) hupper
    · exact .pure _ _

/-- **A number in 64 bits is read back**, whatever follows that does not continue it. -/
theorem runs_number {n : Nat} (h : n ≤ maxSignificand) (negative : Bool) :
    Runs (number negative) (Text.decimal n ++ rest) (wholeNumber negative n) rest := by
  obtain ⟨d, digits, hdigits, hd, hzero⟩ := exists_toDigits_eq n
  have hall : ∀ c ∈ d.digitChar :: digits, c.isDigit = true := by
    intro c hc
    rw [← hdigits] at hc
    exact Nat.isDigit_of_mem_toDigits (by decide) (by decide) hc
  obtain ⟨hfirst, hothers⟩ := List.forall_mem_cons.1 hall
  have hvalue : Nat.ofDigitChars 10 digits d = n := by
    have hall := Nat.ofDigitChars_ten_toDigits (n := n)
    rwa [hdigits, Nat.ofDigitChars_cons_digitChar_of_lt_ten hd, Nat.mul_zero, Nat.zero_add] at hall
  have hdigit : digit? (Char.ofUInt8 d.digitChar.toUInt8) = some d := by
    rw [digit?_ofUInt8_toUInt8 hfirst]
    exact congrArg some (Nat.toNat_digitChar_sub_48_of_lt_ten hd)
  have hnext : Runs next? (d.digitChar.toUInt8 :: (digits.map Char.toUInt8 ++ rest))
      (some (Char.ofUInt8 d.digitChar.toUInt8)) (digits.map Char.toUInt8 ++ rest) := rfl
  rw [Text.decimal, hdigits, List.map_cons, List.cons_append]
  refine hnext.bind ?_
  simp only [hdigit]
  match d with
  | 0 =>
    obtain ⟨rfl, rfl⟩ := hzero rfl
    have hpeek : Runs peek? rest (rest.head?.map Char.ofUInt8) rest := rfl
    refine hpeek.bind ?_
    rw [hrest.digit?_eq_none]
    exact runs_afterWhole hrest negative 0
  | d + 1 =>
    rw [← hvalue] at h ⊢
    exact (runs_digitsWithin hothers h hrest 0).bind
      ((runs_skipDigits hrest).bind (runs_afterWhole hrest negative _))

end EndsNumber

end Reader

end Json

end DeltaPack
