import DeltaPack.Proofs.Json.Number
import Mathlib.Data.List.TakeWhile

/-!
# Tokens of a document

A document is a list of tokens with blanks between them. `Spaced` relates the two: any blanks may
stand in front of every token and behind the last one. A reader that looks for a token first passes
over blanks, and then the token stands in front (`Flush`); what this token is decides how it goes on
(`Reader.takes_token?`).

Only the tokens of written documents occur here: the six marks, strings of plain characters, and
integers. An integer is always followed by a mark, so it ends where its digits end
(`endsNumber_of_spaced`).
-/

namespace DeltaPack.Json

/-! ### Tokens -/

/-- A character that structures a document. -/
inductive Mark where
  | openBrace
  | closeBrace
  | openBracket
  | closeBracket
  | comma
  | colon
  deriving DecidableEq, Repr

/-- The character of a mark. -/
def Mark.char : Mark → Char
  | openBrace => '\x7b'
  | closeBrace => '\x7d'
  | openBracket => '['
  | closeBracket => ']'
  | comma => ','
  | colon => ':'

/-- A token of a document. -/
inductive Token where
  | mark (m : Mark)
  | string (text : String)
  | integer (value : Int)
  deriving DecidableEq, Repr

namespace Token

/-- A token as it is written. -/
def bytes : Token → List UInt8
  | .mark m => [m.char.toUInt8]
  | .string text => '"'.toUInt8 :: (Text.ascii text ++ ['"'.toUInt8])
  | .integer value => Text.signedDecimal value

/-- The first character of a token. -/
def first? (token : Token) : Option Char := token.bytes.head?.map Char.ofUInt8

theorem first?_mark (m : Mark) : (mark m).first? = some m.char := by
  cases m <;> rfl

theorem first?_string (text : String) : (string text).first? = some '"' := rfl

/-- A member of an object, given by its key and the tokens of its value. -/
def member (entry : String × List Token) : List Token :=
  string entry.1 :: mark .colon :: entry.2

/-- The tokens of an object with the given members. -/
def object (entries : List (String × List Token)) : List Token :=
  mark .openBrace :: ([mark .comma].intercalate (entries.map member) ++ [mark .closeBrace])

/-- Tokens of an object with the given members **in any order**. -/
def IsObject (entries : List (String × List Token)) (tokens : List Token) : Prop :=
  ∃ order, order.Perm entries ∧ tokens = object order

/-- A member as it is written. -/
theorem flatMap_bytes_member (key : String) (value : List Token) :
    (member (key, value)).flatMap bytes =
      Text.ascii "\"" ++ Text.ascii key ++ Text.ascii "\":" ++ value.flatMap bytes := by
  have hbytes : (member (key, value)).flatMap bytes =
      Text.ascii "\"" ++ (Text.ascii key ++ ['"'.toUInt8]) ++ ':'.toUInt8 :: value.flatMap bytes :=
    rfl
  rw [hbytes]
  simp only [List.append_assoc]
  rfl

/-- An object as it is written, without blanks. -/
theorem flatMap_bytes_object (entries : List (String × List Token)) :
    (object entries).flatMap bytes =
      Text.ascii "\x7b" ++
        (Text.ascii ",").intercalate (entries.map fun entry => (member entry).flatMap bytes) ++
        Text.ascii "\x7d" := by
  have hmembers : ([mark .comma].intercalate (entries.map member)).flatMap bytes =
      (Text.ascii ",").intercalate (entries.map fun entry => (member entry).flatMap bytes) := by
    induction entries with
    | nil => rfl
    | cons entry entries ih =>
      cases entries with
      | nil => simp only [List.map_singleton, List.intercalate_singleton]
      | cons next entries =>
        simp only [List.map_cons, List.intercalate_cons_cons, List.flatMap_append] at ih ⊢
        rw [ih]
        rfl
  rw [object, List.flatMap_cons, List.flatMap_append, hmembers, List.append_assoc]
  rfl

end Token

/-! ### First characters -/

namespace Token

/-- A natural number begins with a digit. -/
theorem exists_first?_natural (n : Nat) :
    ∃ c, c.isDigit = true ∧ (integer n).first? = some c := by
  obtain ⟨d, digits, hdigits, -⟩ := exists_toDigits_eq n
  have hdigit : d.digitChar.isDigit = true := by
    refine Nat.isDigit_of_mem_toDigits (b := 10) (n := n) (by decide) (by decide) ?_
    rw [hdigits]
    exact List.mem_cons_self
  have hhi := (toNat_of_isDigit hdigit).2
  refine ⟨d.digitChar, hdigit, ?_⟩
  change ((Text.decimal n).head?.map Char.ofUInt8) = _
  rw [Text.decimal, hdigits, List.map_cons, List.head?_cons, Option.map_some,
    Text.ofUInt8_toUInt8 (by omega)]

theorem first?_negative (n : Nat) : (integer (.negSucc n)).first? = some '-' := rfl

/-- A token begins with a byte that is no blank. -/
theorem exists_bytes_eq (token : Token) :
    ∃ byte rest, token.bytes = byte :: rest ∧ Reader.isBlank byte = false := by
  match token with
  | .mark m => cases m <;> exact ⟨_, _, rfl, rfl⟩
  | .string text => exact ⟨_, _, rfl, rfl⟩
  | .integer (.negSucc n) => exact ⟨_, _, rfl, rfl⟩
  | .integer (.ofNat n) =>
    obtain ⟨c, hdigit, hfirst⟩ := exists_first?_natural n
    obtain ⟨byte, hbyte, rfl⟩ := Option.map_eq_some_iff.1 hfirst
    obtain ⟨rest, hrest⟩ := List.head?_eq_some_iff.1 hbyte
    refine ⟨byte, rest, hrest, Bool.of_not_eq_true fun hblank => ?_⟩
    -- the four blanks are no digits
    rw [Reader.isBlank] at hblank
    simp only [Bool.or_eq_true, beq_iff_eq] at hblank
    rcases hblank with ((rfl | rfl) | rfl) | rfl <;> exact absurd hdigit (by decide)

end Token

/-! ### Documents -/

/-- Bytes that may stand between tokens: spaces, tabs, line feeds and carriage returns. -/
def Blanks (bytes : List UInt8) : Prop := ∀ byte ∈ bytes, byte ∈ ([32, 9, 10, 13] : List UInt8)

theorem Blanks.isBlank {blanks : List UInt8} (h : Blanks blanks) :
    ∀ byte ∈ blanks, Reader.isBlank byte = true := by
  intro byte hbyte
  have hmem := h byte hbyte
  simp only [List.mem_cons, List.not_mem_nil, or_false] at hmem
  rcases hmem with rfl | rfl | rfl | rfl <;> rfl

/-- Documents with the given tokens, **with any blanks** around them. -/
inductive Spaced : List Token → List UInt8 → Prop
  | nil {blanks : List UInt8} (isBlank : Blanks blanks) : Spaced [] blanks
  | cons {blanks rest : List UInt8} {token : Token} {tokens : List Token}
      (isBlank : Blanks blanks) (tail : Spaced tokens rest) :
      Spaced (token :: tokens) (blanks ++ (token.bytes ++ rest))

/-- Documents in which the first token stands in front, without a blank. -/
def Flush (token : Token) (tokens : List Token) (input : List UInt8) : Prop :=
  ∃ rest, input = token.bytes ++ rest ∧ Spaced tokens rest

/-- Tokens that are written one after the other, with the same blanks in front of each. -/
theorem spaced_flatMap {blanks : List UInt8} (h : Blanks blanks) (tokens : List Token) :
    Spaced tokens (tokens.flatMap fun token => blanks ++ token.bytes) := by
  induction tokens with
  | nil => exact .nil (List.forall_mem_nil _)
  | cons token tokens ih =>
    rw [List.flatMap_cons, List.append_assoc]
    exact .cons h ih

/-- Tokens that are written without any blanks. -/
theorem spaced_flatMap_bytes (tokens : List Token) : Spaced tokens (tokens.flatMap Token.bytes) :=
  spaced_flatMap (List.forall_mem_nil _) tokens

section

variable {token : Token} {tokens : List Token} {input : List UInt8}

theorem spaced_of_flush (h : Flush token tokens input) : Spaced (token :: tokens) input := by
  obtain ⟨rest, rfl, htail⟩ := h
  exact .cons (List.forall_mem_nil _) htail

/-- Every token takes a byte at least. -/
theorem Spaced.length_le (h : Spaced tokens input) : tokens.length ≤ input.length := by
  induction h with
  | nil => exact Nat.zero_le _
  | @cons blanks rest token tokens _ _ ih =>
    obtain ⟨byte, tail, hbytes, -⟩ := token.exists_bytes_eq
    rw [hbytes, List.length_append, List.length_append, List.length_cons, List.length_cons]
    omega

/-- A blank or a mark ends a number. -/
theorem endsNumber_of_spaced {m : Mark} (h : Spaced (.mark m :: tokens) input) :
    EndsNumber input := by
  cases h with
  | @cons blanks rest _ _ hblanks htail =>
    intro byte hbyte
    cases blanks with
    | nil =>
      obtain rfl : m.char.toUInt8 = byte := Option.some.inj hbyte
      cases m <;> decide
    | cons blank blanks =>
      obtain rfl : blank = byte := Option.some.inj hbyte
      have hmem := hblanks blank List.mem_cons_self
      simp only [List.mem_cons, List.not_mem_nil, or_false] at hmem
      rcases hmem with rfl | rfl | rfl | rfl <;> decide

end

/-! ### Looking for a token -/

namespace Reader

variable {α : Type} {tokens : List Token}

/-- **Blanks are passed over** in front of a token. -/
theorem takes_token? (token : Token) (tokens : List Token) :
    Takes token? (Spaced (token :: tokens)) token.first? (Flush token tokens) := by
  intro input hinput
  cases hinput with | @cons blanks rest _ _ hblanks htail
  obtain ⟨byte, tail, hbytes, hbyte⟩ := token.exists_bytes_eq
  have hdrop : (blanks ++ (token.bytes ++ rest)).dropWhile isBlank = token.bytes ++ rest := by
    rw [List.dropWhile_append_of_pos hblanks.isBlank, hbytes, List.cons_append,
      List.dropWhile_cons_of_neg (by rw [hbyte]; decide)]
  refine ⟨token.bytes ++ rest, ?_, rest, rfl, htail⟩
  rw [Runs, Reader.token?, hdrop, Token.first?, hbytes]
  rfl

/-- A token of a known first character. -/
theorem takes_token?_of_first? {token : Token} {c : Char} (h : token.first? = some c)
    (tokens : List Token) :
    Takes token? (Spaced (token :: tokens)) (some c) (Flush token tokens) :=
  h ▸ takes_token? token tokens

theorem takes_token?_mark (m : Mark) (tokens : List Token) :
    Takes token? (Spaced (.mark m :: tokens)) (some m.char) (Flush (.mark m) tokens) :=
  takes_token?_of_first? (Token.first?_mark m) tokens

/-- A mark that was seen is passed over. -/
theorem takes_skip (m : Mark) (tokens : List Token) :
    Takes skip (Flush (.mark m) tokens) () (Spaced tokens) := by
  rintro _ ⟨rest, rfl, htail⟩
  exact ⟨rest, rfl, htail⟩

/-- Behind the last token there are only blanks. -/
theorem runs_endDocument {rest : List UInt8} (h : Spaced [] rest) :
    Runs endDocument rest () [] := by
  cases h with | nil hblanks
  have hdrop : rest.dropWhile isBlank = [] := List.dropWhile_eq_nil_iff.2 hblanks.isBlank
  have htoken : Runs token? rest none [] := by
    rw [Runs, token?, hdrop]
    rfl
  exact htoken.bind (.pure () [])

/-- **A document is read if its tokens are**, whatever blanks stand between them. -/
theorem readAll_of_takes {r : Reader α} {a : α} (h : Takes r (Spaced tokens) a (Spaced []))
    {document : List UInt8} (hdocument : Spaced tokens document) :
    readAll r document = .ok a := by
  obtain ⟨rest, hrun, hrest⟩ := h document hdocument
  exact hrun.readAll (runs_endDocument hrest)

end Reader

end DeltaPack.Json
