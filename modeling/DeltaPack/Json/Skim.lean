import DeltaPack.Json.Number
import DeltaPack.Json.Text

/-!
# Passing over values

Members that nobody asked for are only skimmed: numbers may be out of range, surrogates may stand
alone, and brackets may be nested to any depth. The reader keeps the open brackets on a stack,
innermost first.
-/

namespace DeltaPack.Json

/-- An open bracket. -/
inductive Bracket where
  | list
  | object
  deriving DecidableEq, Repr

namespace Bracket

/-- The character that closes a bracket. -/
def closing : Bracket → Char
  | list => ']'
  | object => '\x7d'

/-- What is cut short if the document ends before the bracket is closed. -/
def part : Bracket → Part
  | list => .list
  | object => .object

/-- What is missing between two entries. -/
def separatorCause : Bracket → Cause
  | list => .expectedCommaOrBracket
  | object => .expectedCommaOrBrace

end Bracket

namespace Reader

/-- What stands before the value of an entry: in an object, its key and a colon. -/
def skimKey : Bracket → Reader Unit
  | .list => return
  | .object => do
    match ← token? with
    | none => failAhead (.ended .object)
    | some '"' => do
      skip
      skimString
      colon
    | some _ => failAhead .keyNotString

/-- Goes on behind a value: the brackets that are open before the next value, or none if the
outermost value is complete. -/
def skimAfter : List Bracket → Reader (Option (List Bracket))
  | [] => return none
  | bracket :: outer => do
    match ← token? with
    | none => failAhead (.ended bracket.part)
    | some c =>
      if c = ',' then
        skip
        skimKey bracket
        return some (bracket :: outer)
      else if c = bracket.closing then
        skip
        skimAfter outer
      else failAhead bracket.separatorCause

/-- Opens a bracket and goes on to the first value inside, or behind an empty bracket. -/
def skimInto (bracket : Bracket) (outer : List Bracket) : Reader (Option (List Bracket)) := do
  skip
  match ← token? with
  | none => failAhead (.ended bracket.part)
  | some c =>
    if c = bracket.closing then
      skip
      skimAfter outer
    else
      skimKey bracket
      return some (bracket :: outer)

/-- Passes over a scalar or an opening bracket, up to the next value. -/
def skimOne (brackets : List Bracket) : Reader (Option (List Bracket)) := do
  match ← token? with
  | none => failAhead (.ended .value)
  | some 'n' => do
    skip
    word ['u', 'l', 'l']
    skimAfter brackets
  | some 't' => do
    skip
    word ['r', 'u', 'e']
    skimAfter brackets
  | some 'f' => do
    skip
    word ['a', 'l', 's', 'e']
    skimAfter brackets
  | some '"' => do
    skip
    skimString
    skimAfter brackets
  | some '[' => skimInto .list brackets
  | some '\x7b' => skimInto .object brackets
  | some '-' => do
    skip
    skimNumber
    skimAfter brackets
  | some c =>
    if (digit? c).isSome then
      skimNumber
      skimAfter brackets
    else failAhead .expectedValue

/-- Passes over values until the outermost is complete. Each takes at least one byte. -/
def skimFrom : (bytes : Nat) → List Bracket → Reader Unit
  | 0, _ => failAhead (.ended .value)
  | bytes + 1, brackets => do
    match ← skimOne brackets with
    | none => return
    | some brackets => skimFrom bytes brackets

/-- Passes over a value. -/
def skim : Reader Unit := do
  let rest ← get
  skimFrom (rest.length + 1) []

end Reader

end DeltaPack.Json
