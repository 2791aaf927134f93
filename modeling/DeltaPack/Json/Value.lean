import DeltaPack.Json.Number
import DeltaPack.Json.Text

/-!
# Values of a document

A reader that expects a certain value first looks what it finds there (`Reader.found`): scalars
are read at once, and of lists and objects the bracket is seen. `Found.toInt32` and `Found.toSize`
are the integers that a value may stand for. `Reader.anyValue` reads a value that is kept without
being asked for, and `Reader.record` one that is an object with known members, or a list of them in
order.
-/

namespace DeltaPack.Json

/-- The number of brackets that may be open at a time. -/
def maxLevels : Nat := 127

/-- A signed 32-bit integer. -/
def Found.toInt32 : Found → Except Cause Int32
  | .integer n =>
    if -0x80000000 ≤ n ∧ n < 0x80000000 then .ok (Int32.ofInt n)
    else .error (.invalidValue (.integer n) "i32")
  | found => .error (.invalidType found "i32")

/-- A size, which is an unsigned 64-bit integer. -/
def Found.toSize : Found → Except Cause Nat
  | .integer n =>
    if 0 ≤ n ∧ n ≤ 0xFFFFFFFFFFFFFFFF then .ok n.toNat
    else .error (.invalidValue (.integer n) "usize")
  | found => .error (.invalidType found "usize")

namespace Reader

variable {α : Type}

/-- Looks what value comes next. A scalar is consumed; a bracket is not. -/
def found : Reader Found := do
  match ← token? with
  | none => failAhead (.ended .value)
  | some 'n' => do
    skip
    word ['u', 'l', 'l']
    return .null
  | some 't' => do
    skip
    word ['r', 'u', 'e']
    return .boolean true
  | some 'f' => do
    skip
    word ['a', 'l', 's', 'e']
    return .boolean false
  | some '"' => do
    skip
    return .string (← string)
  | some '[' => return .sequence
  | some '\x7b' => return .map
  | some '-' => do
    skip
    return (← number true).found
  | some c =>
    if (digit? c).isSome then return (← number false).found else failAhead .expectedValue

/-- A signed 32-bit integer. -/
def int32 : Reader Int32 := placed do lift (← found).toInt32

/-- A size. -/
def size : Reader Nat := placed do lift (← found).toSize

/-- A list, whose bracket comes next. -/
def list (levels : Nat) (body : Nat → Reader α) : Reader α :=
  opened levels fun levels => andAlways (body levels) endList

/-- An object, whose bracket comes next. -/
def object (levels : Nat) (body : Nat → Reader α) : Reader α :=
  opened levels fun levels => andAlways (body levels) endObject

/-- Any value, as far as a message may tell of it. -/
def anyValue (levels : Nat) : Reader Found := placed do
  match ← found with
  | .sequence =>
    match levels with
    | 0 => failAhead .tooDeep
    | levels + 1 => do
      skip
      andAlways (elements (fun _ => do let _ ← anyValue levels) true ()) endList
      return .sequence
  | .map =>
    match levels with
    | 0 => failAhead .tooDeep
    | levels + 1 => do
      skip
      andAlways (members (fun _ => do let _ ← key; colon; let _ ← anyValue levels) ()) endObject
      return .map
  | scalar => return scalar

/-- A value with known members, either an object or a list of the members' values in order. -/
def record (levels : Nat) (expected : String) (fromList fromObject : Nat → Reader α) :
    Reader α := placed do
  match ← found with
  | .sequence => list levels fromList
  | .map => object levels fromObject
  | other => failUnplaced (.invalidType other expected)

/-- The value of a member whose key was read, unless it was given before. -/
def once (name : String) (earlier : Option α) (body : Reader α) : Reader (Option α) := do
  if earlier.isSome then failUnplaced (.duplicateField name)
  else
    colon
    return some (← body)

/-- A member's value, which must have been given. -/
def required (name : String) (value : Option α) : Except Cause α :=
  match value with
  | some a => .ok a
  | none => .error (.missingField name)

/-- The element at an index of a list of a fixed length. -/
def elementAt (index : Nat) (expected : String) (body : Reader α) : Reader α := do
  if ← nextElement (index == 0) then body
  else failUnplaced (.invalidLength index expected)

end Reader

end DeltaPack.Json
