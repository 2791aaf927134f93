import DeltaPack.Json.Fault

/-!
# Reading a document

A document is a list of bytes, and a `Reader` consumes them from the front. When it fails, it says
why and, with most causes, how many bytes were then left, which is where the fault lies. Causes
that a caller detects, such as a missing field, are raised without a place; `Reader.placed` gives
them the place where the reader stands when they pass through it.

A bracket is always followed by the search for its counterpart, even after a failure inside, since
that moves the place of an unplaced fault; `Reader.andAlways` does this.
-/

namespace DeltaPack.Json

/-- A cause and the number of bytes that were left, if the place is known. -/
structure Fault where
  /-- Why the document is refused. -/
  cause : Cause
  /-- The bytes behind the place of the fault. -/
  left : Option Nat

/-- A function that consumes bytes from the front of a document. -/
abbrev Reader := EStateM Fault (List UInt8)

namespace Reader

variable {α : Type}

/-! ### Faults -/

/-- Fails where the reader stands. -/
def failHere (cause : Cause) : Reader α :=
  fun rest => .error ⟨cause, some rest.length⟩ rest

/-- Fails at the byte that comes next. -/
def failAhead (cause : Cause) : Reader α :=
  fun rest => .error ⟨cause, some (rest.length - 1)⟩ rest

/-- Fails without a place. -/
def failUnplaced (cause : Cause) : Reader α :=
  fun rest => .error ⟨cause, none⟩ rest

/-- Gives an unplaced fault the place where the reader stands when it fails. -/
def placed (body : Reader α) : Reader α := fun rest =>
  match body rest with
  | .ok a rest => .ok a rest
  | .error fault rest => .error ⟨fault.cause, some (fault.left.getD rest.length)⟩ rest

/-- Runs a reader and then another one, also if the first one fails. The first fault counts. -/
def andAlways (body : Reader α) (finish : Reader Unit) : Reader α := fun rest =>
  match body rest with
  | .ok a rest =>
    match finish rest with
    | .ok _ rest => .ok a rest
    | .error fault rest => .error fault rest
  | .error fault rest =>
    match finish rest with
    | .ok _ rest => .error fault rest
    | .error _ rest => .error fault rest

/-- A value, or the unplaced fault of its cause. -/
def lift (value : Except Cause α) : Reader α :=
  match value with
  | .ok a => pure a
  | .error cause => failUnplaced cause

/-! ### Bytes -/

/-- The next byte, as the character of its code. -/
def peek? : Reader (Option Char) := fun rest => .ok (rest.head?.map Char.ofUInt8) rest

/-- Consumes the next byte. -/
def next? : Reader (Option Char) := fun rest => .ok (rest.head?.map Char.ofUInt8) (rest.drop 1)

/-- Passes over the next byte. -/
def skip : Reader Unit := fun rest => .ok () (rest.drop 1)

/-- Whether a byte is one of the four blanks that may stand between tokens. -/
def isBlank (byte : UInt8) : Bool := byte == 32 || byte == 10 || byte == 9 || byte == 13

/-- The first byte of the next token. -/
def token? : Reader (Option Char) := fun rest =>
  let rest := rest.dropWhile isBlank
  .ok (rest.head?.map Char.ofUInt8) rest

/-- The rest of a word whose first letter was consumed. -/
def word : List Char → Reader Unit
  | [] => pure ()
  | letter :: letters => do
    match ← next? with
    | none => failHere (.ended .value)
    | some c => if c = letter then word letters else failHere .expectedIdent

/-! ### Brackets -/

/-- Opens a bracket, unless as many are open as allowed, and reads on with one level less. -/
def opened : (levels : Nat) → (body : Nat → Reader α) → Reader α
  | 0, _ => failAhead .tooDeep
  | levels + 1, body => do
    skip
    body levels

/-- The end of an object. -/
def endObject : Reader Unit := do
  match ← token? with
  | some '\x7d' => skip
  | some ',' => failAhead .trailingComma
  | some _ => failAhead .trailingCharacters
  | none => failAhead (.ended .object)

/-- The end of a list. -/
def endList : Reader Unit := do
  match ← token? with
  | some ']' => skip
  | some ',' => do
    skip
    match ← token? with
    | some ']' => failAhead .trailingComma
    | _ => failAhead .trailingCharacters
  | some _ => failAhead .trailingCharacters
  | none => failAhead (.ended .list)

/-- The colon between a key and its value. -/
def colon : Reader Unit := do
  match ← token? with
  | some ':' => skip
  | some _ => failAhead .expectedColon
  | none => failAhead (.ended .object)

/-- Whether the list goes on. The reader then stands before the next element. -/
def nextElement (isFirst : Bool) : Reader Bool := do
  match ← token? with
  | none => failAhead (.ended .list)
  | some ']' => return false
  | some c =>
    if isFirst then return true
    else if c = ',' then
      skip
      match ← token? with
      | none => failAhead (.ended .value)
      | some ']' => failAhead .trailingComma
      | some _ => return true
    else failAhead .expectedCommaOrBracket

/-- Whether the object goes on. The reader then stands before the next key. -/
def nextMember (isFirst : Bool) : Reader Bool := do
  match ← token? with
  | none => failAhead (.ended .object)
  | some '\x7d' => return false
  | some c =>
    if isFirst then
      if c = '"' then return true else failAhead .keyNotString
    else if c = ',' then
      skip
      match ← token? with
      | none => failAhead (.ended .value)
      | some '"' => return true
      | some '\x7d' => failAhead .trailingComma
      | some _ => failAhead .keyNotString
    else failAhead .expectedCommaOrBrace

/-- Folds the elements of a list, of which there are at most as many as bytes. -/
def foldElements (step : α → Reader α) : (bytes : Nat) → (isFirst : Bool) → α → Reader α
  | 0, _, _ => failAhead (.ended .list)
  | bytes + 1, isFirst, state => do
    if ← nextElement isFirst then
      let state ← step state
      foldElements step bytes false state
    else return state

/-- Folds the members of an object, of which there are at most as many as bytes. The step reads
the key too. -/
def foldMembers (step : α → Reader α) : (bytes : Nat) → (isFirst : Bool) → α → Reader α
  | 0, _, _ => failAhead (.ended .object)
  | bytes + 1, isFirst, state => do
    if ← nextMember isFirst then
      let state ← step state
      foldMembers step bytes false state
    else return state

/-- The elements of a list, whose bracket was opened. -/
def elements (step : α → Reader α) (isFirst : Bool) (state : α) : Reader α := do
  let rest ← get
  foldElements step (rest.length + 1) isFirst state

/-- The members of an object, whose bracket was opened. -/
def members (step : α → Reader α) (state : α) : Reader α := do
  let rest ← get
  foldMembers step (rest.length + 1) true state

/-! ### Documents -/

/-- Only blanks follow. -/
def endDocument : Reader Unit := do
  match ← token? with
  | none => return
  | some _ => failAhead .trailingCharacters

/-- Reads a whole document. -/
def readAll (body : Reader α) (document : List UInt8) : Except Refusal α :=
  let whole : Reader α := placed do
    let a ← body
    endDocument
    return a
  match whole document with
  | .ok a _ => .ok a
  | .error fault _ =>
    let index := document.length - fault.left.getD 0
    .error ⟨fault.cause, Position.behind document index⟩

end Reader

end DeltaPack.Json
