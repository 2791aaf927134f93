import DeltaPack.Lz4.Fault
import DeltaPack.Lz4.Search

/-!
# LZ4 blocks

`Lz4.encodeBlock` is the block of a source: its parse, written out. `Lz4.decodeBlock` reads a
block back, one sequence at a time, into a limited room. It stops when the input is used up
right after a run of literals, so every block ends in one, and it checks, in this order, that the
literals are all there, that they fit, that an offset follows, that the match fits and that it
starts inside the output.
-/

namespace DeltaPack.Lz4

/-- The block of a source. -/
def encodeBlock (source : List UInt8) : List UInt8 :=
  (Parse.ofSource source).encode

/-! ### Lengths -/

/-- Adds up the bytes that continue a length: 255 while more follow, then one below 255. -/
def readExtension (total : Nat) : List UInt8 → Option (Nat × List UInt8)
  | [] => none
  | b :: rest =>
    if b = 255 then readExtension (total + 255) rest else some (total + b.toNat, rest)

/-- The length that a token's four bits stand for, with the input after it. -/
def readLength (bits : Nat) (input : List UInt8) : Option (Nat × List UInt8) :=
  if bits = 15 then readExtension 15 input else some (bits, input)

theorem readExtension_length {total length : Nat} {input rest : List UInt8}
    (h : readExtension total input = some (length, rest)) : rest.length < input.length := by
  induction input generalizing total with
  | nil => simp [readExtension] at h
  | cons b tail ih =>
    rw [readExtension] at h
    split at h
    · have := ih h
      simp only [List.length_cons]
      omega
    · simp only [Option.some.injEq, Prod.mk.injEq] at h
      simp [← h.2]

theorem readLength_length {bits length : Nat} {input rest : List UInt8}
    (h : readLength bits input = some (length, rest)) : rest.length ≤ input.length := by
  rw [readLength] at h
  split at h
  · exact Nat.le_of_lt (readExtension_length h)
  · simp only [Option.some.injEq, Prod.mk.injEq] at h
    simp [← h.2]

/-! ### Sequences -/

/-- Repeats bytes from `offset` back, one at a time, so that a match may overlap what it
writes. -/
def copyMatch (output : Array UInt8) (offset : Nat) : Nat → Array UInt8
  | 0 => output
  | count + 1 => copyMatch (output.push (output.getD (output.size - offset) 0)) offset count

/-- What decoding one sequence leads to. -/
inductive Step where
  /-- The block ends here with this output. -/
  | finished (output : Array UInt8)
  /-- More input follows the output so far. -/
  | continued (input : List UInt8) (output : Array UInt8)
  /-- The block is malformed or too long. -/
  | failed (fault : BlockFault)

/-- Decodes the match of a sequence whose token holds the given four bits. -/
def stepMatch (room : Nat) (bits : Nat) (output : Array UInt8) : List UInt8 → Step
  | low :: high :: input =>
    let offset := low.toNat + 256 * high.toNat
    if offset = 0 then .failed .zeroOffset
    else
      match readLength bits input with
      | none => .failed .inputExhausted
      | some (length, input) =>
        if room < output.size + (length + minMatch) then
          .failed (.outputTooSmall room (output.size + (length + minMatch)))
        else if output.size < offset then .failed .offsetOutOfBounds
        else .continued input (copyMatch output offset (length + minMatch))
  | _ => .failed .inputExhausted

/-- Decodes one sequence, or the last literals. -/
def step (room : Nat) (output : Array UInt8) : List UInt8 → Step
  | [] => .failed .inputExhausted
  | token :: input =>
    match readLength (token.toNat / 16) input with
    | none => .failed .inputExhausted
    | some (length, input) =>
      let literals := input.take length
      if literals.length < length then .failed .literalOutOfBounds
      else if room < output.size + length then
        .failed (.outputTooSmall room (output.size + length))
      else
        match input.drop length with
        | [] => .finished (output ++ literals)
        | input => stepMatch room (token.toNat % 16) (output ++ literals) input

theorem stepMatch_length {room bits : Nat} {output output' : Array UInt8}
    {input input' : List UInt8} (h : stepMatch room bits output input = .continued input' output') :
    input'.length < input.length := by
  match input with
  | [] | [_] => simp [stepMatch] at h
  | low :: high :: input =>
    rcases hread : readLength bits input with _ | ⟨length, rest⟩
    · grind [stepMatch]
    · have := readLength_length hread
      grind [stepMatch]

theorem step_length {room : Nat} {output output' : Array UInt8} {input input' : List UInt8}
    (h : step room output input = .continued input' output') : input'.length < input.length := by
  match input with
  | [] => simp [step] at h
  | token :: input =>
    rcases hread : readLength (token.toNat / 16) input with _ | ⟨length, rest⟩
    · simp [step, hread] at h
    · have hle := readLength_length hread
      have hmatch := @stepMatch_length room (token.toNat % 16) (output ++ rest.take length) output'
        (rest.drop length) input'
      grind [step]

/-- Decodes the rest of a block behind the output so far. -/
def decodeFrom (room : Nat) (input : List UInt8) (output : Array UInt8) :
    Except BlockFault (List UInt8) :=
  match _h : step room output input with
  | .finished output => .ok output.toList
  | .continued input output => decodeFrom room input output
  | .failed fault => .error fault
termination_by input.length
decreasing_by exact step_length _h

/-- **Decodes a block** into a limited room. -/
def decodeBlock (room : Nat) (block : List UInt8) : Except BlockFault (List UInt8) :=
  decodeFrom room block #[]

end DeltaPack.Lz4
