import DeltaPack.Bytes.LittleEndian

/-!
# LZ4 sequences

A block is a list of sequences followed by a last run of literals. A sequence is a run of
literals and a match: a distance back into the bytes already decoded and a length of at least
four. Both lengths share a token byte, four bits each; a length of fifteen or more goes on in
bytes of its own, of which all but the last are 255.
-/

namespace DeltaPack.Lz4

/-- A run of literals and the match after it. -/
structure Sequence where
  /-- The literal bytes. -/
  literals : List UInt8
  /-- How far back the match starts. -/
  offset : Nat
  /-- How many bytes it repeats, at least four. -/
  length : Nat
  deriving DecidableEq, Repr

/-- The shortest match. -/
def minMatch : Nat := 4

/-- A source divided into sequences and the literals after the last match. -/
structure Parse where
  sequences : List Sequence
  last : List UInt8
  deriving DecidableEq, Repr

/-! ### Writing -/

/-- The bytes that continue a length of which the token holds at most fifteen. -/
def extension (length : Nat) : List UInt8 :=
  if length < 15 then []
  else List.replicate ((length - 15) / 255) 255 ++ [UInt8.ofNat ((length - 15) % 255)]

/-- The token of two lengths. -/
def token (literals matched : Nat) : UInt8 :=
  UInt8.ofNat (16 * min literals 15 + min matched 15)

/-- The bytes of one sequence. -/
def Sequence.encode (s : Sequence) : List UInt8 :=
  token s.literals.length (s.length - minMatch) ::
    (extension s.literals.length ++
      (s.literals ++ (LittleEndian.bytes 2 s.offset ++ extension (s.length - minMatch))))

/-- The bytes of the last literals. -/
def encodeLast (literals : List UInt8) : List UInt8 :=
  token literals.length 0 :: (extension literals.length ++ literals)

/-- The block of a parsed source. -/
def Parse.encode (p : Parse) : List UInt8 :=
  p.sequences.flatMap Sequence.encode ++ encodeLast p.last

end DeltaPack.Lz4
