/-!
# 32-bit words and the element types over them

The codec works on raw 32-bit words. A caller's list holds either signed or unsigned
integers, and both are views of the same bits: `Word32` is such a view, a bijection between an
element type and `UInt32`, with the name that diagnostics use for the type.
-/

namespace DeltaPack

/-- An element type whose values are the 32-bit words seen another way. -/
class Word32 (α : Type) where
  /-- The bits of a value. -/
  toWord : α → UInt32
  /-- The value with the given bits. -/
  ofWord : UInt32 → α
  /-- The name of the type in diagnostics. -/
  name : String
  ofWord_toWord : ∀ a, ofWord (toWord a) = a
  toWord_ofWord : ∀ w, toWord (ofWord w) = w

instance : Word32 UInt32 where
  toWord := id
  ofWord := id
  name := "u32"
  ofWord_toWord _ := rfl
  toWord_ofWord _ := rfl

instance : Word32 Int32 where
  toWord := Int32.toUInt32
  ofWord := UInt32.toInt32
  name := "i32"
  ofWord_toWord := Int32.toInt32_toUInt32
  toWord_ofWord := UInt32.toUInt32_toInt32

namespace Word32

variable {α : Type} [Word32 α]

/-- A list seen as raw words. -/
def toWords (values : List α) : List UInt32 := values.map toWord

/-- Raw words seen as values of an element type. -/
def ofWords (words : List UInt32) : List α := words.map ofWord

@[simp]
theorem ofWords_toWords (values : List α) : ofWords (toWords values) = values := by
  simp [ofWords, toWords, Function.comp_def, ofWord_toWord]

@[simp]
theorem toWords_ofWords (words : List UInt32) : toWords (ofWords words : List α) = words := by
  simp [ofWords, toWords, Function.comp_def, toWord_ofWord]

@[simp]
theorem length_toWords (values : List α) : (toWords values).length = values.length := by
  simp [toWords]

end Word32

end DeltaPack
