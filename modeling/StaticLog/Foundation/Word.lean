import Mathlib.Data.BitVec

/-! # Words as numbers

A word is read as a signed or as an unsigned number, and converted to a word of
another width that has the same value as far as it fits. -/

namespace StaticLog.Word

variable {width : Nat}

def number (isSigned : Bool) (word : BitVec width) : Int :=
  if isSigned then word.toInt else word.toNat

/-- Conversion to another width, by the value of the word. -/
def convert (isSigned : Bool) (word : BitVec width) (wide : Nat) : BitVec wide :=
  BitVec.ofInt wide (number isSigned word)

theorem number_injective {isSigned : Bool} {left right : BitVec width}
    (equal : number isSigned left = number isSigned right) : left = right := by
  cases isSigned with
  | true => exact BitVec.toInt_inj.mp equal
  | false => exact BitVec.toNat_inj.mp (Int.ofNat.inj equal)

/-- Signed words are widened by their sign bit. -/
theorem convert_signed (word : BitVec width) (wide : Nat) :
    convert true word wide = word.signExtend wide := rfl

/-- Unsigned words are widened by zeros. -/
theorem convert_unsigned (word : BitVec width) (wide : Nat) :
    convert false word wide = word.setWidth wide := by
  apply BitVec.eq_of_toNat_eq
  rw [convert, BitVec.toNat_ofInt, BitVec.toNat_setWidth]
  exact Int.toNat_natCast (word.toNat % 2 ^ wide)

@[simp] theorem convert_self (isSigned : Bool) (word : BitVec width) :
    convert isSigned word width = word := by
  cases isSigned with
  | true => rw [convert_signed, BitVec.signExtend_eq]
  | false => rw [convert_unsigned, BitVec.setWidth_eq]

/-- The two ways of widening a word agree as long as its sign bit is clear. -/
theorem signExtend_eq_setWidth_iff {wide : Nat} (wider : width < wide)
    (word : BitVec width) :
    word.signExtend wide = word.setWidth wide ↔ word.msb = false := by
  constructor
  · intro equal
    have sign : (word.signExtend wide).getLsbD width = word.msb := by
      rw [BitVec.getLsbD_signExtend]
      simp [wider]
    have zero : (word.setWidth wide).getLsbD width = false := by
      rw [BitVec.getLsbD_setWidth]
      simp
    rw [← sign, equal, zero]
  · exact BitVec.signExtend_eq_setWidth_of_msb_false

theorem convert_eq_iff {wide : Nat} (wider : width < wide) (word : BitVec width)
    (left right : Bool) :
    convert left word wide = convert right word wide ↔
      word.msb = false ∨ left = right := by
  have agree := signExtend_eq_setWidth_iff wider word
  cases left with
  | true =>
      cases right with
      | true => simp
      | false =>
          rw [convert_signed, convert_unsigned, agree]
          simp
  | false =>
      cases right with
      | true =>
          rw [convert_signed, convert_unsigned, eq_comm, agree]
          simp
      | false => simp

end StaticLog.Word
