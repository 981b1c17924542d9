import Mathlib.Algebra.Group.Int.Defs
import Mathlib.Algebra.Group.Nat.Defs
import Mathlib.Order.Nat
import StaticLog.Foundation.Memory

/-! # Constants and machine arithmetic shared by the logger

`static_log_common.h` and the unsigned arithmetic of the C++ types. Sizes,
cursors and counters are natural numbers; where the code subtracts unsigned
values, the subtraction wraps as it does there. -/

namespace StaticLog

/-- `kSTAGING_BUFFER_SIZE`. -/
def stagingBufferSize : Nat := 1048576

/-- The characters of a text that has none outside ASCII. -/
def ascii (text : String) : List UInt8 := text.toList.map Char.toUInt8

/-- Subtraction on `uint64_t` and `size_t`. -/
def wrappingSub (left right : Nat) : Nat :=
  if right ≤ left then left - right else left + 2 ^ 64 - right

/-- The value of a sum of type `int`. -/
def wrapInt (sum : Int) : Int := (BitVec.ofInt 32 sum).toInt

/-- Conversion from `size_t` to `int`. -/
def toInt (word : Nat) : Int := wrapInt word

/-- Conversion from `int` to `size_t`. -/
def ofInt (value : Int) : Nat := (BitVec.ofInt 64 value).toNat

theorem wrappingSub_of_le {left right : Nat} (ordered : right ≤ left) :
    wrappingSub left right = left - right := if_pos ordered

@[simp] theorem wrappingSub_zero (left : Nat) : wrappingSub left 0 = left :=
  wrappingSub_of_le (Nat.zero_le left)

@[simp] theorem wrappingSub_self (value : Nat) : wrappingSub value value = 0 := by
  rw [wrappingSub_of_le (Nat.le_refl value), Nat.sub_self]

@[simp] theorem wrappingSub_add_left (left right : Nat) :
    wrappingSub (left + right) left = right := by
  rw [wrappingSub_of_le (Nat.le_add_right left right), Nat.add_sub_cancel_left]

theorem wrappingSub_spec (left right : Nat) :
    right ≤ left ∧ wrappingSub left right = left - right ∨
      left < right ∧ wrappingSub left right = left + 2 ^ 64 - right := by
  rcases Nat.lt_or_ge left right with below | above
  · exact .inr ⟨below, if_neg (Nat.not_le.mpr below)⟩
  · exact .inl ⟨above, if_pos above⟩

theorem wrappingSub_lt {left right : Nat} (leftFits : left < 2 ^ 64) :
    wrappingSub left right < 2 ^ 64 := by
  rw [wrappingSub]
  split <;> omega

theorem eq_of_wrappingSub {left right : Nat} (rightFits : right < 2 ^ 64)
    (zero : wrappingSub left right = 0) : left = right := by
  rcases wrappingSub_spec left right with ⟨_, equal⟩ | ⟨_, equal⟩ <;> omega

theorem wrapInt_spec (sum : Int) :
    ∃ turns : Int, wrapInt sum = sum + turns * 2 ^ 32 ∧
      -2 ^ 31 ≤ wrapInt sum ∧ wrapInt sum < 2 ^ 31 := by
  have wrapped : wrapInt sum = Int.bmod sum (2 ^ 32) := BitVec.toInt_ofInt sum
  rw [Int.bmod_def] at wrapped
  have turned := Int.emod_add_mul_ediv sum (2 ^ 32)
  split at wrapped
  · exact ⟨-(sum / 2 ^ 32), by omega, by omega, by omega⟩
  · exact ⟨-(sum / 2 ^ 32) - 1, by omega, by omega, by omega⟩

theorem toInt_of_lt {word : Nat} (small : word < 2 ^ 31) : toInt word = word := by
  rcases wrapInt_spec word with ⟨turns, equal, lower, upper⟩
  rw [toInt]
  omega

/-- A negative `int` becomes a huge `size_t`. -/
theorem ofInt_spec {value : Int} (lower : -2 ^ 31 ≤ value) (upper : value < 2 ^ 31) :
    0 ≤ value ∧ (ofInt value : Int) = value ∨
      value < 0 ∧ (ofInt value : Int) = value + 2 ^ 64 := by
  rw [ofInt, BitVec.toNat_ofInt]
  omega

theorem ofInt_natCast {word : Nat} (fits : word < 2 ^ 64) : ofInt word = word := by
  rw [ofInt, BitVec.toNat_ofInt]
  omega

theorem ofInt_lt (value : Int) : ofInt value < 2 ^ 64 := (BitVec.ofInt 64 value).isLt

theorem stagingBufferSize_pos : 0 < stagingBufferSize := by decide

end StaticLog
