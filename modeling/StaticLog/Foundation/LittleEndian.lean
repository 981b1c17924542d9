import Mathlib.Algebra.Group.Nat.Defs
import Mathlib.Data.Nat.Basic

/-! # Little-endian words

The bytes of an unsigned word, least significant byte first, and the value that
a sequence of bytes stands for. -/

namespace StaticLog.LittleEndian

def bytes : Nat → Nat → List UInt8
  | 0, _ => []
  | count + 1, value => UInt8.ofNat value :: bytes count (value / 256)

def value : List UInt8 → Nat
  | [] => 0
  | byte :: rest => byte.toNat + 256 * value rest

@[simp] theorem bytes_length (count word : Nat) : (bytes count word).length = count := by
  induction count generalizing word with
  | zero => rfl
  | succ count induction => simp [bytes, induction]

/-- Reading a word back gives what of it fits. -/
@[simp] theorem value_bytes (count word : Nat) :
    value (bytes count word) = word % 256 ^ count := by
  induction count generalizing word with
  | zero => simp [bytes, value, Nat.mod_one]
  | succ count induction =>
      have byte : (UInt8.ofNat word).toNat = word % 256 := by simp
      rw [bytes, value, induction, byte, Nat.pow_succ, Nat.mul_comm (256 ^ count),
        Nat.mod_mul]

theorem value_bytes_of_lt {count word : Nat} (fits : word < 256 ^ count) :
    value (bytes count word) = word := by
  rw [value_bytes, Nat.mod_eq_of_lt fits]

/-- Words that fit are told apart by their bytes. -/
theorem bytes_injective {count left right : Nat} (leftFits : left < 256 ^ count)
    (rightFits : right < 256 ^ count) (equal : bytes count left = bytes count right) :
    left = right := by
  rw [← value_bytes_of_lt leftFits, equal, value_bytes_of_lt rightFits]

/-- The bytes of the value of a sequence are that sequence. -/
theorem bytes_value (word : List UInt8) : bytes word.length (value word) = word := by
  induction word with
  | nil => rfl
  | cons byte rest induction =>
      have small : byte.toNat < 256 := byte.toNat_lt
      have low : UInt8.ofNat (byte.toNat + 256 * value rest) = byte := by
        apply UInt8.toNat.inj
        rw [UInt8.toNat_ofNat']
        omega
      have high : (byte.toNat + 256 * value rest) / 256 = value rest := by omega
      rw [List.length_cons, value, bytes, low, high, induction]

end StaticLog.LittleEndian
