import StaticLog.Decoding.Cutting
import StaticLog.Decoding.Integers
import StaticLog.Decoding.Positions
import StaticLog.Decoding.RoundTrip

/-! # Which arguments are rendered

What the compile-time check accepts and what the switch of `decodeNonStringFmt`
handles are two tables. They differ for pointers, for characters that are passed as
an `int`, and for `long double`: the switch reports an error to `stderr` and
success to its caller. Under `%s` only a `char*` is stored as a text. -/

namespace StaticLog.Decoding

open StaticLog.Format Encoding

/-- The length modifiers for what is passed as an `int`. -/
def intLengths : List (List UInt8) := [[], ascii "h", ascii "hh"]

/-- The types that printf's rules allow for a conversion. A pointer under `%s` is one to
`unsigned char` or `signed char`. -/
def Allows (conversion : Conversion) : Arg → Prop
  | .scalar (.integer _ width _) =>
      (IsInteger conversion ∧
          if width = .w64 then
            conversion.length ∈ longLengths ++ [ascii "t", ascii "L"]
          else conversion.length ∈ intLengths) ∨
        (conversion.terminal = 'c'.toUInt8 ∧ conversion.length ∈ [[], ascii "l"] ∧
          width ≠ .w64)
  | .scalar (.float _) | .scalar (.double _) =>
      isFloatTerminal conversion.terminal = true ∧ conversion.length ∈ [[], ascii "l"]
  | .scalar (.longDouble _) =>
      isFloatTerminal conversion.terminal = true ∧ conversion.length = ascii "L"
  | .scalar (.pointer _) =>
      (conversion.terminal = 's'.toUInt8 ∨ conversion.terminal = 'p'.toUInt8) ∧
        conversion.length = []
  | .charPtr _ =>
      (conversion.terminal = 's'.toUInt8 ∨ conversion.terminal = 'p'.toUInt8) ∧
        conversion.length = []
  | .wcharPtr _ _ =>
      (conversion.terminal = 's'.toUInt8 ∧ conversion.length = ascii "l") ∨
        (conversion.terminal = 'p'.toUInt8 ∧ conversion.length = [])

theorem integer_ne {terminal : UInt8}
    (integral : isSignedTerminal terminal = true ∨ isUnsignedTerminal terminal = true) :
    terminal ≠ 'p'.toUInt8 ∧ terminal ≠ 'c'.toUInt8 := by
  refine ⟨?_, by simpa using terminal_ne_c integral⟩
  rintro rfl
  rcases integral with signed | unsigned
  · cases signed
  · cases unsigned

theorem isString_valueType (conversion : Conversion) :
    decide (ParamType.nonString.value < conversion.valueType.value) =
      decide (conversion.terminal = 's'.toUInt8) := by
  rw [Conversion.valueType]
  split
  · rename_i string
    rw [decide_eq_true string]
    split
    · rfl
    · rfl
    · exact decide_eq_true (by simp only [ParamType.value]; omega)
  · rename_i other
    rw [decide_eq_false other]
    rfl

section Calls

variable {libc : Libc} {passes : Nat} {message : Message} {state : FmtState}

end Calls

section Arguments

variable {pieces : List Piece} {args : List Arg}
  (starFree : ∀ conversion ∈ conversions pieces, conversion.stars = 0)
include starFree

theorem paramTypes_of_starFree :
    paramTypes pieces = (conversions pieces).map Conversion.valueType := by
  have single : ∀ conversion ∈ conversions pieces,
      conversion.types = [conversion.valueType] := by
    intro conversion member
    have none := starFree conversion member
    simp only [Conversion.stars] at none
    have noWidth : conversion.width ≠ .star := by
      intro star
      simp [star] at none
    have noPrecision : conversion.precision ≠ some .star := by
      intro star
      simp [star] at none
    simp [Conversion.types, noWidth, noPrecision]
  rw [paramTypes_conversions, List.map_eq_flatMap]
  exact List.flatMap_congr single

end Arguments

/-! ## All conversions of a format -/

namespace Example

/-- `%c`. -/
def character : Conversion := bare 'c'.toUInt8 rfl (by decide)

end Example

end StaticLog.Decoding
