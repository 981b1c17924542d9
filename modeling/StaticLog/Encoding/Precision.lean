import Mathlib.Algebra.GroupWithZero.Nat
import StaticLog.Encoding.Exactness
import StaticLog.Format.Parsing
import StaticLog.Foundation.Word

/-! # The length that is stored for a string

What `getArgSize` returns for each argument of a call, and the length that the
conversion of a string asks for by its precision. -/

namespace StaticLog.Encoding

open StaticLog.Format

/-- The calls of `getArgSize` that `getArgSizes` makes, one for each argument. -/
def argSizes : List ParamType → Nat → List Nat → List Arg → List ArgSize
  | fmtType :: fmtTypes, previousPrecision, stringSize :: stringSizes, head :: rest =>
      let own := getArgSize fmtType previousPrecision stringSize head
      own :: argSizes fmtTypes own.previousPrecision stringSizes rest
  | _, _, _, _ => []

/-- `previous_precision` when `getArgSize` is called for the argument at an index. -/
def carriedPrecision : List ParamType → Nat → List Arg → Nat → Nat
  | fmtType :: fmtTypes, previousPrecision, head :: rest, index + 1 =>
      carriedPrecision fmtTypes (getArgSize fmtType previousPrecision 0 head).previousPrecision
        rest index
  | _, previousPrecision, _, _ => previousPrecision

/-- `getArgSizes` adds up the sizes and fills the array with the string sizes. -/
theorem getArgSizes_eq (types : List ParamType) (precision : Nat) (sizes : List Nat)
    (args : List Arg) :
    getArgSizes types precision sizes args =
      (((argSizes types precision sizes args).map ArgSize.size).sum,
        (argSizes types precision sizes args).map ArgSize.stringSize ++
          sizes.drop (argSizes types precision sizes args).length) := by
  induction types generalizing precision sizes args with
  | nil => cases sizes <;> rfl
  | cons type types induction =>
      cases sizes with
      | nil => rfl
      | cons size sizes =>
          cases args with
          | nil => rfl
          | cons head rest => simp [getArgSizes, argSizes, induction]

theorem getArgSize_previousPrecision (type : ParamType) (precision left right : Nat)
    (arg : Arg) :
    (getArgSize type precision left arg).previousPrecision =
      (getArgSize type precision right arg).previousPrecision :=
  (getArgSize_stale type precision left right arg).2.1

/-- The call for the argument at an index. -/
theorem argSizes_getElem {types : List ParamType} (precision : Nat) {sizes : List Nat}
    {args : List Arg} {index : Nat} {type : ParamType} {arg : Arg}
    (enough : types.length ≤ sizes.length) (hasType : types[index]? = some type)
    (isArg : args[index]? = some arg) :
    ∃ size, (argSizes types precision sizes args)[index]? =
      some (getArgSize type (carriedPrecision types precision args index) size arg) := by
  induction types generalizing precision sizes args index with
  | nil => cases hasType
  | cons first types induction =>
      cases sizes with
      | nil => cases enough
      | cons size sizes =>
          cases args with
          | nil => cases isArg
          | cons head rest =>
              cases index with
              | zero =>
                  cases hasType
                  cases isArg
                  exact ⟨size, rfl⟩
              | succ index =>
                  rcases induction _ (Nat.le_of_succ_le_succ enough) hasType isArg with
                    ⟨own, found⟩
                  refine ⟨own, ?_⟩
                  rw [argSizes, carriedPrecision,
                    getArgSize_previousPrecision first precision 0 size]
                  exact found

/-- Behind a dynamic precision its argument is carried along. -/
theorem carriedPrecision_succ {types : List ParamType} {precision index : Nat}
    {args : List Arg} {scalar : Scalar}
    (dynamic : types[index]? = some .dynamicPrecision)
    (isScalar : args[index]? = some (.scalar scalar)) :
    carriedPrecision types precision args (index + 1) = scalar.asUInt64 := by
  induction types generalizing precision args index with
  | nil => cases dynamic
  | cons first types induction =>
      cases args with
      | nil => cases isScalar
      | cons head rest =>
          cases index with
          | zero =>
              cases dynamic
              cases isScalar
              simp [carriedPrecision, getArgSize, getArgSizeNonString]
          | succ index => exact induction dynamic isScalar

/-! ## What the format asks for -/

/-- An integer argument. -/
def integerValue : Arg → Option Int
  | .scalar (.integer isSigned _ bits) => some (Word.number isSigned bits)
  | _ => none

/-- The number of characters that a conversion asks for of a string of a given length.
Nothing is said about a dynamic precision that is no integer. -/
def askedLength (conversion : Conversion) (precisionArg : Option Arg) (length : Nat) :
    Option Nat :=
  match conversion.precision with
  | none => some length
  | some (.digits digits) => some (min length (digitsValue 0 digits))
  | some .star =>
      (precisionArg.bind integerValue).map
        (fun precision => if 0 ≤ precision then min length precision.toNat else length)

/-- A pointer to characters at `index`, under a string conversion of the format. -/
structure StringArgument (pieces : List Piece) (args : List Arg) (index : Nat)
    (conversion : Conversion) (string : CString) : Prop where
  place : ∃ before behind, pieces = before ++ .conversion conversion :: behind ∧
    index = (paramTypes before).length + conversion.stars
  isString : conversion.terminal = 's'.toUInt8
  arg : args[index]? = some (.charPtr string)

/-- Every string gets the size that its conversion asks for, and four bytes more are
reserved for it. -/
def TruncatesStrings (pieces : List Piece) (types : List ParamType) (precision : Nat)
    (sizes : List Nat) (args : List Arg) : Prop :=
  ∀ index conversion string, StringArgument pieces args index conversion string →
    ∀ length, askedLength conversion args[index - 1]? string.strlen = some length →
      ∃ own, (argSizes types precision sizes args)[index]? = some own ∧
        own.stringSize = length ∧ own.size = length + 4

/-- The precision has nothing to cut off: a static one is not less than the length (or
happens to be the length modulo 2^32), and a negative one is read as a huge number. -/
def NothingToCut (conversion : Conversion) (precisionArg : Option Arg) (length : Nat) :
    Prop :=
  match conversion.precision with
  | none => True
  | some (.digits digits) =>
      length ≤ digitsValue 0 digits ∨
        2 ^ 32 ≤ length ∧ length % 2 ^ 32 = digitsValue 0 digits
  | some .star =>
      ∀ precision, precisionArg.bind integerValue = some precision → precision < 0 →
        (length : Int) ≤ 2 ^ 64 + precision

/-- An integer precision as `as_uint64_t` converts it. -/
theorem asUInt64_integer {arg : Arg} {precision : Int}
    (isInteger : integerValue arg = some precision) :
    ∃ scalar, arg = .scalar scalar ∧
      (0 ≤ precision ∧ (scalar.asUInt64 : Int) = precision ∨
        precision < 0 ∧ (scalar.asUInt64 : Int) = 2 ^ 64 + precision) := by
  cases arg with
  | charPtr string => cases isInteger
  | wcharPtr address memory => cases isInteger
  | scalar scalar =>
      refine ⟨scalar, rfl, ?_⟩
      cases scalar with
      | float bits => cases isInteger
      | double bits => cases isInteger
      | longDouble bits => cases isInteger
      | pointer address => cases isInteger
      | integer isSigned width bits =>
          have value : Word.number isSigned bits = precision := Option.some.inj isInteger
          cases isSigned with
          | false =>
              simp only [Word.number, Scalar.asUInt64, Bool.false_eq_true, if_false]
                at value ⊢
              omega
          | true =>
              simp only [Word.number, Scalar.asUInt64, if_true] at value ⊢
              have widens : width.bits ≤ 64 := by cases width <;> decide
              have extended := BitVec.toInt_signExtend_of_le (x := bits) widens
              rw [BitVec.toInt_eq_toNat_cond, value] at extended
              split at extended <;> omega

/-! ## When the sizes are those that are asked for -/

theorem Conversion.types_getElem (conversion : Conversion) :
    conversion.types[conversion.stars]? = some conversion.valueType ∧
      (conversion.precision = some .star →
        ∃ before, conversion.stars = before + 1 ∧
          conversion.types[before]? = some .dynamicPrecision) := by
  by_cases width : conversion.width = .star
  · by_cases precision : conversion.precision = some .star
    · simp [Conversion.types, Conversion.stars, width, precision]
    · simp [Conversion.types, Conversion.stars, width, precision]
  · by_cases precision : conversion.precision = some .star
    · simp [Conversion.types, Conversion.stars, width, precision]
    · simp [Conversion.types, Conversion.stars, width, precision]

namespace StringArgument

variable {pieces : List Piece} {args : List Arg} {index : Nat} {conversion : Conversion}
  {string : CString}

/-- The types that the parser reports at the conversion. -/
theorem types_eq (argument : StringArgument pieces args index conversion string) :
    (paramTypes pieces)[index]? = some conversion.valueType ∧
      (conversion.precision = some .star →
        ∃ precisionIndex, index = precisionIndex + 1 ∧
          (paramTypes pieces)[precisionIndex]? = some .dynamicPrecision) := by
  rcases argument.place with ⟨before, behind, rfl, rfl⟩
  have types : paramTypes (before ++ .conversion conversion :: behind) =
      paramTypes before ++ (conversion.types ++ paramTypes behind) := by
    simp [paramTypes, Piece.types]
  have own (star : Nat) (inside : star ≤ conversion.stars) :
      (paramTypes before ++ (conversion.types ++ paramTypes behind))[
        (paramTypes before).length + star]? = conversion.types[star]? := by
    have length := conversion.types_length
    rw [List.getElem?_append_right (Nat.le_add_right _ _), Nat.add_sub_cancel_left,
      List.getElem?_append_left (by omega)]
  have found := Conversion.types_getElem conversion
  rw [types]
  constructor
  · rw [own _ (Nat.le_refl _)]
    exact found.1
  · intro dynamic
    rcases found.2 dynamic with ⟨star, stars, isDynamic⟩
    refine ⟨(paramTypes before).length + star, by omega, ?_⟩
    rw [own star (by omega)]
    exact isDynamic

theorem sizes_iff {own : ArgSize} {asked : Nat} :
    (∀ length, some asked = some length →
        ∃ result, some own = some result ∧ result.stringSize = length ∧
          result.size = length + 4) ↔
      own.stringSize = asked ∧ own.size = asked + 4 := by
  constructor
  · intro sizes
    rcases sizes asked rfl with ⟨result, same, sized⟩
    cases same
    exact sized
  · rintro sized length same
    cases same
    exact ⟨own, rfl, sized⟩

/-- The size of one string is what is asked for just if there is nothing to cut. -/
theorem asked_iff (argument : StringArgument pieces args index conversion string)
    {precision : Nat} {sizes : List Nat}
    (enough : (paramTypes pieces).length ≤ sizes.length) :
    (∀ length, askedLength conversion args[index - 1]? string.strlen = some length →
        ∃ own, (argSizes (paramTypes pieces) precision sizes args)[index]? = some own ∧
          own.stringSize = length ∧ own.size = length + 4) ↔
      NothingToCut conversion args[index - 1]? string.strlen := by
  rcases argument.types_eq with ⟨valueType, dynamicType⟩
  rcases argSizes_getElem precision enough valueType argument.arg with ⟨size, found⟩
  rw [found, Conversion.valueType, if_pos argument.isString]
  cases given : conversion.precision with
  | none =>
      simp only [askedLength, NothingToCut, given, sizes_iff, getArgSize,
        getArgSizeString_none, and_self]
  | some field =>
      cases field with
      | digits digits =>
          have fits := conversion.precision_fits digits given
          rw [intMax] at fits
          simp only [askedLength, NothingToCut, given, sizes_iff, getArgSize,
            getArgSizeString_static]
          omega
      | star =>
          rcases dynamicType given with ⟨precisionIndex, rfl, dynamic⟩
          simp only [askedLength, NothingToCut, given, getArgSize, getArgSizeString_dynamic,
            Nat.add_sub_cancel]
          cases isInteger : args[precisionIndex]?.bind integerValue with
          | none => simp
          | some asked =>
              rcases Option.bind_eq_some_iff.mp isInteger with ⟨arg, isArg, value⟩
              rcases asUInt64_integer value with ⟨scalar, rfl, converted⟩
              rw [carriedPrecision_succ dynamic isArg, Option.map_some, sizes_iff]
              simp only [Option.some.injEq, forall_eq']
              rcases converted with ⟨positive, converted⟩ | ⟨negative, converted⟩
              · rw [if_pos positive]
                omega
              · rw [if_neg (Int.not_le.mpr negative)]
                omega

end StringArgument

/-- `getArgSizes` cuts the strings of an accepted format as their precisions ask for
exactly if there is nothing that a static precision has to cut off. -/
theorem truncatesStrings_iff {fmt : List UInt8} {pieces : List Piece}
    (spells : Spells pieces fmt) {count : Nat} {types : List ParamType}
    (counted : countFmtParams fmt = .ok count)
    (analyzed : analyzeFormatString count fmt = .ok types) (precision : Nat)
    {sizes : List Nat} (enough : types.length ≤ sizes.length) (args : List Arg) :
    TruncatesStrings pieces types precision sizes args ↔
      ∀ index conversion string, StringArgument pieces args index conversion string →
        NothingToCut conversion args[index - 1]? string.strlen := by
  rw [countFmtParams_spelled spells] at counted
  cases counted
  rw [analyzeFormatString_spelled spells] at analyzed
  cases analyzed
  simp only [TruncatesStrings]
  constructor
  · intro truncates index conversion string argument
    exact (argument.asked_iff enough).mp (truncates index conversion string argument)
  · intro nothing index conversion string argument
    exact (argument.asked_iff enough).mpr (nothing index conversion string argument)

namespace Example

theorem holds_nil (accepts : UInt8 → Bool) :
    ∀ c ∈ ([] : List UInt8), accepts c = true := by simp

theorem s_terminal : isTerminal 's'.toUInt8 = true := rfl

theorem s_ne_n : 's'.toUInt8 ≠ 'n'.toUInt8 := by decide

/-- `%.2s`. -/
def twoLetters : Conversion where
  flags := []
  width := .digits []
  precision := some (.digits (ascii "2"))
  length := []
  terminal := 's'.toUInt8
  flags_flag := holds_nil isFlag
  width_wellFormed := by simp [Field.WellFormed]
  width_notFlag := by simp [Field.text]
  precision_wellFormed := by
    intro field given
    cases given
    exact List.forall_iff_forall_mem.mp (by decide)
  precision_fits := by
    intro digits given
    cases given
    decide
  length_length := holds_nil isLength
  terminal_terminal := s_terminal
  terminal_ne_n := s_ne_n

theorem spells_twoLetters : Spells [.conversion twoLetters] (ascii "%.2s") where
  text := rfl
  plain := List.forall_iff_forall_mem.mp (by decide)

/-- `"abc"`, with zeros behind it. -/
def abc : CString where
  address := 4096
  chars := ascii "abc"
  noNul := List.forall_iff_forall_mem.mp (by decide)
  beyond _ := 0

end Example

open Example in
theorem truncatesStrings_hi :
    TruncatesStrings [.conversion twoLetters] [.string 2] initialPrecision (initialSizes 1)
        [.charPtr hi] ↔
      ∀ index conversion string,
        StringArgument [.conversion twoLetters] [.charPtr hi] index conversion string →
          NothingToCut conversion [Arg.charPtr hi][index - 1]? string.strlen :=
  truncatesStrings_iff spells_twoLetters rfl rfl initialPrecision
    (by decide) [.charPtr hi]

open Example in
/-- Under `%.2s` all three characters of a string are stored. -/
theorem not_truncatesStrings_abc :
    ¬TruncatesStrings [.conversion twoLetters] [.string 2] initialPrecision
      (initialSizes 1) [.charPtr abc] := by
  intro truncates
  have argument : StringArgument [.conversion twoLetters] [.charPtr abc] 0 twoLetters abc :=
    ⟨⟨[], [], rfl, rfl⟩, rfl, rfl⟩
  rcases truncates 0 twoLetters abc argument 2 rfl with ⟨own, found, sized, _⟩
  cases found
  revert sized
  decide

end StaticLog.Encoding
