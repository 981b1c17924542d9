import StaticLog.Format.ParamInfo

/-! # The grammar of format strings

A format is a sequence of pieces: literal characters, `%%`, and conversions
`% flags (* | digits) [. (* | digits)] length terminal`. The compile-time parser
accepts exactly the formats that are spelled by pieces, and the types it reports
are those of the pieces in order. -/

namespace StaticLog.Format

/-- A width or a precision: given in the format or as a parameter. -/
inductive Field
  | digits (digits : List UInt8)
  | star
  deriving DecidableEq, Repr

def Field.text : Field → List UInt8
  | .digits spelled => spelled
  | .star => ['*'.toUInt8]

/-- The value of a sequence of decimal digits, from a start value on. -/
def digitsValue (start : Nat) (digits : List UInt8) : Nat :=
  digits.foldl (fun value digit => 10 * value + (digit.toNat - '0'.toNat)) start

def Field.WellFormed : Field → Prop
  | .digits spelled => ∀ c ∈ spelled, isDigit c = true
  | .star => True

/-- The parts of a conversion. The side conditions say that each part is spelled
from its own character class and reaches as far as it can. -/
structure Conversion where
  flags : List UInt8
  width : Field
  precision : Option Field
  length : List UInt8
  terminal : UInt8
  flags_flag : ∀ c ∈ flags, isFlag c = true
  width_wellFormed : width.WellFormed
  width_notFlag : ∀ c ∈ width.text.head?, isFlag c = false
  precision_wellFormed : ∀ field ∈ precision, field.WellFormed
  precision_fits : ∀ digits, precision = some (.digits digits) →
    digitsValue 0 digits ≤ intMax
  length_length : ∀ c ∈ length, isLength c = true
  terminal_terminal : isTerminal terminal = true
  terminal_ne_n : terminal ≠ 'n'.toUInt8

namespace Conversion

def precisionText (precision : Option Field) : List UInt8 :=
  match precision with
  | none => []
  | some field => '.'.toUInt8 :: field.text

/-- The conversion without its `%` and its terminal. -/
def inner (conversion : Conversion) : List UInt8 :=
  conversion.flags ++ conversion.width.text ++
    precisionText conversion.precision ++ conversion.length

/-- The conversion as it is spelled in the format. -/
def text (conversion : Conversion) : List UInt8 :=
  '%'.toUInt8 :: (conversion.inner ++ [conversion.terminal])

/-- The type of the parameter that is converted. -/
def valueType (conversion : Conversion) : ParamType :=
  if conversion.terminal = 's'.toUInt8 then
    match conversion.precision with
    | none => .stringWithNoPrecision
    | some .star => .stringWithDynamicPrecision
    | some (.digits digits) => .string (digitsValue 0 digits)
  else .nonString

/-- The parameters of the conversion: width, then precision, then value. -/
def types (conversion : Conversion) : List ParamType :=
  (if conversion.width = .star then [.dynamicWidth] else []) ++
    (if conversion.precision = some .star then [.dynamicPrecision] else []) ++
    [conversion.valueType]

/-- The number of `*` in the conversion. -/
def stars (conversion : Conversion) : Nat :=
  (if conversion.width = .star then 1 else 0) +
    (if conversion.precision = some .star then 1 else 0)

theorem types_length (conversion : Conversion) :
    conversion.types.length = conversion.stars + 1 := by
  simp only [types, stars, List.length_append, List.length_singleton]
  split <;> split <;> rfl

theorem valueType_ne_invalid (conversion : Conversion) :
    conversion.valueType ≠ .invalid := by
  rw [valueType]
  split
  · split <;> simp
  · simp

theorem invalid_not_mem_types (conversion : Conversion) :
    .invalid ∉ conversion.types := by
  have valueType := conversion.valueType_ne_invalid
  simp only [types, List.mem_append, List.mem_singleton, not_or]
  refine ⟨⟨?_, ?_⟩, valueType.symm⟩
  · split <;> simp
  · split <;> simp

end Conversion

inductive Piece
  | literal (c : UInt8)
  | percent
  | conversion (conversion : Conversion)

namespace Piece

def text : Piece → List UInt8
  | .literal c => [c]
  | .percent => ['%'.toUInt8, '%'.toUInt8]
  | .conversion parsed => parsed.text

def types : Piece → List ParamType
  | .conversion parsed => parsed.types
  | _ => []

/-- A literal is no `%`, and a conversion does not look like `%%`. -/
def Plain : Piece → Prop
  | .literal c => c ≠ '%'.toUInt8
  | .percent => True
  | .conversion parsed => current (parsed.inner ++ [parsed.terminal]) ≠ '%'.toUInt8

instance (piece : Piece) : Decidable piece.Plain :=
  match piece with
  | .literal c => inferInstanceAs (Decidable (c ≠ '%'.toUInt8))
  | .percent => .isTrue trivial
  | .conversion parsed =>
      inferInstanceAs (Decidable (current (parsed.inner ++ [parsed.terminal]) ≠ _))

end Piece

/-- The pieces spell the format. -/
structure Spells (pieces : List Piece) (fmt : List UInt8) : Prop where
  text : pieces.flatMap Piece.text = fmt
  plain : ∀ piece ∈ pieces, piece.Plain

/-- The parameter types of all pieces in order. -/
def paramTypes (pieces : List Piece) : List ParamType := pieces.flatMap Piece.types

def conversions : List Piece → List Conversion
  | [] => []
  | .conversion conversion :: pieces => conversion :: conversions pieces
  | _ :: pieces => conversions pieces

/-! ## Character classes -/

def terminals : List UInt8 :=
  ['d', 'i', 'u', 'o', 'x', 'X', 'f', 'F', 'e', 'E', 'g', 'G', 'a', 'A', 'c', 'p',
    '%', 's', 'n'].map Char.toUInt8

def lengths : List UInt8 := ['h', 'l', 'j', 'z', 't', 'L'].map Char.toUInt8

theorem isTerminal_iff (c : UInt8) : isTerminal c = true ↔ c ∈ terminals := by
  simp [isTerminal, terminals, or_assoc]

theorem isLength_iff (c : UInt8) : isLength c = true ↔ c ∈ lengths := by
  simp [isLength, lengths, or_assoc]

/-- A terminal belongs to no other class. -/
theorem terminal_separate {c : UInt8} (terminal : isTerminal c = true) :
    isFlag c = false ∧ isDigit c = false ∧ isLength c = false ∧
      c ≠ '*'.toUInt8 ∧ c ≠ '.'.toUInt8 ∧ c ≠ 0 := by
  have every : terminals.all fun c => !isFlag c && !isDigit c && !isLength c &&
      c != '*'.toUInt8 && c != '.'.toUInt8 && c != 0 := by decide
  simpa [and_assoc] using List.all_eq_true.mp every c ((isTerminal_iff c).mp terminal)

theorem length_separate {c : UInt8} (length : isLength c = true) :
    isFlag c = false ∧ isDigit c = false ∧ isTerminal c = false ∧
      c ≠ '*'.toUInt8 ∧ c ≠ '.'.toUInt8 ∧ c ≠ 0 := by
  have every : lengths.all fun c => !isFlag c && !isDigit c && !isTerminal c &&
      c != '*'.toUInt8 && c != '.'.toUInt8 && c != 0 := by decide
  simpa [and_assoc] using List.all_eq_true.mp every c ((isLength_iff c).mp length)

theorem flag_notTerminal {c : UInt8} (flag : isFlag c = true) :
    isTerminal c = false ∧ c ≠ 0 := by
  simp only [isFlag, Bool.or_eq_true, beq_iff_eq] at flag
  rcases flag with (((rfl | rfl) | rfl) | rfl) | rfl <;> decide

theorem digit_notTerminal {c : UInt8} (digit : isDigit c = true) :
    isTerminal c = false ∧ c ≠ 0 := by
  simp only [isDigit, Bool.and_eq_true, decide_eq_true_eq] at digit
  constructor
  · by_contra terminal
    have separate := (terminal_separate (Bool.not_eq_false _ ▸ terminal)).2.1
    simp [isDigit, digit] at separate
  · rintro rfl
    exact absurd digit.1 (by decide)

/-- No character of a conversion before its terminal is a terminal or NUL. -/
theorem Conversion.inner_notTerminal (conversion : Conversion) :
    ∀ c ∈ conversion.inner, isTerminal c = false ∧ c ≠ 0 := by
  have field {field : Field} (wellFormed : field.WellFormed) :
      ∀ c ∈ field.text, isTerminal c = false ∧ c ≠ 0 := by
    intro c member
    cases field with
    | digits digits => exact digit_notTerminal (wellFormed c member)
    | star =>
        cases List.mem_singleton.mp member
        decide
  intro c member
  simp only [inner, List.mem_append] at member
  rcases member with ((inFlags | inWidth) | inPrecision) | inLength
  · exact flag_notTerminal (conversion.flags_flag c inFlags)
  · exact field conversion.width_wellFormed c inWidth
  · cases given : conversion.precision with
    | none => simp [precisionText, given] at inPrecision
    | some precision =>
        rw [given, precisionText, List.mem_cons] at inPrecision
        rcases inPrecision with rfl | inPrecision
        · decide
        · exact field (conversion.precision_wellFormed precision given) c inPrecision
  · have separate := length_separate (conversion.length_length c inLength)
    exact ⟨separate.2.2.1, separate.2.2.2.2.2⟩

end StaticLog.Format
