import StaticLog.Decoding.Parameters
import StaticLog.Foundation.Word

/-! # Integers as `printf` would print them

The encoder keeps the width of an integer and drops its signedness, which the decoder
takes from the terminal of the conversion. A direct call of `printf` converts an
integer that is narrower than `int` by its own signedness. -/

namespace StaticLog.Decoding

open StaticLog.Format Encoding

/-- An argument of an integer type. -/
structure Integer where
  isSigned : Bool
  width : IntWidth
  bits : BitVec width.bits

namespace Integer

def scalar (integer : Integer) : Scalar :=
  .integer integer.isSigned integer.width integer.bits

/-- What a call of a variadic function passes for it. Integers narrower than `int`
are converted to `int`. -/
def promoted (integer : Integer) : VarArg :=
  match integer.width with
  | .w64 => .long (Word.convert integer.isSigned integer.bits 64)
  | _ => .int (Word.convert integer.isSigned integer.bits 32)

end Integer

/-! ## What a conversion formats -/

/-- The length modifiers of the 64-bit types. -/
def longLengths : List (List UInt8) := [ascii "l", ascii "ll", ascii "j", ascii "z"]

/-- The number that an integer conversion formats, if the argument is as wide as its
length modifier says. -/
def number (conversion : Conversion) : VarArg → Option Int
  | .int bits =>
      if conversion.length = [] then
        some (Word.number (isSignedTerminal conversion.terminal) bits)
      else none
  | .long bits =>
      if conversion.length ∈ longLengths then
        some (Word.number (isSignedTerminal conversion.terminal) bits)
      else none
  | _ => none

/-- The number that is formatted of the passed arguments. Those in front of it are for
the `*` of the conversion. -/
def formatted (conversion : Conversion) (passed : List VarArg) : Option Int :=
  (passed.drop conversion.stars).head?.bind (number conversion)

def IsInteger (conversion : Conversion) : Prop :=
  isSignedTerminal conversion.terminal = true ∨
    isUnsignedTerminal conversion.terminal = true

/-- The conversion has the length modifier of the width. -/
def HasLength (conversion : Conversion) : IntWidth → Prop
  | .w64 => conversion.length ∈ longLengths
  | _ => conversion.length = []

/-! ## What the decoder passes -/

/-- `decodeNonStringFmt` runs its loop around `snprintf` with this argument, whatever
the C library and the buffer are. -/
def Passes (fmt : List UInt8) (param : Memory UInt8) (paramPos paramSize : Nat)
    (arg : VarArg) : Prop :=
  ∃ boundIsReserved, ∀ libc passes startPos output,
    decodeNonStringFmt libc passes startPos fmt param paramPos paramSize output =
      retryNonString libc startPos fmt
        { arg := arg, boundIsReserved := boundIsReserved } passes output

/-- A stored integer is formatted as a direct call of `printf` would format it. -/
def PrintsLikePrintf (integer : Integer) (conversion : Conversion) : Prop :=
  ∀ type precision size stored param paramPos,
    let paramSize := (getArgSize type precision size (.scalar integer.scalar)).stringSize
    storeArgument type paramSize (.scalar integer.scalar) = .ok stored →
    Memory.slice param paramPos stored.length = stored →
    ∃ arg value, Passes conversion.text param paramPos paramSize arg ∧
      formatted conversion [arg] = some value ∧
      ∀ fields, fields.length = conversion.stars →
        formatted conversion (fields ++ [integer.promoted]) = some value

/-- A C library whose `snprintf` makes a longer text of one argument than of all
others. -/
def tellingLibc (arg : VarArg) : Libc where
  render _ other := if other = arg then [0] else []
  render_fits := by
    intro fmt other
    split <;> decide
  fails _ _ := false
  malloc _ _ := none
  heapTail _ := []

/-- The argument is the one that the switch selects. -/
theorem passes_iff {fmt : List UInt8} {param : Memory UInt8} {paramPos paramSize : Nat}
    {arg : VarArg} :
    Passes fmt param paramPos paramSize arg ↔
      ∃ branch, selectBranch paramSize (fmt.getLastD 0)
        (Memory.slice param paramPos paramSize) = some branch ∧ branch.arg = arg := by
  constructor
  · intro passes
    rcases passes with ⟨boundIsReserved, same⟩
    -- Room for one character and the NUL: the library tells the argument by the length.
    let output : Output :=
      { heap := fun _ => 0, logBuffer := 0, length := 2, reserved := 2, mallocs := 0 }
    have fits (branch : Branch) :
        (tellingLibc arg).fmtLen fmt branch.arg < output.reserved := by
      show (if branch.arg = arg then [0] else []).length < 2
      split <;> decide
    have prints (branch : Branch) :=
      (retryNonString_fits (tellingLibc arg) 1 0 fmt branch output (fits branch)).2
        Nat.one_ne_zero
    have equal := congrArg Prod.snd (same (tellingLibc arg) 1 0 output)
    rw [prints] at equal
    simp only [decodeNonStringFmt] at equal
    split at equal
    · simp [tellingLibc, Libc.fmtLen, toInt, wrapInt] at equal
    · rename_i branch selected
      refine ⟨branch, selected, ?_⟩
      by_contra other
      rw [prints] at equal
      simp [tellingLibc, Libc.fmtLen, toInt, wrapInt, other] at equal
  · intro selects
    rcases selects with ⟨branch, selected, rfl⟩
    refine ⟨branch.boundIsReserved, ?_⟩
    intro libc passes startPos output
    simp only [decodeNonStringFmt, selected]

theorem terminal_ne_c {terminal : UInt8}
    (integral : isSignedTerminal terminal = true ∨ isUnsignedTerminal terminal = true) :
    (terminal == 'c'.toUInt8) = false := by
  simp only [isSignedTerminal, isUnsignedTerminal, Bool.or_eq_true, beq_iff_eq] at integral
  rcases integral with (rfl | rfl) | ((rfl | rfl) | rfl) | rfl <;> decide

/-- The decoder passes what `printf` would get for an integer of the same bits with the
signedness of the terminal. -/
theorem selectBranch_integer {width : IntWidth} {bits : BitVec width.bits}
    {param : List UInt8} (read : readWord param width.bits = bits) {terminal : UInt8}
    (integral : isSignedTerminal terminal = true ∨ isUnsignedTerminal terminal = true) :
    selectBranch width.size terminal param =
      some { arg := (Integer.mk (isSignedTerminal terminal) width bits).promoted
             boundIsReserved := false } := by
  have notChar := terminal_ne_c integral
  subst read
  cases signed : isSignedTerminal terminal with
  | true =>
      cases width <;>
        simp [selectBranch, IntWidth.size, IntWidth.bits, Integer.promoted, notChar,
          signed, Word.convert_signed]
  | false =>
      have unsigned : isUnsignedTerminal terminal = true := by simpa [signed] using integral
      cases width <;>
        simp [selectBranch, IntWidth.size, IntWidth.bits, Integer.promoted, notChar,
          signed, unsigned, Word.convert_unsigned]

theorem text_getLastD (conversion : Conversion) :
    conversion.text.getLastD 0 = conversion.terminal := by
  rw [Conversion.text, ← List.cons_append, List.getLastD_concat]

/-- What is passed for a stored integer. -/
theorem passes_integer {integer : Integer} {conversion : Conversion}
    (isInteger : IsInteger conversion) {param : Memory UInt8} {paramPos : Nat}
    (laid : Memory.slice param paramPos integer.scalar.object.length =
      integer.scalar.object) (arg : VarArg) :
    Passes conversion.text param paramPos integer.scalar.size arg ↔
      { integer with isSigned := isSignedTerminal conversion.terminal }.promoted = arg := by
  rw [Scalar.object_length] at laid
  have read : readWord (Memory.slice param paramPos integer.width.size)
      integer.width.bits = integer.bits := by
    rw [show integer.width.size = integer.scalar.size from rfl, laid, readWord,
      Scalar.value_object]
    exact (BitVec.ofNat_toNat _ _).trans (BitVec.setWidth_eq _)
  rw [passes_iff, text_getLastD, show integer.scalar.size = integer.width.size from rfl,
    selectBranch_integer read isInteger]
  simp

/-! ## Both readings -/

theorem promoted_eq_iff {width : IntWidth} (bits : BitVec width.bits) (left right : Bool) :
    (Integer.mk left width bits).promoted = (Integer.mk right width bits).promoted ↔
      32 ≤ width.bits ∨ bits.msb = false ∨ left = right := by
  cases width with
  | w8 =>
      have narrow := Word.convert_eq_iff (show 8 < 32 by decide) bits left right
      simpa [Integer.promoted, IntWidth.bits] using narrow
  | w16 =>
      have narrow := Word.convert_eq_iff (show 16 < 32 by decide) bits left right
      simpa [Integer.promoted, IntWidth.bits] using narrow
  | w32 =>
      have same (isSigned : Bool) : (Integer.mk isSigned .w32 bits).promoted = .int bits :=
        congrArg VarArg.int (Word.convert_self isSigned bits)
      simp [same, IntWidth.bits]
  | w64 =>
      have same (isSigned : Bool) : (Integer.mk isSigned .w64 bits).promoted = .long bits :=
        congrArg VarArg.long (Word.convert_self isSigned bits)
      simp [same, IntWidth.bits]

theorem number_promoted {integer : Integer} {conversion : Conversion}
    (length : HasLength conversion integer.width) :
    ∃ value, number conversion integer.promoted = some value := by
  rcases integer with ⟨isSigned, width, bits⟩
  cases width <;> exact ⟨_, if_pos length⟩

theorem number_eq_some {conversion : Conversion} {arg : VarArg} {value : Int}
    (reads : number conversion arg = some value) :
    (∃ bits, arg = .int bits ∧ conversion.length = [] ∧
      Word.number (isSignedTerminal conversion.terminal) bits = value) ∨
    (∃ bits, arg = .long bits ∧ conversion.length ∈ longLengths ∧
      Word.number (isSignedTerminal conversion.terminal) bits = value) := by
  cases arg with
  | int bits =>
      simp only [number, Option.ite_none_right_eq_some, Option.some.injEq] at reads
      exact .inl ⟨bits, rfl, reads⟩
  | long bits =>
      simp only [number, Option.ite_none_right_eq_some, Option.some.injEq] at reads
      exact .inr ⟨bits, rfl, reads⟩
  | float bits => cases reads
  | double bits => cases reads
  | string chars => cases reads

/-- Arguments that a conversion formats alike are the same. -/
theorem number_injective {conversion : Conversion} {left right : VarArg} {value : Int}
    (leftReads : number conversion left = some value)
    (rightReads : number conversion right = some value) : left = right := by
  have short : ¬[] ∈ longLengths := by decide
  rcases number_eq_some leftReads with
    ⟨leftBits, rfl, leftLength, leftValue⟩ | ⟨leftBits, rfl, leftLength, leftValue⟩
  · rcases number_eq_some rightReads with
      ⟨rightBits, rfl, _, rightValue⟩ | ⟨_, _, rightLength, _⟩
    · rw [Word.number_injective (leftValue.trans rightValue.symm)]
    · rw [leftLength] at rightLength
      exact absurd rightLength short
  · rcases number_eq_some rightReads with
      ⟨_, _, rightLength, _⟩ | ⟨rightBits, rfl, _, rightValue⟩
    · rw [rightLength] at leftLength
      exact absurd leftLength short
    · rw [Word.number_injective (leftValue.trans rightValue.symm)]

/-- `snprintf` is passed one argument, which is the value only if the conversion has no
`*`. -/
theorem formatted_passed (conversion : Conversion) (arg : VarArg) :
    formatted conversion [arg] =
      if conversion.stars = 0 then number conversion arg else none := by
  cases stars : conversion.stars with
  | zero => simp [formatted, stars]
  | succ count => simp [formatted, stars]

theorem formatted_direct {conversion : Conversion} {fields : List VarArg}
    (complete : fields.length = conversion.stars) (arg : VarArg) :
    formatted conversion (fields ++ [arg]) = number conversion arg := by
  rw [formatted, List.drop_left' complete]
  rfl

/-! ## When integers are printed as `printf` would print them -/

/-- A stored integer is printed as `printf` would print it exactly if the conversion has
no `*` and the two ways of widening the integer to `int` agree. -/
theorem printsLikePrintf_iff (integer : Integer) {conversion : Conversion}
    (isInteger : IsInteger conversion) (length : HasLength conversion integer.width) :
    PrintsLikePrintf integer conversion ↔
      conversion.stars = 0 ∧
        (32 ≤ integer.width.bits ∨ integer.bits.msb = false ∨
          integer.isSigned = isSignedTerminal conversion.terminal) := by
  rcases number_promoted length with ⟨value, direct⟩
  have direct_fields {fields : List VarArg} (complete : fields.length = conversion.stars) :
      formatted conversion (fields ++ [integer.promoted]) = some value := by
    rw [formatted_direct complete, direct]
  have agree := promoted_eq_iff integer.bits integer.isSigned
    (isSignedTerminal conversion.terminal)
  constructor
  · intro prints
    let object := integer.scalar.object
    have laid := Memory.slice_overwrite_self (fun _ => 0) 0 object
    rcases prints .nonString 0 0 object _ 0 rfl laid with ⟨arg, other, passes, formats, same⟩
    have decoded := (passes_integer isInteger laid arg).mp passes
    have equal : other = value := by
      have complete : (List.replicate conversion.stars arg).length = conversion.stars :=
        List.length_replicate
      exact Option.some.inj ((same _ complete).symm.trans (direct_fields complete))
    rw [formatted_passed] at formats
    split at formats
    · rename_i noStars
      refine ⟨noStars, agree.mp ?_⟩
      rw [equal] at formats
      exact (number_injective direct formats).trans decoded.symm
    · cases formats
  · intro alike type precision size stored param paramPos paramSize stores laid
    rcases alike with ⟨noStars, alike⟩
    cases stores
    refine ⟨integer.promoted, value, ?_, ?_, fun fields => direct_fields⟩
    · exact (passes_integer isInteger laid _).mpr (agree.mpr alike).symm
    · rw [formatted_passed, if_pos noStars, direct]

namespace Example

def intMinusOne : Integer := { isSigned := true, width := .w32, bits := -1 }

/-- A `uint8_t`. -/
def byte200 : Integer := { isSigned := false, width := .w8, bits := 200 }

end Example

theorem printsLikePrintf_int : PrintsLikePrintf Example.intMinusOne Example.decimal := by
  have signed : IsInteger Example.decimal := .inl rfl
  have plain : HasLength Example.decimal Example.intMinusOne.width := rfl
  apply (printsLikePrintf_iff Example.intMinusOne signed plain).mpr
  decide

/-- `%d` prints the `uint8_t` 200 as -56. -/
theorem not_printsLikePrintf_byte :
    IsInteger Example.decimal ∧ HasLength Example.decimal Example.byte200.width ∧
      formatted Example.decimal [Example.byte200.promoted] = some 200 ∧
      ¬PrintsLikePrintf Example.byte200 Example.decimal := by
  have positive : formatted Example.decimal [Example.byte200.promoted] = some 200 := by
    decide
  refine ⟨.inl rfl, rfl, positive, ?_⟩
  intro prints
  have laid := Memory.slice_overwrite_self (fun _ => 0) 0 Example.byte200.scalar.object
  rcases prints .nonString 0 0 _ _ 0 rfl laid with ⟨arg, value, passes, formats, same⟩
  have decoded := (passes_integer (.inl rfl) laid arg).mp passes
  have negative : formatted Example.decimal [arg] = some (-56) := by
    rw [← decoded]
    decide
  have both : some (-56) = some (200 : Int) :=
    (negative.symm.trans formats).trans ((same [] rfl).symm.trans positive)
  cases both

end StaticLog.Decoding
