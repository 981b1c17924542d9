import StaticLog.Decoding.Denotation

/-! # What a direct call of `printf` would print

A log call stands for a call of `printf` with the same format and the same arguments.
The arguments take the way over their encoding; the text is that of the direct call if
every argument is read back as it would have been passed. -/

namespace StaticLog

/-- What a call of a variadic function passes for an argument. For `long double` and
pointers, which no decoding function hands on, there is nothing. -/
def Arg.promoted : Arg → Option VarArg
  | .scalar (.integer isSigned width bits) =>
      some (Decoding.Integer.mk isSigned width bits).promoted
  | .scalar (.float bits) => some (.float bits)
  | .scalar (.double bits) => some (.double bits)
  | .charPtr string => some (.string string.chars)
  | _ => none

namespace Decoding

open StaticLog.Format Encoding

/-- What a direct call prints: each conversion takes the next argument. -/
def printfPrints : List Piece → List Arg → List Print
  | [], _ => []
  | .literal c :: pieces, args => .character c :: printfPrints pieces args
  | .percent :: pieces, args => .character '%'.toUInt8 :: printfPrints pieces args
  | .conversion conversion :: pieces, args =>
      .formatted conversion (args.head?.bind Arg.promoted) :: printfPrints pieces args.tail

/-- The text of a direct call. -/
def printfText (libc : Libc) (pieces : List Piece) (args : List Arg) : List UInt8 :=
  (printfPrints pieces args).flatMap (Print.text libc)

/-- The argument is read back as a direct call would have passed it: an integer that
is as wide as an `int` or widened as the conversion widens it, a character, a
floating-point number or a string, each under a conversion for it. -/
def ReadsBack (conversion : Conversion) : Arg → Prop
  | .scalar (.integer isSigned width bits) =>
      (IsInteger conversion ∧
          (32 ≤ width.bits ∨ bits.msb = false ∨
            isSigned = isSignedTerminal conversion.terminal)) ∨
        (conversion.terminal = 'c'.toUInt8 ∧ width = .w8 ∧
          (bits.msb = false ∨ isSigned = true))
  | .scalar (.float _) => isFloatTerminal conversion.terminal = true
  | .scalar (.double _) => isFloatTerminal conversion.terminal = true
  | .charPtr string => conversion.terminal = 's'.toUInt8 ∧ string.strlen < 2 ^ 32
  | _ => False

/-! ## One argument -/

theorem cString_of_noNul {chars : List UInt8} (noNul : ∀ c ∈ chars, c ≠ 0) :
    cString chars = chars := by
  have whole : cString (chars ++ []) = chars ++ cString [] := cString_append noNul
  simpa [cString] using whole

/-- The characters of a string stand in front of its NUL. -/
theorem CString.slice_memory (string : CString) :
    Memory.slice string.memory 0 string.strlen = string.chars := by
  rw [CString.memory, CString.strlen, Memory.slice_overwrite_take _ _ _ (by simp),
    List.take_left' rfl]

theorem readWord_object {scalar : Scalar} {bits : Nat} {word : BitVec bits}
    (pattern : scalar.pattern = word.toNat) : readWord scalar.object bits = word := by
  rw [readWord, Scalar.value_object, pattern]
  exact (BitVec.ofNat_toNat _ _).trans (BitVec.setWidth_eq _)

/-- The decoding function passes what a direct call passes. -/
def PassesPromoted (arg : Arg) (passed : Option VarArg) : Prop :=
  passed.isSome = true ∧ passed = arg.promoted

theorem not_passesPromoted {arg : Arg} (none : arg.promoted = none)
    (passed : Option VarArg) : ¬PassesPromoted arg passed := by
  rintro ⟨some, same⟩
  rw [same, none] at some
  cases some

/-! ### The switch under conversions for something else than integers -/

theorem selectBranch_character (size : Nat) (param : List UInt8) :
    selectBranch size 'c'.toUInt8 param =
      if size = 1 then some ⟨.int ((readWord param 8).signExtend 32), true⟩ else none := by
  match size with
  | 0 | 1 | 2 | 3 | 4 | 5 | 6 | 7 | 8 => rfl
  | size + 9 => rw [if_neg (by omega)]; rfl

theorem selectBranch_noInteger {terminal : UInt8}
    (noInteger : ¬(isSignedTerminal terminal = true ∨ isUnsignedTerminal terminal = true))
    (noCharacter : terminal ≠ 'c'.toUInt8) (size : Nat) (param : List UInt8) :
    selectBranch size terminal param =
      if isFloatTerminal terminal = true ∧ size = 4 then
        some ⟨.float (readWord param 32), false⟩
      else if isFloatTerminal terminal = true ∧ size = 8 then
        some ⟨.double (readWord param 64), false⟩
      else none := by
  rw [not_or, Bool.not_eq_true, Bool.not_eq_true] at noInteger
  have other : (terminal == 'c'.toUInt8) = false := beq_eq_false_iff_ne.mpr noCharacter
  simp only [selectBranch, noInteger, other, Bool.false_eq_true, if_false]
  split
  · simp
  · simp
  · simp
  · simp
  · rename_i _ _ four eight
    rw [if_neg fun float => four float.2, if_neg fun float => eight float.2]

theorem promoted_ne_float (integer : Integer) (bits : BitVec 32) :
    integer.promoted ≠ .float bits := by
  rcases integer with ⟨isSigned, width, word⟩
  cases width <;> simp [Integer.promoted]

theorem promoted_ne_double (integer : Integer) (bits : BitVec 64) :
    integer.promoted ≠ .double bits := by
  rcases integer with ⟨isSigned, width, word⟩
  cases width <;> simp [Integer.promoted]

/-- An integer is passed as in a direct call just if it reads back. -/
theorem passesPromoted_integer (conversion : Conversion) (isSigned : Bool) (width : IntWidth)
    (bits : BitVec width.bits) :
    PassesPromoted (.scalar (.integer isSigned width bits))
        ((selectBranch width.size conversion.terminal
          (Scalar.integer isSigned width bits).object).map Branch.arg) ↔
      ReadsBack conversion (.scalar (.integer isSigned width bits)) := by
  have read : readWord (Scalar.integer isSigned width bits).object width.bits = bits :=
    readWord_object rfl
  by_cases integral : isSignedTerminal conversion.terminal = true ∨
      isUnsignedTerminal conversion.terminal = true
  · have noCharacter := (integer_ne integral).2
    have agree := promoted_eq_iff bits (isSignedTerminal conversion.terminal) isSigned
    rw [selectBranch_integer read integral]
    simp only [PassesPromoted, Option.map_some, Option.isSome_some, true_and, Arg.promoted,
      Option.some.injEq, agree, ReadsBack, IsInteger, integral, noCharacter, false_and,
      or_false, eq_comm (a := isSigned)]
  · simp only [ReadsBack, IsInteger, integral, false_and, false_or]
    by_cases character : conversion.terminal = 'c'.toUInt8
    · rw [character, selectBranch_character]
      cases width with
      | w8 =>
          have agree := promoted_eq_iff bits true isSigned
          have narrow : ¬32 ≤ IntWidth.w8.bits := by decide
          have extended : VarArg.int ((readWord (Scalar.integer isSigned .w8 bits).object
              8).signExtend 32) = (Integer.mk true .w8 bits).promoted :=
            congrArg (fun word : BitVec 8 => VarArg.int (word.signExtend 32)) read
          rw [if_pos (show IntWidth.w8.size = 1 from rfl), Option.map_some, extended]
          simp only [PassesPromoted, Option.isSome_some, true_and, Arg.promoted,
            Option.some.injEq, agree, narrow, false_or, eq_comm (a := isSigned)]
      | w16 => simp [PassesPromoted, IntWidth.size]
      | w32 => simp [PassesPromoted, IntWidth.size]
      | w64 => simp [PassesPromoted, IntWidth.size]
    · rw [selectBranch_noInteger integral character]
      simp only [character, false_and, iff_false]
      rintro ⟨found, same⟩
      split at same
      · exact promoted_ne_float _ _ (Option.some.inj same).symm
      · split at same
        · exact promoted_ne_double _ _ (Option.some.inj same).symm
        · cases same

theorem float_not_integer {terminal : UInt8} (float : isFloatTerminal terminal = true) :
    ¬(isSignedTerminal terminal = true ∨ isUnsignedTerminal terminal = true) := by
  simp only [isFloatTerminal, Bool.or_eq_true, beq_iff_eq] at float
  rcases float with ((((((rfl | rfl) | rfl) | rfl) | rfl) | rfl) | rfl) | rfl <;> decide

/-- Both sizes are read as a floating-point number under the conversions for one. -/
theorem selectBranch_real (terminal : UInt8) (param : List UInt8) :
    ((selectBranch 4 terminal param).map Branch.arg = some (.float (readWord param 32)) ↔
        isFloatTerminal terminal = true) ∧
      ((selectBranch 8 terminal param).map Branch.arg =
          some (.double (readWord param 64)) ↔ isFloatTerminal terminal = true) := by
  by_cases integral : isSignedTerminal terminal = true ∨ isUnsignedTerminal terminal = true
  · have noFloat : ¬isFloatTerminal terminal = true := fun float =>
      float_not_integer float integral
    have word := selectBranch_integer (Eq.refl (readWord param IntWidth.w32.bits)) integral
    have long := selectBranch_integer (Eq.refl (readWord param IntWidth.w64.bits)) integral
    simp only [IntWidth.size] at word long
    rw [word, long]
    refine ⟨iff_of_false ?_ noFloat, iff_of_false ?_ noFloat⟩
    · simp [promoted_ne_float]
    · simp [promoted_ne_double]
  · by_cases character : terminal = 'c'.toUInt8
    · subst character
      rw [selectBranch_character, selectBranch_character]
      exact ⟨iff_of_false (by simp) (by decide), iff_of_false (by simp) (by decide)⟩
    · rw [selectBranch_noInteger integral character, selectBranch_noInteger integral character]
      cases float : isFloatTerminal terminal <;> simp

/-- A scalar is passed as in a direct call just if it reads back. -/
theorem passesPromoted_scalar (conversion : Conversion) (scalar : Scalar) :
    PassesPromoted (.scalar scalar)
        ((selectBranch scalar.size conversion.terminal scalar.object).map Branch.arg) ↔
      ReadsBack conversion (.scalar scalar) := by
  cases scalar with
  | integer isSigned width bits => exact passesPromoted_integer conversion isSigned width bits
  | float bits =>
      have real := (selectBranch_real conversion.terminal (Scalar.float bits).object).1
      rw [readWord_object (show (Scalar.float bits).pattern = bits.toNat from rfl)] at real
      exact ⟨fun same => real.mp same.2, fun reads => by
        rw [Scalar.size, real.mpr reads]; exact ⟨rfl, rfl⟩⟩
  | double bits =>
      have real := (selectBranch_real conversion.terminal (Scalar.double bits).object).2
      rw [readWord_object (show (Scalar.double bits).pattern = bits.toNat from rfl)] at real
      exact ⟨fun same => real.mp same.2, fun reads => by
        rw [Scalar.size, real.mpr reads]; exact ⟨rfl, rfl⟩⟩
  | longDouble bits => exact iff_of_false (not_passesPromoted rfl _) id
  | pointer address => exact iff_of_false (not_passesPromoted rfl _) id

/-! ## All arguments -/

/-- The entry of the size array is what `getArgSize` has made of the argument. -/
def Item.Sized (item : Item) : Prop :=
  ∃ precision size, item.size = (getArgSize item.type precision size item.arg).stringSize

theorem sized_items (types : List ParamType) (precision : Nat) (sizes : List Nat)
    (args : List Arg) :
    ∀ item ∈ items types (getArgSizes types precision sizes args).2 args, item.Sized := by
  induction types generalizing precision sizes args with
  | nil => exact fun _ member => absurd member List.not_mem_nil
  | cons type types induction =>
      cases sizes with
      | nil => exact fun _ member => absurd member List.not_mem_nil
      | cons size sizes =>
          cases args with
          | nil => exact fun _ member => absurd member List.not_mem_nil
          | cons head rest =>
              intro item member
              rcases List.mem_cons.mp member with rfl | later
              · exact ⟨precision, size, rfl⟩
              · exact induction _ _ rest item later

/-- A string that is not cut at 2^32 characters is stored whole, unless its precision
is a parameter. -/
theorem stringSize_eq {type : ParamType} (text : ParamType.nonString.value < type.value)
    (static : type ≠ .stringWithDynamicPrecision) {string : CString}
    (short : string.strlen < 2 ^ 32) (precision size : Nat) :
    (getArgSize type precision size (.charPtr string)).stringSize = string.strlen := by
  simp only [getArgSize, getArgSizeString, if_neg (Int.not_le.mpr text),
    Nat.mod_eq_of_lt short, Nat.lt_irrefl, and_false, if_false, static, false_and]

theorem valueType_static {conversion : Conversion} (starFree : conversion.stars = 0) :
    conversion.valueType ≠ .stringWithDynamicPrecision := by
  intro dynamic
  rw [Conversion.valueType] at dynamic
  split at dynamic
  · split at dynamic
    · cases dynamic
    · rename_i star
      simp [Conversion.stars, star] at starFree
    · cases dynamic
  · cases dynamic

theorem ReadsBack.noString {conversion : Conversion} {scalar : Scalar}
    (reads : ReadsBack conversion (.scalar scalar)) :
    conversion.terminal ≠ 's'.toUInt8 := by
  intro string
  cases scalar with
  | integer isSigned width bits =>
      rcases reads with ⟨signed | unsigned, _⟩ | ⟨character, _⟩
      · rw [string] at signed
        cases signed
      · rw [string] at unsigned
        cases unsigned
      · rw [string] at character
        cases character
  | float bits =>
      rw [ReadsBack, string] at reads
      cases reads
  | double bits =>
      rw [ReadsBack, string] at reads
      cases reads
  | longDouble bits => exact reads
  | pointer address => exact reads

/-- An argument that reads back is of a type that its conversion is for, and no pointer
to text under another one. -/
theorem ReadsBack.matches {conversion : Conversion} {arg : Arg}
    (reads : ReadsBack conversion arg) :
    Matches conversion.valueType arg ∧ ¬IsTextPointer conversion.valueType arg := by
  have isString := isString_valueType conversion
  cases arg with
  | scalar scalar =>
      refine ⟨if_neg reads.noString, ?_⟩
      rintro ⟨_, string, same⟩
      cases same
  | charPtr string =>
      rw [decide_eq_true reads.1, decide_eq_true_iff] at isString
      refine ⟨.inr isString, ?_⟩
      rintro ⟨nonString, _⟩
      rw [nonString] at isString
      exact absurd isString (Int.lt_irrefl _)
  | wcharPtr address memory => exact reads.elim

/-- An argument that was encoded for a conversion without a star and reads back. -/
structure Item.For (conversion : Conversion) (item : Item) : Prop where
  type : item.type = conversion.valueType
  starFree : conversion.stars = 0
  encoded : item.Encoded
  sized : item.Sized
  reads : ReadsBack conversion item.arg

/-- The call for such an argument passes what a direct call passes. -/
theorem passed_item {message : Message} {conversion : Conversion} {paramIdx cursor : Nat}
    {item : Item} (type : message.paramTypes.getD paramIdx .invalid = item.type)
    (size : message.paramSizes.getD paramIdx 0 = item.size) (own : item.For conversion)
    (laid : Memory.slice message.params cursor item.block.length = item.block) :
    message.passed conversion paramIdx cursor = item.arg.promoted ∧
      message.cursorBehind paramIdx cursor = cursor + item.block.length := by
  rcases own with ⟨valueType, starFree, ⟨matched, measured, stored, stores⟩, sized, reads⟩
  have clean : ¬IsTextPointer item.type item.arg := valueType ▸ reads.matches.2
  rcases taken_item type size matched clean measured stores laid with ⟨taken, behind⟩
  refine ⟨?_, behind⟩
  have isString : message.isString paramIdx =
      decide (conversion.terminal = 's'.toUInt8) := by
    rw [Message.isString, type, valueType, isString_valueType]
  rw [Message.passed, taken, isString]
  rcases item with ⟨itemType, itemSize, arg⟩
  cases arg with
  | scalar scalar =>
      have passes := (passesPromoted_scalar conversion scalar).mpr reads
      rw [decide_eq_false reads.noString, if_neg (by simp)]
      simp only [Item.value, Scalar.object_length]
      exact passes.2
  | charPtr string =>
      have text : ParamType.nonString.value < conversion.valueType.value := by
        have string := isString_valueType conversion
        rw [decide_eq_true reads.1, decide_eq_true_iff] at string
        exact string
      rcases sized with ⟨precision, before, sized⟩
      simp only at valueType sized
      subst valueType
      rw [stringSize_eq text (valueType_static starFree) reads.2] at sized
      rw [decide_eq_true reads.1, if_pos rfl]
      simp only [Item.value, if_neg (Int.not_le.mpr text), sized, CString.slice_memory,
        cString_of_noNul string.noNul, Arg.promoted]
  | wcharPtr address memory => exact reads.elim

/-- For a message whose arguments read back the same is printed as in the direct call. -/
theorem messagePrints_items {message : Message} {pieces : List Piece} {items : List Item}
    {paramIdx cursor stop : Nat} (describes : Describes message paramIdx items)
    (laid : Memory.Laid message.params cursor (items.map Item.block) stop)
    (own : List.Forall₂ (fun conversion item => Item.For conversion item)
      (conversions pieces) (items.take (conversions pieces).length)) :
    messagePrints message pieces paramIdx cursor =
      printfPrints pieces (items.map Item.arg) := by
  induction pieces generalizing items paramIdx cursor with
  | nil => rfl
  | cons piece pieces induction =>
      cases piece with
      | literal c => exact congrArg (List.cons _) (induction describes laid own)
      | percent => exact congrArg (List.cons _) (induction describes laid own)
      | conversion conversion =>
          cases items with
          | nil => cases own
          | cons item items =>
              rcases describes with ⟨type, size, describes⟩
              cases own with
              | cons first others =>
                  rcases passed_item type size first laid.1 with ⟨passed, behind⟩
                  rw [messagePrints, printfPrints, passed, behind,
                    induction describes laid.2 others]
                  rfl

theorem items_forall₂ {Related : Conversion → Arg → Prop} {list : List Conversion}
    {args : List Arg} (related : List.Forall₂ Related list args) {sizes : List Nat}
    (enough : list.length ≤ sizes.length) :
    List.Forall₂ (fun conversion item =>
        Item.type item = conversion.valueType ∧ Related conversion item.arg)
      list (items (list.map Conversion.valueType) sizes args) := by
  induction related generalizing sizes with
  | nil => exact .nil
  | cons own _ induction =>
      cases sizes with
      | nil => cases enough
      | cons size sizes =>
          exact .cons ⟨rfl, own⟩ (induction (Nat.le_of_succ_le_succ enough))

/-- What two messages have in common if they differ in what the size array says of
strings. -/
structure Message.Agrees (message other : Message) : Prop where
  numParams : message.numParams = other.numParams
  paramTypes : message.paramTypes = other.paramTypes
  params : message.params = other.params
  paramSizes : ∀ paramIdx, message.isString paramIdx = false →
    message.paramSizes.getD paramIdx 0 = other.paramSizes.getD paramIdx 0

namespace Message.Agrees

variable {message other : Message} (agrees : message.Agrees other)
include agrees

theorem taken_eq (paramIdx cursor : Nat) :
    message.taken paramIdx cursor = other.taken paramIdx cursor ∧
      message.cursorBehind paramIdx cursor = other.cursorBehind paramIdx cursor := by
  have isString : message.isString paramIdx = other.isString paramIdx := by
    rw [isString, isString, agrees.paramTypes]
  have stringSize : message.stringSize cursor = other.stringSize cursor := by
    rw [stringSize, stringSize, agrees.params]
  rw [taken, taken, cursorBehind, cursorBehind, ← isString, stringSize, agrees.params]
  cases kind : message.isString paramIdx with
  | true => exact ⟨rfl, rfl⟩
  | false =>
      rw [agrees.paramSizes paramIdx kind]
      exact ⟨rfl, rfl⟩

/-- What is printed does not depend on the entries of the size array for strings. -/
theorem messagePrints_eq (pieces : List Piece) (paramIdx cursor : Nat) :
    messagePrints message pieces paramIdx cursor =
      messagePrints other pieces paramIdx cursor := by
  induction pieces generalizing paramIdx cursor with
  | nil => rfl
  | cons piece pieces induction =>
      cases piece with
      | literal c => exact congrArg (List.cons _) (induction paramIdx cursor)
      | percent => exact congrArg (List.cons _) (induction paramIdx cursor)
      | conversion conversion =>
          rcases agrees.taken_eq paramIdx cursor with ⟨taken, behind⟩
          have isString : message.isString paramIdx = other.isString paramIdx := by
            rw [isString, isString, agrees.paramTypes]
          rw [messagePrints, messagePrints, passed, passed, isString, taken, behind,
            induction]

end Message.Agrees

section Encoded

variable {pieces : List Piece} {args : List Arg} {written : List UInt8}
  (starFree : ∀ conversion ∈ conversions pieces, conversion.stars = 0)
  (reads : List.Forall₂ ReadsBack (conversions pieces) args)
include starFree reads

theorem matches_of_readsBack : List.Forall₂ Matches (paramTypes pieces) args := by
  rw [paramTypes_of_starFree starFree, List.forall₂_map_left_iff]
  exact reads.imp fun _ _ own => own.matches.1

theorem encodedItems_for (stored : encoding (paramTypes pieces) args = .ok written) :
    List.Forall₂ (fun conversion item => Item.For conversion item) (conversions pieces)
      (encodedItems (paramTypes pieces) args) := by
  have encoded := encodedItems_encoded (matches_of_readsBack starFree reads) stored
  have sized := sized_items (paramTypes pieces) initialPrecision
    (initialSizes (paramTypes pieces).length) args
  have enough : (conversions pieces).length ≤ (getArgSizes (paramTypes pieces)
      initialPrecision (initialSizes (paramTypes pieces).length) args).2.length := by
    rw [getArgSizes_length, initialSizes, List.length_replicate, length_paramTypes starFree]
    exact Nat.le_succ _
  have related := items_forall₂ reads enough
  rw [← paramTypes_of_starFree starFree] at related
  rw [List.forall₂_iff_zip] at related ⊢
  refine ⟨related.1, ?_⟩
  intro conversion item pair
  rcases related.2 pair with ⟨type, reads⟩
  rcases List.of_mem_zip pair with ⟨spelled, member⟩
  exact ⟨type, starFree conversion spelled, encoded item member, sized item member, reads⟩

/-- For the encoded message the same is printed as in the direct call. -/
theorem messagePrints_encoded (stored : encoding (paramTypes pieces) args = .ok written)
    {message : Message} {params : Memory UInt8}
    (agrees : message.Agrees (encodedMessage (paramTypes pieces) args params))
    {paramList : Nat} (read : Memory.slice params paramList written.length = written) :
    messagePrints message (visible pieces) 0 paramList =
      printfPrints (visible pieces) args := by
  have own := encodedItems_for starFree reads stored
  have seen := List.prefix_iff_eq_take.mp (conversions_visible_isPrefix pieces)
  have front := List.forall₂_take (conversions (visible pieces)).length own
  rw [← seen] at front
  rw [agrees.messagePrints_eq, messagePrints_items (describes_encoded params)
    (encodedItems_laid stored read) front]
  have matched := matches_of_readsBack starFree reads
  have zipped := congrArg (List.map Prod.snd) (encodedItems_zip (paramTypes pieces) args)
  rw [List.map_map, List.map_snd_zip matched.length_eq.ge] at zipped
  exact congrArg _ zipped

end Encoded

/-- What `process_fmt` makes of the encoded arguments of a log call is what a direct
call of `printf` prints, if `snprintf` does not fail. The entries of the size array for
strings may be anything. -/
theorem processFmt_prints {libc : Libc} (allocates : libc.Allocates) {passes : Nat}
    (enough : 0 < passes) {fmt : List UInt8} {pieces : List Piece}
    (spells : Spells pieces fmt)
    (starFree : ∀ conversion ∈ conversions pieces, conversion.stars = 0)
    (short : ∀ conversion ∈ conversions pieces, conversion.text.length < 100)
    {args : List Arg} (reads : List.Forall₂ ReadsBack (conversions pieces) args)
    {written : List UInt8} (stored : encoding (paramTypes pieces) args = .ok written)
    {message : Message} {params : Memory UInt8}
    (agrees : message.Agrees (encodedMessage (paramTypes pieces) args params))
    {paramList : Nat} (read : Memory.slice params paramList written.length = written)
    {output : Output} (placed : output.Placed) {startPos : Nat}
    (succeeds : ∀ print ∈ printfPrints (visible pieces) args, print.Succeeds libc)
    (room : startPos + (printfText libc (visible pieces) args).length < output.length) :
    Formats (printfText libc (visible pieces) args) startPos output
      (processFmt libc passes fmt message paramList output startPos) := by
  have prints := messagePrints_encoded starFree reads stored agrees read
  have text : messageText libc message (visible pieces) 0 paramList =
      printfText libc (visible pieces) args := congrArg (List.flatMap (Print.text libc)) prints
  have params : (conversions (visible pieces)).length ≤ message.numParams := by
    rw [agrees.numParams]
    exact (conversions_visible_isPrefix pieces).length_le.trans (length_conversions_le pieces)
  rw [← text] at room ⊢
  exact processFmt_formats allocates enough spells short message params paramList placed
    startPos (prints ▸ succeeds) room

namespace Example

def stringParams : Memory UInt8 := Memory.overwrite (fun _ => 0) 0 stringBytes

/-- The message of `%s %d` when another thread has logged a string of 99 characters. -/
def disturbedMessage : Message :=
  { encodedMessage (paramTypes stringPieces) [hi, seven] stringParams with
    paramSizes := [99, 4, 0] }

theorem succeeds_sample (print : Print) : print.Succeeds .sample := by
  cases print with
  | character _ => trivial
  | formatted _ _ => exact fun _ _ => rfl

end Example

example :
    Formats (printfText .sample (visible Example.stringPieces) [Example.hi, Example.seven])
      47 Example.output
      (processFmt .sample 1 (ascii "%s %d") Example.disturbedMessage 0 Example.output 47) := by
  have spells : Spells Example.stringPieces (ascii "%s %d") := ⟨by decide, by decide⟩
  have reads : List.Forall₂ ReadsBack (conversions Example.stringPieces)
      [Example.hi, Example.seven] :=
    .cons ⟨rfl, by decide⟩ (.cons (.inl ⟨.inl rfl, .inl (by decide)⟩) .nil)
  have stored : encoding (paramTypes Example.stringPieces) [Example.hi, Example.seven] =
      .ok Example.stringBytes := by rfl
  have agrees : Example.disturbedMessage.Agrees (encodedMessage
      (paramTypes Example.stringPieces) [Example.hi, Example.seven] Example.stringParams) := by
    refine ⟨rfl, rfl, rfl, ?_⟩
    intro paramIdx nonString
    cases paramIdx with
    | zero => cases nonString
    | succ paramIdx => rfl
  apply processFmt_prints Example.sample_allocates (Nat.le_refl 1) spells (by decide)
    (by decide) reads stored agrees (Memory.slice_overwrite_self _ _ _)
  · exact ⟨by decide, by decide⟩
  · exact fun print _ => Example.succeeds_sample print
  · decide

end Decoding

end StaticLog
