import Mathlib.Algebra.GroupWithZero.Nat
import StaticLog.Format.Positions

/-! # Which formats are accepted

The documented form of a conversion, `flags* ('*' | digits*) [. ('*' | digits*)]
length* terminal`, without a rule on how far each part reaches. Reading a format
from left to right, every `%` that is not half of a `%%` has to start a
conversion of this form; the first one that does not is an error. -/

namespace StaticLog.Format

/-- The parts of a conversion behind its `%`. -/
structure Form where
  flags : List UInt8
  width : Field
  precision : Option Field
  length : List UInt8
  terminal : UInt8

namespace Form

structure WellFormed (form : Form) : Prop where
  flags : ∀ c ∈ form.flags, isFlag c = true
  width : form.width.WellFormed
  precision : ∀ field ∈ form.precision, field.WellFormed
  length : ∀ c ∈ form.length, isLength c = true
  terminal : isTerminal form.terminal = true
  terminal_ne_n : form.terminal ≠ 'n'.toUInt8

def text (form : Form) : List UInt8 :=
  form.flags ++ form.width.text ++ Conversion.precisionText form.precision ++
    form.length ++ [form.terminal]

def valueType (form : Form) : ParamType :=
  if form.terminal = 's'.toUInt8 then
    match form.precision with
    | none => .stringWithNoPrecision
    | some .star => .stringWithDynamicPrecision
    | some (.digits digits) => .string (digitsValue 0 digits)
  else .nonString

def types (form : Form) : List ParamType :=
  (if form.width = .star then [.dynamicWidth] else []) ++
    (if form.precision = some .star then [.dynamicPrecision] else []) ++
    [form.valueType]

/-- The number of `*` in the conversion. -/
def stars (form : Form) : Nat :=
  (if form.width = .star then 1 else 0) + (if form.precision = some .star then 1 else 0)

theorem types_length (form : Form) : form.types.length = 1 + form.stars := by
  simp only [types, stars, List.length_append, List.length_singleton]
  split <;> split <;> rfl

end Form

/-- What a format consists of. -/
inductive Item
  | literal (c : UInt8)
  | percent
  | conversion (form : Form)

namespace Item

def text : Item → List UInt8
  | .literal c => [c]
  | .percent => ['%'.toUInt8, '%'.toUInt8]
  | .conversion form => '%'.toUInt8 :: form.text

def types : Item → List ParamType
  | .conversion form => form.types
  | _ => []

/-- How many parameters it takes: one for the value and one for each `*`. -/
def parameters : Item → Nat
  | .conversion form => 1 + form.stars
  | _ => 0

/-- `%%` is literal text; any other `%` starts a conversion. -/
def Valid : Item → Prop
  | .literal c => c ≠ '%'.toUInt8
  | .percent => True
  | .conversion form => form.WellFormed ∧ current form.text ≠ '%'.toUInt8

theorem types_length (item : Item) : item.types.length = item.parameters := by
  cases item with
  | conversion form => exact form.types_length
  | literal c => rfl
  | percent => rfl

end Item

/-- Reading the format from left to right one meets these items and comes to
`rest`. -/
structure Reads (items : List Item) (fmt rest : List UInt8) : Prop where
  valid : ∀ item ∈ items, item.Valid
  text : fmt = items.flatMap Item.text ++ rest

/-- A conversion of the documented form starts here, behind its `%`. -/
def Starts (rest : List UInt8) : Prop :=
  ∃ form : Form, ∃ behind, form.WellFormed ∧ rest = form.text ++ behind

/-- Some `%` of the format is not half of a `%%` and starts no conversion. -/
def Malformed (fmt : List UInt8) : Prop :=
  ∃ items rest, Reads items fmt ('%'.toUInt8 :: rest) ∧ current rest ≠ '%'.toUInt8 ∧
    ¬Starts rest

/-- The digits of every precision that is met have a value that fits an `int`. -/
def PrecisionsFit (fmt : List UInt8) : Prop :=
  ∀ items rest, Reads items fmt ('%'.toUInt8 :: rest) → current rest ≠ '%'.toUInt8 →
    ∀ flags width digits behind, (∀ c ∈ flags, isFlag c = true) → width.WellFormed →
      (∀ c ∈ digits, isDigit c = true) →
      rest = flags ++ Field.text width ++ '.'.toUInt8 :: (digits ++ behind) →
        digitsValue 0 digits ≤ intMax

/-! ## The form against the grammar of the parser -/

/-- Zeros at the start of a width can as well be read as flags. -/
theorem Field.reads_flags {width : Field} (wellFormed : width.WellFormed) :
    ∃ zeros rest, (∀ c ∈ zeros, isFlag c = true) ∧ Field.WellFormed rest ∧
      (∀ c ∈ rest.text.head?, isFlag c = false) ∧ zeros ++ rest.text = width.text ∧
      (rest = .star ↔ width = .star) := by
  cases width with
  | star =>
      refine ⟨[], .star, by simp, trivial, ?_, rfl, Iff.rfl⟩
      intro c member
      cases member
      rfl
  | digits spelled =>
      refine ⟨spelled.takeWhile isFlag, .digits (spelled.dropWhile isFlag),
        mem_takeWhile, ?_, ?_, List.takeWhile_append_dropWhile, by simp⟩
      · intro c member
        exact wellFormed c ((List.dropWhile_sublist _).subset member)
      · intro c member
        have first := List.head?_dropWhile_not isFlag spelled
        cases rest : spelled.dropWhile isFlag with
        | nil => simp [Field.text, rest] at member
        | cons head tail =>
            rw [rest] at first
            simp only [Field.text, rest, List.head?_cons, Option.mem_some_iff] at member
            subst member
            exact first

/-- A conversion of the documented form is one of the parser's grammar. -/
theorem Form.WellFormed.conversion {form : Form} (wellFormed : form.WellFormed)
    (fits : ∀ digits, form.precision = some (.digits digits) →
      digitsValue 0 digits ≤ intMax) :
    ∃ conversion : Conversion, conversion.inner ++ [conversion.terminal] = form.text ∧
      conversion.types = form.types := by
  rcases Field.reads_flags wellFormed.width with
    ⟨zeros, rest, zerosFlags, restFormed, notFlag, same, star⟩
  refine ⟨{
    flags := form.flags ++ zeros
    width := rest
    precision := form.precision
    length := form.length
    terminal := form.terminal
    flags_flag := ?_
    width_wellFormed := restFormed
    width_notFlag := notFlag
    precision_wellFormed := wellFormed.precision
    precision_fits := fits
    length_length := wellFormed.length
    terminal_terminal := wellFormed.terminal
    terminal_ne_n := wellFormed.terminal_ne_n }, ?_, ?_⟩
  · intro c member
    rcases List.mem_append.mp member with inFlags | inZeros
    · exact wellFormed.flags c inFlags
    · exact zerosFlags c inZeros
  · simp only [Conversion.inner, Form.text, ← same, List.append_assoc]
  · simp only [Conversion.types, Form.types, star]
    rfl

/-- And the other way round. -/
theorem Conversion.form (conversion : Conversion) :
    ∃ form : Form, form.WellFormed ∧
      form.text = conversion.inner ++ [conversion.terminal] :=
  ⟨⟨conversion.flags, conversion.width, conversion.precision, conversion.length,
      conversion.terminal⟩,
    ⟨conversion.flags_flag, conversion.width_wellFormed, conversion.precision_wellFormed,
      conversion.length_length, conversion.terminal_terminal, conversion.terminal_ne_n⟩,
    rfl⟩

theorem Conversion.starts (conversion : Conversion) (behind : List UInt8) :
    Starts (conversion.inner ++ conversion.terminal :: behind) := by
  rcases conversion.form with ⟨form, wellFormed, same⟩
  refine ⟨form, behind, wellFormed, ?_⟩
  rw [same, List.append_assoc, List.singleton_append]

/-! ## Items against the pieces of the parser -/

/-- A precision that has been read fits, since the format was read up to it. -/
theorem Reads.precision_fits {items : List Item} {fmt rest : List UInt8}
    (reads : Reads items fmt rest) (fits : PrecisionsFit fmt) {form : Form}
    (member : .conversion form ∈ items) (digits : List UInt8)
    (given : form.precision = some (.digits digits)) :
    digitsValue 0 digits ≤ intMax := by
  rcases List.append_of_mem member with ⟨before, after, rfl⟩
  rcases reads.valid _ member with ⟨wellFormed, single⟩
  have earlier : Reads before fmt
      ('%'.toUInt8 :: (form.text ++ (after.flatMap Item.text ++ rest))) := by
    constructor
    · intro item inside
      exact reads.valid item (List.mem_append_left _ inside)
    · rw [reads.text]
      simp [Item.text]
  have notSecond : current (form.text ++ (after.flatMap Item.text ++ rest)) ≠
      '%'.toUInt8 := by
    cases spelled : form.text with
    | nil => simp [Form.text] at spelled
    | cons c text =>
        rw [spelled] at single
        exact single
  apply fits before _ earlier notSecond form.flags form.width digits
    (form.length ++ form.terminal :: (after.flatMap Item.text ++ rest))
    wellFormed.flags wellFormed.width
  · exact wellFormed.precision _ given
  · simp [Form.text, given, Conversion.precisionText, Field.text]

/-- What has been read can be read as pieces of the parser's grammar. -/
theorem pieces_of_items {items : List Item} (valid : ∀ item ∈ items, item.Valid)
    (fits : ∀ form, .conversion form ∈ items → ∀ digits,
      form.precision = some (.digits digits) → digitsValue 0 digits ≤ intMax) :
    ∃ pieces : List Piece, (∀ piece ∈ pieces, piece.Plain) ∧
      pieces.flatMap Piece.text = items.flatMap Item.text ∧
      paramTypes pieces = items.flatMap Item.types := by
  induction items with
  | nil => exact ⟨[], by simp, rfl, rfl⟩
  | cons item items induction =>
      rcases induction (fun other member => valid other (by simp [member]))
          (fun form member => fits form (by simp [member])) with
        ⟨pieces, plain, text, types⟩
      have first : ∃ piece : Piece, piece.Plain ∧ piece.text = item.text ∧
          piece.types = item.types := by
        have own := valid item (by simp)
        cases item with
        | literal c => exact ⟨.literal c, own, rfl, rfl⟩
        | percent => exact ⟨.percent, trivial, rfl, rfl⟩
        | conversion form =>
            rcases own.1.conversion (fits form (by simp)) with ⟨conversion, same, types⟩
            refine ⟨.conversion conversion, ?_, congrArg ('%'.toUInt8 :: ·) same, types⟩
            simp only [Piece.Plain, same]
            exact own.2
      rcases first with ⟨piece, firstPlain, firstText, firstTypes⟩
      refine ⟨piece :: pieces, ?_, ?_, ?_⟩
      · intro other member
        rcases List.mem_cons.mp member with rfl | member
        · exact firstPlain
        · exact plain other member
      · rw [List.flatMap_cons, List.flatMap_cons, firstText, text]
      · rw [paramTypes_cons, List.flatMap_cons, firstTypes, types]

theorem items_of_pieces {pieces : List Piece} (plain : ∀ piece ∈ pieces, piece.Plain) :
    ∃ items : List Item, (∀ item ∈ items, item.Valid) ∧
      items.flatMap Item.text = pieces.flatMap Piece.text := by
  induction pieces with
  | nil => exact ⟨[], by simp, rfl⟩
  | cons piece pieces induction =>
      rcases induction (fun other member => plain other (by simp [member])) with
        ⟨items, valid, text⟩
      have first : ∃ item : Item, item.Valid ∧ item.text = piece.text := by
        have own := plain piece (by simp)
        cases piece with
        | literal c => exact ⟨.literal c, own, rfl⟩
        | percent => exact ⟨.percent, trivial, rfl⟩
        | conversion conversion =>
            rcases conversion.form with ⟨form, wellFormed, same⟩
            refine ⟨.conversion form, ⟨wellFormed, ?_⟩, congrArg ('%'.toUInt8 :: ·) same⟩
            rw [same]
            exact own
      rcases first with ⟨item, firstValid, firstText⟩
      refine ⟨item :: items, ?_, ?_⟩
      · intro other member
        rcases List.mem_cons.mp member with rfl | member
        · exact firstValid
        · exact valid other member
      · rw [List.flatMap_cons, List.flatMap_cons, firstText, text]

/-! ## Where the parser fails -/

/-- An error is raised at a `%` in front of which there are pieces only. -/
theorem getParamInfoFrom_error {passes paramNum : Nat} {fmt : List UInt8}
    {error : ParseError} (failed : getParamInfoFrom passes fmt paramNum = .error error) :
    ∃ (pieces : List Piece) (rest : List UInt8) (left : Nat),
      (∀ piece ∈ pieces, piece.Plain) ∧
      fmt = pieces.flatMap Piece.text ++ '%'.toUInt8 :: rest ∧
      current rest ≠ '%'.toUInt8 ∧ scanConversion rest left = .error error := by
  induction passes generalizing fmt paramNum with
  | zero => cases failed
  | succ passes induction =>
      cases fmt with
      | nil => cases failed
      | cons c rest =>
          simp only [getParamInfoFrom] at failed
          split at failed
          case isTrue literal =>
            rcases induction failed with ⟨pieces, behind, left, plain, text, rest⟩
            refine ⟨.literal c :: pieces, behind, left, ?_, by rw [text]; rfl, rest⟩
            exact List.forall_mem_cons.mpr ⟨bne_iff_ne.mp literal, plain⟩
          case isFalse percent =>
            obtain rfl : c = '%'.toUInt8 := by simpa using percent
            split at failed
            case isTrue second =>
              have secondFirst := eq_cons_of_current (beq_iff_eq.mp second) (by decide)
              rcases induction failed with ⟨pieces, behind, left, plain, text, rest⟩
              refine ⟨.percent :: pieces, behind, left, ?_, ?_, rest⟩
              · exact List.forall_mem_cons.mpr ⟨trivial, plain⟩
              · rw [secondFirst, text]
                rfl
            case isFalse single =>
              have notSecond : current rest ≠ '%'.toUInt8 := by simpa using single
              split at failed
              · rename_i scanned
                cases failed
                exact ⟨[], rest, paramNum, by simp, rfl, notSecond, scanned⟩
              · cases failed
              · rename_i behind left scanned
                rcases scanConversion_next scanned with ⟨conversion, split, _⟩
                rcases induction failed with ⟨pieces, later, less, plain, text, rest⟩
                refine ⟨.conversion conversion :: pieces, later, less, ?_, ?_, rest⟩
                · refine List.forall_mem_cons.mpr ⟨?_, plain⟩
                  intro second
                  apply notSecond
                  rw [split]
                  cases inner : conversion.inner with
                  | nil => simpa [inner] using second
                  | cons c inner' => simpa [inner] using second
                · rw [split, text]
                  simp [Piece.text, Conversion.text]

theorem countFmtParamsFrom_error {passes count : Nat} {fmt : List UInt8}
    {error : ParseError} (failed : countFmtParamsFrom fmt passes count = .error error) :
    ∃ paramNum, getParamInfo fmt paramNum = .error error := by
  induction passes generalizing count with
  | zero => cases failed
  | succ passes induction =>
      rw [countFmtParamsFrom] at failed
      split at failed
      · rename_i found
        exact ⟨count, by rw [found, Except.error.inj failed]⟩
      · cases failed
      · exact induction failed

/-- Where a conversion starts the parser raises no error. -/
theorem Starts.no_error {rest : List UInt8} {error : ParseError} {left : Nat}
    (starts : Starts rest)
    (fits : ∀ flags width digits behind, (∀ c ∈ flags, isFlag c = true) →
      width.WellFormed → (∀ c ∈ digits, isDigit c = true) →
      rest = flags ++ Field.text width ++ '.'.toUInt8 :: (digits ++ behind) →
        digitsValue 0 digits ≤ intMax) :
    scanConversion rest left ≠ .error error := by
  rcases starts with ⟨form, behind, wellFormed, text⟩
  have precision : ∀ digits, form.precision = some (.digits digits) →
      digitsValue 0 digits ≤ intMax := by
    intro digits given
    apply fits form.flags form.width digits (form.length ++ form.terminal :: behind)
      wellFormed.flags wellFormed.width (wellFormed.precision _ given)
    rw [text]
    simp [Form.text, given, Conversion.precisionText, Field.text]
  rcases wellFormed.conversion precision with ⟨conversion, same, _⟩
  have spelled : rest = conversion.inner ++ conversion.terminal :: behind := by
    rw [text, ← same, List.append_assoc, List.singleton_append]
  rw [spelled, scanConversion_spelled]
  split <;> simp

theorem scanTerminal_no_overflow (rest : List UInt8) (paramNum : Nat) (dynamic : Bool)
    (precision : Option Nat) :
    scanTerminal rest paramNum dynamic precision ≠ .error .precisionOverflow := by
  simp only [scanTerminal]
  split
  · simp
  · split
    · simp
    · split
      · simp
      · split
        · simp
        · split
          · simp
          · split <;> simp

/-- An overflow is due to digits of a precision. -/
theorem scanPrecision_overflow {rest : List UInt8} {paramNum : Nat}
    (failed : scanPrecision rest paramNum = .error .precisionOverflow) :
    ∃ digits behind, (∀ c ∈ digits, isDigit c = true) ∧
      rest = '.'.toUInt8 :: (digits ++ behind) ∧ intMax < digitsValue 0 digits := by
  simp only [scanPrecision] at failed
  split at failed
  case isFalse => exact absurd failed (scanTerminal_no_overflow _ _ _ _)
  case isTrue dot =>
    have dotFirst := eq_cons_of_current (beq_iff_eq.mp dot) (by decide)
    split at failed
    · split at failed
      · cases failed
      · exact absurd failed (scanTerminal_no_overflow _ _ _ _)
    · refine ⟨rest.tail.takeWhile isDigit, rest.tail.dropWhile isDigit, mem_takeWhile, ?_, ?_⟩
      · rw [List.takeWhile_append_dropWhile]
        exact dotFirst
      · rw [readPrecision_eq 0 _ (Nat.zero_le _)] at failed
        by_contra fits
        rw [if_pos (Nat.le_of_not_lt fits)] at failed
        exact absurd failed (scanTerminal_no_overflow _ _ _ _)

theorem scanConversion_overflow {rest : List UInt8} {paramNum : Nat}
    (failed : scanConversion rest paramNum = .error .precisionOverflow) :
    ∃ flags width digits behind, (∀ c ∈ flags, isFlag c = true) ∧
      Field.WellFormed width ∧ (∀ c ∈ digits, isDigit c = true) ∧
      rest = flags ++ width.text ++ '.'.toUInt8 :: (digits ++ behind) ∧
      intMax < digitsValue 0 digits := by
  have flagsSplit : rest = rest.takeWhile isFlag ++ rest.dropWhile isFlag :=
    List.takeWhile_append_dropWhile.symm
  simp only [scanConversion] at failed
  split at failed
  case isTrue star =>
    have starFirst := eq_cons_of_current (beq_iff_eq.mp star) (by decide)
    split at failed
    · cases failed
    · rcases scanPrecision_overflow failed with ⟨digits, behind, allDigits, text, large⟩
      refine ⟨rest.takeWhile isFlag, .star, digits, behind, mem_takeWhile, trivial,
        allDigits, ?_, large⟩
      rw [text] at starFirst
      rw [starFirst] at flagsSplit
      simpa [Field.text] using flagsSplit
  case isFalse =>
    rcases scanPrecision_overflow failed with ⟨digits, behind, allDigits, text, large⟩
    refine ⟨rest.takeWhile isFlag, .digits ((rest.dropWhile isFlag).takeWhile isDigit),
      digits, behind, mem_takeWhile, fun c member => mem_takeWhile c member,
      allDigits, ?_, large⟩
    rw [List.append_assoc, Field.text, ← text, List.takeWhile_append_dropWhile]
    exact flagsSplit

/-- At most the third parameter of a conversion is its last. -/
theorem scanConversion_found_le {rest : List UInt8} {paramNum : Nat} {type : ParamType}
    (scanned : scanConversion rest paramNum = .ok (.found type)) : paramNum ≤ 2 := by
  have atTerminal {rest : List UInt8} {paramNum : Nat} {dynamic : Bool}
      {precision : Option Nat}
      (scanned : scanTerminal rest paramNum dynamic precision = .ok (.found type)) :
      paramNum = 0 := by
    simp only [scanTerminal] at scanned
    split at scanned
    · cases scanned
    · split at scanned
      · cases scanned
      · split at scanned
        · cases scanned
        · omega
  have atPrecision {rest : List UInt8} {paramNum : Nat}
      (scanned : scanPrecision rest paramNum = .ok (.found type)) : paramNum ≤ 1 := by
    simp only [scanPrecision] at scanned
    split at scanned
    · split at scanned
      · split at scanned
        · omega
        · have last := atTerminal scanned
          omega
      · split at scanned
        · cases scanned
        · have last := atTerminal scanned
          omega
    · have last := atTerminal scanned
      omega
  simp only [scanConversion] at scanned
  split at scanned
  · split at scanned
    · omega
    · have last := atPrecision scanned
      omega
  · have last := atPrecision scanned
    omega

/-- Asked for a parameter behind some pieces, the parser comes to what follows
them. -/
theorem getParamInfoFrom_behind {pieces : List Piece} {rest : List UInt8}
    (plain : ∀ piece ∈ pieces, piece.Plain) {passes : Nat}
    (enough : (pieces.flatMap Piece.text ++ rest).length < passes) (paramNum : Nat) :
    ∃ left, rest.length < left ∧
      getParamInfoFrom passes (pieces.flatMap Piece.text ++ rest)
        ((paramTypes pieces).length + paramNum) = getParamInfoFrom left rest paramNum := by
  induction pieces generalizing passes with
  | nil => exact ⟨passes, enough, by simp [paramTypes]⟩
  | cons piece pieces induction =>
      have positive : 0 < piece.text.length := List.length_pos_iff.mpr piece.text_ne_nil
      simp only [List.flatMap_cons, List.append_assoc, List.length_append] at enough
      cases passes with
      | zero => exact absurd enough (Nat.not_lt_zero _)
      | succ passes =>
          rcases induction (fun other member => plain other (by simp [member]))
              (by rw [List.length_append]; omega : _ < passes) with ⟨left, more, same⟩
          refine ⟨left, more, ?_⟩
          rw [List.flatMap_cons, List.append_assoc,
            getParamInfoFrom_piece (plain piece (by simp)), paramTypes_cons,
            List.length_append]
          have past : piece.types.length ≤
              piece.types.length + (paramTypes pieces).length + paramNum := by omega
          rw [List.getElem?_eq_none past]
          have rest : piece.types.length + (paramTypes pieces).length + paramNum -
              piece.types.length = (paramTypes pieces).length + paramNum := by omega
          rw [rest]
          exact same

/-- A format with a `%` that starts no conversion is not accepted. -/
theorem Malformed.not_ok {fmt : List UInt8} (malformed : Malformed fmt)
    (fits : PrecisionsFit fmt) (count : Nat) : countFmtParams fmt ≠ .ok count := by
  intro counted
  rcases malformed with ⟨items, rest, reads, single, startsNot⟩
  rcases (countFmtParams_ok_iff fmt count).mp counted with ⟨spelling, spells, _⟩
  rcases pieces_of_items reads.valid (fun _ member digits given =>
    reads.precision_fits fits member digits given) with ⟨pieces, plain, text, _⟩
  have split : fmt = pieces.flatMap Piece.text ++ '%'.toUInt8 :: rest := by
    rw [text]
    exact reads.text
  -- The parser is asked for a parameter that is not in the conversion.
  have asked := getParamInfo_spelled spells ((paramTypes pieces).length + 3)
  rw [getParamInfo, split] at asked
  rcases getParamInfoFrom_behind plain (Nat.lt_succ_self _) 3 with ⟨left, more, same⟩
  rw [same] at asked
  cases left with
  | zero => exact absurd more (Nat.not_lt_zero _)
  | succ left =>
      simp only [getParamInfoFrom, bne_self_eq_false, Bool.false_eq_true, if_false,
        beq_iff_eq, single] at asked
      cases scanned : scanConversion rest 3 with
      | error error => simp [scanned] at asked
      | ok scan =>
          cases scan with
          | found type =>
              have few := scanConversion_found_le scanned
              omega
          | next behind left =>
              rcases scanConversion_next scanned with ⟨conversion, split, _⟩
              exact startsNot (split ▸ conversion.starts behind)

/-- Whether the error is an exception `std::invalid_argument`. -/
def ParseError.IsInvalidArgument (error : ParseError) : Prop :=
  error = .unrecognizedSpecifier ∨ error = .positionSpecifier

/-- Every error is an exception that is raised at a `%` which starts no
conversion. -/
theorem malformed_of_error {fmt : List UInt8} {error : ParseError}
    (fits : PrecisionsFit fmt) (failed : countFmtParams fmt = .error error) :
    error.IsInvalidArgument ∧ Malformed fmt := by
  rcases countFmtParamsFrom_error failed with ⟨paramNum, at_param⟩
  rcases getParamInfoFrom_error at_param with ⟨pieces, rest, left, plain, split, single, scanned⟩
  rcases items_of_pieces plain with ⟨items, valid, text⟩
  have reads : Reads items fmt ('%'.toUInt8 :: rest) := ⟨valid, by rw [text]; exact split⟩
  have precisionsFit := fits items rest reads single
  constructor
  · cases error with
    | unrecognizedSpecifier => exact .inl rfl
    | positionSpecifier => exact .inr rfl
    | precisionOverflow =>
        rcases scanConversion_overflow scanned with
          ⟨flags, width, digits, behind, allFlags, wellFormed, allDigits, text, large⟩
        have small := precisionsFit flags width digits behind allFlags wellFormed allDigits text
        omega
  · refine ⟨items, rest, reads, single, ?_⟩
    intro starts
    exact starts.no_error precisionsFit scanned

/-- The accepted formats are those in which every `%` that is not half of a `%%`
starts a conversion of the documented form. On them the parser finds, for each
conversion in order, its stars and its value, and nothing behind them; and no
read goes past the terminating NUL. -/
theorem documented_grammar_exact (fmt : List UInt8) (fits : PrecisionsFit fmt) :
    ((∃ error, Positions.countFmtParamsAt fmt = some (.error error) ∧
        error.IsInvalidArgument) ↔ Malformed fmt) ∧
    (¬Malformed fmt → ∃ items, Reads items fmt []) ∧
    (∀ items, Reads items fmt [] →
      Positions.countFmtParamsAt fmt = some (.ok (items.map Item.parameters).sum) ∧
      ∀ paramNum, Positions.getParamInfoAt fmt paramNum =
        some (.ok ((items.flatMap Item.types)[paramNum]?.getD .invalid))) ∧
    ∀ paramNum, Positions.getParamInfoAt fmt paramNum ≠ none := by
  simp only [Positions.countFmtParamsAt_eq, Positions.getParamInfoAt_eq, Option.some.injEq]
  refine ⟨⟨?_, ?_⟩, ?_, ?_, by simp⟩
  · intro raised
    rcases raised with ⟨error, failed, _⟩
    exact (malformed_of_error fits failed).2
  · intro malformed
    cases counted : countFmtParams fmt with
    | ok count => exact absurd counted (malformed.not_ok fits count)
    | error error => exact ⟨error, rfl, (malformed_of_error fits counted).1⟩
  · intro wellFormed
    cases counted : countFmtParams fmt with
    | error error => exact absurd (malformed_of_error fits counted).2 wellFormed
    | ok count =>
        rcases (countFmtParams_ok_iff fmt count).mp counted with ⟨pieces, spells, _⟩
        rcases items_of_pieces spells.plain with ⟨items, valid, text⟩
        exact ⟨items, valid, by rw [text, spells.text, List.append_nil]⟩
  · intro items reads
    rcases pieces_of_items reads.valid (fun _ member digits given =>
      reads.precision_fits fits member digits given) with ⟨pieces, plain, text, types⟩
    have spells : Spells pieces fmt := by
      refine ⟨?_, plain⟩
      rw [text, reads.text, List.append_nil]
    constructor
    · have each : List.length ∘ Item.types = Item.parameters := funext Item.types_length
      rw [countFmtParams_spelled spells, types, List.length_flatMap, ← each]
      rfl
    · intro paramNum
      rw [getParamInfo_spelled spells, types]

/-! ## A short format -/

theorem digitsValue_lt {digits : List UInt8} (allDigits : ∀ c ∈ digits, isDigit c = true)
    (start : Nat) : digitsValue start digits < (start + 1) * 10 ^ digits.length := by
  induction digits generalizing start with
  | nil => simp [digitsValue]
  | cons digit digits induction =>
      have upper : digit ≤ '9'.toUInt8 := by
        have own := allDigits digit (by simp)
        simp only [isDigit, Bool.and_eq_true, decide_eq_true_eq] at own
        exact own.2
      have small : digit.toNat - '0'.toNat ≤ 9 := by
        have limit : digit.toNat ≤ 57 := upper
        have zero : '0'.toNat = 48 := rfl
        omega
      have step := induction (fun c member => allDigits c (by simp [member]))
        (10 * start + (digit.toNat - '0'.toNat))
      have room : 10 * start + (digit.toNat - '0'.toNat) + 1 ≤ (start + 1) * 10 := by omega
      calc
        digitsValue start (digit :: digits) <
            (10 * start + (digit.toNat - '0'.toNat) + 1) * 10 ^ digits.length := step
        _ ≤ (start + 1) * 10 * 10 ^ digits.length := Nat.mul_le_mul_right _ room
        _ = (start + 1) * 10 ^ (digit :: digits).length := by
            rw [List.length_cons, Nat.pow_succ', Nat.mul_assoc]

/-- Nine digits always fit. -/
theorem precisionsFit_of_short {fmt : List UInt8} (short : fmt.length ≤ 11) :
    PrecisionsFit fmt := by
  intro items rest reads _ flags width digits behind _ _ allDigits text
  have lengths := congrArg List.length reads.text
  rw [text] at lengths
  simp only [List.length_append, List.length_cons] at lengths
  have few : digits.length ≤ 9 := by omega
  have value := digitsValue_lt allDigits 0
  have power : 10 ^ digits.length ≤ 10 ^ 9 := Nat.pow_le_pow_right (by decide) few
  have limit : 10 ^ 9 ≤ intMax := by decide
  omega

/-- `"%*.2s %%d"` -/
def starred : List UInt8 := ascii "%*.2s %%d"

def starredItems : List Item :=
  [.conversion ⟨[], .star, some (.digits (ascii "2")), [], 's'.toUInt8⟩,
    .literal ' '.toUInt8, .percent, .literal 'd'.toUInt8]

theorem starred_reads : Reads starredItems starred [] where
  valid := by
    have wellFormed : Form.WellFormed
        ⟨[], .star, some (.digits (ascii "2")), [], 's'.toUInt8⟩ := by
      refine ⟨by simp, trivial, ?_, by simp, by decide, by decide⟩
      intro field given
      cases Option.mem_some.mp given
      exact List.all_eq_true.mp (by decide)
    simp only [starredItems, List.forall_mem_cons]
    exact ⟨⟨wellFormed, by decide⟩, by simp only [Item.Valid]; decide, trivial,
      by simp only [Item.Valid]; decide, by simp⟩
  text := by decide

theorem documented_grammar_exact_starred :
    Positions.countFmtParamsAt starred = some (.ok 2) ∧
      Positions.getParamInfoAt starred 0 = some (.ok .dynamicWidth) ∧
      Positions.getParamInfoAt starred 1 = some (.ok (.string 2)) ∧
      Positions.getParamInfoAt starred 2 = some (.ok .invalid) := by
  have found := (documented_grammar_exact starred (precisionsFit_of_short (by decide))).2.2.1
    starredItems starred_reads
  exact ⟨found.1, found.2 0, found.2 1, found.2 2⟩

end StaticLog.Format
