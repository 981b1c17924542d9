import StaticLog.Format.Grammar

/-! # The parser accepts what the grammar spells

The scanning functions of the compile-time parser, seen over the pieces of a
format: on a conversion that the grammar spells they find its parameter types,
and whatever they step over is a conversion that the grammar spells. -/

namespace StaticLog.Format

theorem eq_cons_of_current {rest : List UInt8} {c : UInt8} (first : current rest = c)
    (nonzero : c ≠ 0) : rest = c :: rest.tail := by
  cases rest with
  | nil => exact absurd first.symm nonzero
  | cons head tail =>
      cases first
      rfl

@[simp] theorem current_cons (c : UInt8) (rest : List UInt8) :
    current (c :: rest) = c := rfl

theorem dropWhile_of_current {rest : List UInt8} {accepts : UInt8 → Bool}
    (stops : accepts (current rest) = false) : rest.dropWhile accepts = rest := by
  cases rest with
  | nil => rfl
  | cons head tail => exact List.dropWhile_cons_of_neg (by simpa using stops)

theorem takeWhile_of_current {rest : List UInt8} {accepts : UInt8 → Bool}
    (stops : accepts (current rest) = false) : rest.takeWhile accepts = [] := by
  cases rest with
  | nil => rfl
  | cons head tail => exact List.takeWhile_cons_of_neg (by simpa using stops)

theorem mem_takeWhile {rest : List UInt8} {accepts : UInt8 → Bool} :
    ∀ c ∈ rest.takeWhile accepts, accepts c = true :=
  List.all_eq_true.mp List.all_takeWhile

/-! ## Precisions -/

theorem start_le_digitsValue (start : Nat) (digits : List UInt8) :
    start ≤ digitsValue start digits := by
  induction digits generalizing start with
  | nil => exact Nat.le_refl _
  | cons digit digits induction =>
      have step : start ≤ 10 * start + (digit.toNat - '0'.toNat) := by omega
      exact step.trans (induction _)

theorem readPrecision_eq (start : Nat) (digits : List UInt8) (small : start ≤ intMax) :
    readPrecision start digits =
      if digitsValue start digits ≤ intMax then .ok (digitsValue start digits)
      else .error .precisionOverflow := by
  induction digits generalizing start with
  | nil => exact (if_pos small).symm
  | cons digit digits induction =>
      rw [readPrecision]
      by_cases fits : 10 * start + (digit.toNat - '0'.toNat) ≤ intMax
      · rw [if_pos fits, induction _ fits]
        rfl
      · rw [if_neg fits, if_neg]
        intro small
        exact fits ((start_le_digitsValue _ digits).trans small)

/-! ## Over a conversion of the grammar -/

theorem current_terminal (length : List UInt8) {terminal : UInt8}
    (rest : List UInt8) (lengths : ∀ c ∈ length, isLength c = true)
    (isTerm : isTerminal terminal = true) :
    isFlag (current (length ++ terminal :: rest)) = false ∧
      isDigit (current (length ++ terminal :: rest)) = false ∧
      current (length ++ terminal :: rest) ≠ '*'.toUInt8 ∧
      current (length ++ terminal :: rest) ≠ '.'.toUInt8 := by
  cases length with
  | nil =>
      have separate := terminal_separate isTerm
      exact ⟨separate.1, separate.2.1, separate.2.2.2.1, separate.2.2.2.2.1⟩
  | cons c length =>
      have separate := length_separate (lengths c (by simp))
      exact ⟨separate.1, separate.2.1, separate.2.2.2.1, separate.2.2.2.2.1⟩

theorem scanTerminal_spelled {length : List UInt8} {terminal : UInt8}
    (rest : List UInt8) (paramNum : Nat) (dynamic : Bool) (precision : Option Nat)
    (lengths : ∀ c ∈ length, isLength c = true)
    (isTerm : isTerminal terminal = true) (ne_n : terminal ≠ 'n'.toUInt8) :
    scanTerminal (length ++ terminal :: rest) paramNum dynamic precision =
      if paramNum ≠ 0 then .ok (.next rest (paramNum - 1))
      else if terminal ≠ 's'.toUInt8 then .ok (.found .nonString)
      else if dynamic then .ok (.found .stringWithDynamicPrecision)
      else .ok (.found (precision.elim .stringWithNoPrecision .string)) := by
  have notLength := (terminal_separate isTerm).2.2.1
  have stops : (length ++ terminal :: rest).dropWhile isLength = terminal :: rest := by
    rw [List.dropWhile_append_of_pos lengths]
    exact List.dropWhile_cons_of_neg (by simp [notLength])
  simp only [scanTerminal, stops, current_cons, isTerm, ne_n, List.tail_cons,
    Bool.not_true, Bool.false_eq_true, if_false, beq_iff_eq, bne_iff_ne]
  cases precision <;> rfl

theorem scanPrecision_spelled (conversion : Conversion) (rest : List UInt8)
    (paramNum : Nat) :
    scanPrecision (Conversion.precisionText conversion.precision ++
        (conversion.length ++ conversion.terminal :: rest)) paramNum =
      if conversion.precision = some .star then
        if paramNum = 0 then .ok (.found .dynamicPrecision)
        else if paramNum = 1 then .ok (.found conversion.valueType)
        else .ok (.next rest (paramNum - 2))
      else
        if paramNum = 0 then .ok (.found conversion.valueType)
        else .ok (.next rest (paramNum - 1)) := by
  have ending := current_terminal conversion.length rest conversion.length_length
    conversion.terminal_terminal
  have scanned := fun paramNum dynamic precision =>
    scanTerminal_spelled rest paramNum dynamic precision conversion.length_length
      conversion.terminal_terminal conversion.terminal_ne_n
  cases given : conversion.precision with
  | none =>
      have noDot : (current (conversion.length ++ conversion.terminal :: rest) ==
          '.'.toUInt8) = false := beq_eq_false_iff_ne.mpr ending.2.2.2
      simp only [Conversion.precisionText, List.nil_append, scanPrecision, noDot,
        scanned, Conversion.valueType, given]
      by_cases zero : paramNum = 0 <;>
        by_cases isString : conversion.terminal = 's'.toUInt8 <;>
        simp [zero, isString]
  | some precision =>
      cases precision with
      | star =>
          simp only [Conversion.precisionText, Field.text, List.cons_append,
            List.nil_append, scanPrecision, current_cons, List.tail_cons, scanned,
            Conversion.valueType, given]
          rcases paramNum with _ | _ | paramNum <;>
            by_cases isString : conversion.terminal = 's'.toUInt8 <;>
            simp [isString]
      | digits spelled =>
          have digits : ∀ c ∈ spelled, isDigit c = true :=
            conversion.precision_wellFormed (.digits spelled) given
          have taken : (spelled ++ (conversion.length ++ conversion.terminal :: rest)
              ).takeWhile isDigit = spelled := by
            rw [List.takeWhile_append_of_pos digits, takeWhile_of_current ending.2.1,
              List.append_nil]
          have dropped : (spelled ++ (conversion.length ++ conversion.terminal :: rest)
              ).dropWhile isDigit = conversion.length ++ conversion.terminal :: rest := by
            rw [List.dropWhile_append_of_pos digits, dropWhile_of_current ending.2.1]
          have noStar : (current (spelled ++
              (conversion.length ++ conversion.terminal :: rest)) == '*'.toUInt8) =
              false := by
            rw [beq_eq_false_iff_ne]
            cases spelled with
            | nil => exact ending.2.2.1
            | cons digit spelled =>
                rintro rfl
                exact absurd (digits '*'.toUInt8 (by simp)) (by decide)
          have read : readPrecision 0 spelled = .ok (digitsValue 0 spelled) := by
            rw [readPrecision_eq 0 spelled (Nat.zero_le _),
              if_pos (conversion.precision_fits spelled given)]
          simp only [Conversion.precisionText, Field.text, List.cons_append,
            scanPrecision, current_cons, List.tail_cons, noStar, taken, dropped, read,
            scanned, Conversion.valueType, given]
          by_cases zero : paramNum = 0 <;>
            by_cases isString : conversion.terminal = 's'.toUInt8 <;>
            simp [zero, isString]

/-- What follows the width is neither a flag, nor a digit, nor a star. -/
theorem precision_current (conversion : Conversion) (rest : List UInt8) :
    let behind := Conversion.precisionText conversion.precision ++
      (conversion.length ++ conversion.terminal :: rest)
    isFlag (current behind) = false ∧ isDigit (current behind) = false ∧
      current behind ≠ '*'.toUInt8 := by
  cases conversion.precision with
  | none =>
      have ending := current_terminal conversion.length rest
        conversion.length_length conversion.terminal_terminal
      exact ⟨ending.1, ending.2.1, ending.2.2.1⟩
  | some field =>
      change isFlag '.'.toUInt8 = false ∧ isDigit '.'.toUInt8 = false ∧
        '.'.toUInt8 ≠ '*'.toUInt8
      decide

/-- On a conversion the parser finds its parameter types one after the other, and
steps over it when it is asked for a later one. -/
theorem scanConversion_spelled (conversion : Conversion) (rest : List UInt8)
    (paramNum : Nat) :
    scanConversion (conversion.inner ++ conversion.terminal :: rest) paramNum =
      match conversion.types[paramNum]? with
      | some type => .ok (.found type)
      | none => .ok (.next rest (paramNum - conversion.types.length)) := by
  have scanned := scanPrecision_spelled conversion rest
  have behindWidth := precision_current conversion rest
  have dropped : (conversion.inner ++ conversion.terminal :: rest).dropWhile isFlag =
      conversion.width.text ++ (Conversion.precisionText conversion.precision ++
        (conversion.length ++ conversion.terminal :: rest)) := by
    simp only [Conversion.inner, List.append_assoc]
    rw [List.dropWhile_append_of_pos conversion.flags_flag]
    apply dropWhile_of_current
    have notFlag := conversion.width_notFlag
    cases given : conversion.width.text with
    | cons c text => exact notFlag c (by simp [given])
    | nil => exact behindWidth.1
  rw [scanConversion, dropped]
  cases width : conversion.width with
  | star =>
      simp only [Field.text, List.cons_append, List.nil_append, current_cons,
        List.tail_cons, beq_self_eq_true, if_true, scanned, Conversion.types, width]
      by_cases dynamic : conversion.precision = some .star <;>
        rcases paramNum with _ | _ | _ | paramNum <;>
        simp [dynamic]
  | digits spelled =>
      have digits : ∀ c ∈ spelled, isDigit c = true := by
        have wellFormed := conversion.width_wellFormed
        rw [width] at wellFormed
        exact wellFormed
      have noStar : (current (spelled ++ (Conversion.precisionText conversion.precision ++
          (conversion.length ++ conversion.terminal :: rest))) == '*'.toUInt8) =
          false := by
        rw [beq_eq_false_iff_ne]
        cases spelled with
        | nil => exact behindWidth.2.2
        | cons digit spelled =>
            rintro rfl
            exact absurd (digits '*'.toUInt8 (by simp)) (by decide)
      simp only [Field.text, noStar, List.dropWhile_append_of_pos digits,
        dropWhile_of_current behindWidth.2.1, scanned, Conversion.types, width]
      by_cases dynamic : conversion.precision = some .star <;>
        rcases paramNum with _ | _ | paramNum <;>
        simp [dynamic]

/-! ## What the parser steps over -/

theorem scanTerminal_next {rest behind : List UInt8} {paramNum left : Nat}
    {dynamic : Bool} {precision : Option Nat}
    (scanned : scanTerminal rest paramNum dynamic precision = .ok (.next behind left)) :
    ∃ length terminal, rest = length ++ terminal :: behind ∧
      (∀ c ∈ length, isLength c = true) ∧ isTerminal terminal = true ∧
      terminal ≠ 'n'.toUInt8 ∧ paramNum = left + 1 := by
  simp only [scanTerminal] at scanned
  split at scanned
  · cases scanned
  · rename_i terminal
    split at scanned
    · cases scanned
    · rename_i ne_n
      split at scanned
      · rename_i positive
        cases scanned
        have isTerm : isTerminal (current (rest.dropWhile isLength)) = true := by
          simpa using terminal
        refine ⟨rest.takeWhile isLength, current (rest.dropWhile isLength), ?_,
          mem_takeWhile, isTerm, by simpa using ne_n, by omega⟩
        rw [← eq_cons_of_current rfl (terminal_separate isTerm).2.2.2.2.2]
        exact List.takeWhile_append_dropWhile.symm
      · -- Every other branch reports a type.
        split at scanned
        · cases scanned
        · split at scanned
          · cases scanned
          · cases precision <;> cases scanned

theorem scanPrecision_next {rest behind : List UInt8} {paramNum left : Nat}
    (scanned : scanPrecision rest paramNum = .ok (.next behind left)) :
    ∃ precision length terminal,
      rest = Conversion.precisionText precision ++ (length ++ terminal :: behind) ∧
      (∀ field ∈ precision, field.WellFormed) ∧
      (∀ digits, precision = some (.digits digits) → digitsValue 0 digits ≤ intMax) ∧
      (∀ c ∈ length, isLength c = true) ∧ isTerminal terminal = true ∧
      terminal ≠ 'n'.toUInt8 ∧
      paramNum = left + (if precision = some .star then 1 else 0) + 1 := by
  simp only [scanPrecision] at scanned
  split at scanned
  · rename_i dot
    have dotFirst := eq_cons_of_current (beq_iff_eq.mp dot) (by decide)
    split at scanned
    · rename_i star
      have starFirst := eq_cons_of_current (beq_iff_eq.mp star) (by decide)
      split at scanned
      · cases scanned
      · rename_i positive
        rcases scanTerminal_next scanned with
          ⟨length, terminal, split, lengths, isTerm, ne_n, count⟩
        refine ⟨some .star, length, terminal, ?_, ?_, ?_, lengths, isTerm, ne_n, ?_⟩
        · rw [dotFirst, starFirst, split]
          rfl
        · intro field member
          cases Option.mem_some.mp member
          trivial
        · intro digits equal
          cases equal
        · simp only [if_true]
          omega
    · split at scanned
      · cases scanned
      · rename_i precision read
        rw [readPrecision_eq 0 _ (Nat.zero_le _)] at read
        split at read
        · rename_i fits
          rcases scanTerminal_next scanned with
            ⟨length, terminal, split, lengths, isTerm, ne_n, count⟩
          refine ⟨some (.digits (rest.tail.takeWhile isDigit)), length, terminal,
            ?_, ?_, ?_, lengths, isTerm, ne_n, by simpa using count⟩
          · rw [← split]
            change rest = '.'.toUInt8 ::
              (rest.tail.takeWhile isDigit ++ rest.tail.dropWhile isDigit)
            rw [List.takeWhile_append_dropWhile]
            exact dotFirst
          · intro field member
            cases Option.mem_some.mp member
            exact mem_takeWhile
          · intro digits equal
            cases equal
            exact fits
        · cases read
  · rcases scanTerminal_next scanned with
      ⟨length, terminal, split, lengths, isTerm, ne_n, count⟩
    refine ⟨none, length, terminal, split, ?_, ?_, lengths, isTerm, ne_n,
      by simpa using count⟩
    · intro field member
      cases member
    · intro digits equal
      cases equal

theorem dropWhile_isFlag_notFlag {rest digits behind : List UInt8}
    (split : rest.dropWhile isFlag = digits ++ behind) :
    ∀ c ∈ digits.head?, isFlag c = false := by
  intro c member
  cases digits with
  | nil => cases member
  | cons digit digits =>
      have first := List.head?_dropWhile_not isFlag rest
      rw [split] at first
      cases Option.mem_some.mp member
      exact first

/-- What the parser steps over behind a width completes a conversion of the grammar. -/
theorem scanPrecision_completes {rest behindWidth behind : List UInt8} {width : Field}
    {paramNum left : Nat} (widthWellFormed : width.WellFormed)
    (widthSplit : rest.dropWhile isFlag = width.text ++ behindWidth)
    (scanned : scanPrecision behindWidth paramNum = .ok (.next behind left)) :
    ∃ conversion : Conversion, rest = conversion.inner ++ conversion.terminal :: behind ∧
      paramNum + (if width = .star then 1 else 0) = left + conversion.types.length := by
  have flagsSplit : rest = rest.takeWhile isFlag ++ rest.dropWhile isFlag :=
    List.takeWhile_append_dropWhile.symm
  rcases scanPrecision_next scanned with
    ⟨precision, length, terminal, split, wellFormed, fits, lengths, isTerm, ne_n, count⟩
  refine ⟨{
      flags := rest.takeWhile isFlag
      width := width
      precision := precision
      length := length
      terminal := terminal
      flags_flag := mem_takeWhile
      width_wellFormed := widthWellFormed
      width_notFlag := dropWhile_isFlag_notFlag widthSplit
      precision_wellFormed := wellFormed
      precision_fits := fits
      length_length := lengths
      terminal_terminal := isTerm
      terminal_ne_n := ne_n }, ?_, ?_⟩
  · simp only [Conversion.inner, List.append_assoc]
    rw [← split, ← widthSplit]
    exact flagsSplit
  · rw [Conversion.types_length]
    simp only [Conversion.stars]
    omega

/-- What the parser steps over is a conversion of the grammar. -/
theorem scanConversion_next {rest behind : List UInt8} {paramNum left : Nat}
    (scanned : scanConversion rest paramNum = .ok (.next behind left)) :
    ∃ conversion : Conversion, rest = conversion.inner ++ conversion.terminal :: behind ∧
      paramNum = left + conversion.types.length := by
  simp only [scanConversion] at scanned
  split at scanned
  · rename_i star
    have starFirst := eq_cons_of_current (beq_iff_eq.mp star) (by decide)
    split at scanned
    · cases scanned
    · rename_i positive
      have wellFormed : Field.star.WellFormed := trivial
      rcases scanPrecision_completes wellFormed starFirst scanned with
        ⟨conversion, spelled, count⟩
      simp only [if_true] at count
      exact ⟨conversion, spelled, by omega⟩
  · have digitsSplit : rest.dropWhile isFlag =
        (Field.digits ((rest.dropWhile isFlag).takeWhile isDigit)).text ++
          (rest.dropWhile isFlag).dropWhile isDigit :=
      List.takeWhile_append_dropWhile.symm
    have wellFormed : (Field.digits ((rest.dropWhile isFlag).takeWhile isDigit)).WellFormed :=
      mem_takeWhile
    rcases scanPrecision_completes wellFormed digitsSplit scanned with
      ⟨conversion, spelled, count⟩
    simp only [reduceCtorEq, if_false] at count
    exact ⟨conversion, spelled, count⟩

/-! ## Whole formats -/

theorem Spells.nil : Spells [] [] := ⟨rfl, by simp⟩

theorem Spells.cons (piece : Piece) {pieces : List Piece} {fmt : List UInt8}
    (plain : piece.Plain) (spells : Spells pieces fmt) :
    Spells (piece :: pieces) (piece.text ++ fmt) where
  text := by rw [List.flatMap_cons, spells.text]
  plain := by
    intro other member
    rcases List.mem_cons.mp member with rfl | member
    · exact plain
    · exact spells.plain other member

/-- A format is spelled by its first piece and what spells the rest. -/
theorem Spells.uncons {piece : Piece} {pieces : List Piece} {fmt : List UInt8}
    (spells : Spells (piece :: pieces) fmt) :
    ∃ rest, fmt = piece.text ++ rest ∧ piece.Plain ∧ Spells pieces rest :=
  ⟨pieces.flatMap Piece.text, by rw [← spells.text, List.flatMap_cons],
    spells.plain piece (by simp), rfl,
    fun other member => spells.plain other (by simp [member])⟩

/-- One pass of the parser over a piece. -/
theorem getParamInfoFrom_piece {piece : Piece} (plain : piece.Plain)
    (rest : List UInt8) (passes paramNum : Nat) :
    getParamInfoFrom (passes + 1) (piece.text ++ rest) paramNum =
      match piece.types[paramNum]? with
      | some type => .ok type
      | none => getParamInfoFrom passes rest (paramNum - piece.types.length) := by
  cases piece with
  | literal c =>
      have notPercent : (c != '%'.toUInt8) = true := bne_iff_ne.mpr plain
      simp [Piece.text, Piece.types, getParamInfoFrom, notPercent]
  | percent => simp [Piece.text, Piece.types, getParamInfoFrom]
  | conversion conversion =>
      have behindPercent : current (conversion.inner ++ conversion.terminal :: rest) ≠
          '%'.toUInt8 := by
        have own : current (conversion.inner ++ [conversion.terminal]) ≠
          '%'.toUInt8 := plain
        cases inner : conversion.inner with
        | nil => simpa [inner] using own
        | cons c inner' => simpa [inner] using own
      simp only [Piece.text, Conversion.text, Piece.types, List.cons_append,
        List.append_assoc, List.nil_append, getParamInfoFrom, bne_self_eq_false,
        Bool.false_eq_true, if_false, beq_iff_eq, behindPercent,
        scanConversion_spelled]
      cases found : conversion.types[paramNum]? <;> rfl

theorem Piece.text_ne_nil (piece : Piece) : piece.text ≠ [] := by
  cases piece <;> simp [Piece.text, Conversion.text]

theorem paramTypes_cons (piece : Piece) (pieces : List Piece) :
    paramTypes (piece :: pieces) = piece.types ++ paramTypes pieces :=
  List.flatMap_cons

/-- The parser finds the parameter types of the pieces in order, and nothing
behind them. -/
theorem getParamInfoFrom_spelled {pieces : List Piece} {fmt : List UInt8}
    (spells : Spells pieces fmt) {passes : Nat} (enough : fmt.length < passes)
    (paramNum : Nat) :
    getParamInfoFrom passes fmt paramNum =
      .ok ((paramTypes pieces)[paramNum]?.getD .invalid) := by
  induction pieces generalizing fmt passes paramNum with
  | nil =>
      cases spells.text
      cases passes <;> rfl
  | cons piece pieces induction =>
      rcases spells.uncons with ⟨rest, rfl, plain, spellsRest⟩
      have positive : 0 < piece.text.length :=
        List.length_pos_iff.mpr piece.text_ne_nil
      rw [List.length_append] at enough
      cases passes with
      | zero => exact absurd enough (Nat.not_lt_zero _)
      | succ passes =>
          rw [getParamInfoFrom_piece plain,
            induction spellsRest (by omega) (paramNum - piece.types.length)]
          rw [paramTypes_cons]
          by_cases within : paramNum < piece.types.length
          · rw [List.getElem?_append_left within, List.getElem?_eq_getElem within]
            rfl
          · rw [List.getElem?_append_right (by omega),
              List.getElem?_eq_none (by omega : piece.types.length ≤ paramNum)]

theorem getParamInfo_spelled {pieces : List Piece} {fmt : List UInt8}
    (spells : Spells pieces fmt) (paramNum : Nat) :
    getParamInfo fmt paramNum =
      .ok ((paramTypes pieces)[paramNum]?.getD .invalid) :=
  getParamInfoFrom_spelled spells (Nat.lt_succ_self _) paramNum

theorem getParamInfo_of_spells {pieces : List Piece} {fmt : List UInt8}
    (spells : Spells pieces fmt) :
    getParamInfo fmt = fun paramNum =>
      .ok ((paramTypes pieces)[paramNum]?.getD .invalid) :=
  funext fun paramNum => getParamInfo_spelled spells paramNum

/-- No type that the parser reports for a parameter is `kINVALID`. -/
theorem scanConversion_found {rest : List UInt8} {paramNum : Nat} {type : ParamType}
    (scanned : scanConversion rest paramNum = .ok (.found type)) : type ≠ .invalid := by
  have atTerminal {rest : List UInt8} {paramNum : Nat} {dynamic : Bool}
      {precision : Option Nat}
      (scanned : scanTerminal rest paramNum dynamic precision = .ok (.found type)) :
      type ≠ .invalid := by
    rintro rfl
    simp only [scanTerminal] at scanned
    cases precision <;> simp at scanned <;> grind
  have atPrecision {rest : List UInt8} {paramNum : Nat}
      (scanned : scanPrecision rest paramNum = .ok (.found type)) :
      type ≠ .invalid := by
    simp only [scanPrecision] at scanned
    split at scanned
    · split at scanned
      · split at scanned
        · cases scanned
          simp
        · exact atTerminal scanned
      · split at scanned
        · cases scanned
        · exact atTerminal scanned
    · exact atTerminal scanned
  simp only [scanConversion] at scanned
  split at scanned
  · split at scanned
    · cases scanned
      simp
    · exact atPrecision scanned
  · exact atPrecision scanned

/-- A parser that reaches the end of a format has met pieces only. -/
theorem spells_of_getParamInfoFrom {passes : Nat} {fmt : List UInt8} {paramNum : Nat}
    (enough : fmt.length < passes)
    (ends : getParamInfoFrom passes fmt paramNum = .ok .invalid) :
    ∃ pieces, Spells pieces fmt := by
  induction passes generalizing fmt paramNum with
  | zero => exact absurd enough (Nat.not_lt_zero _)
  | succ passes induction =>
      cases fmt with
      | nil => exact ⟨[], Spells.nil⟩
      | cons c rest =>
          simp only [List.length_cons] at enough
          simp only [getParamInfoFrom] at ends
          split at ends
          · rename_i notPercent
            rcases induction (by omega) ends with ⟨pieces, spells⟩
            exact ⟨.literal c :: pieces,
              Spells.cons (.literal c) (bne_iff_ne.mp notPercent) spells⟩
          · rename_i isPercent
            have percent : c = '%'.toUInt8 := by simpa using isPercent
            subst percent
            split at ends
            · rename_i second
              have secondFirst := eq_cons_of_current (beq_iff_eq.mp second) (by decide)
              have shorter : rest.tail.length < passes := by
                rw [List.length_tail]
                omega
              rcases induction shorter ends with ⟨pieces, spells⟩
              refine ⟨.percent :: pieces, ?_⟩
              rw [secondFirst]
              exact Spells.cons .percent trivial spells
            · rename_i notSecond
              split at ends
              · cases ends
              · rename_i type found
                cases ends
                exact absurd rfl (scanConversion_found found)
              · rename_i behind left next
                rcases scanConversion_next next with ⟨conversion, split, count⟩
                have shorter : behind.length < passes := by
                  rw [split] at enough
                  simp only [List.length_append, List.length_cons] at enough
                  omega
                rcases induction shorter ends with ⟨pieces, spells⟩
                refine ⟨.conversion conversion :: pieces, ?_⟩
                have plain : (Piece.conversion conversion).Plain := by
                  intro second
                  apply notSecond
                  rw [split, beq_iff_eq]
                  cases inner : conversion.inner with
                  | nil => simpa [inner] using second
                  | cons c inner' => simpa [inner] using second
                have whole := Spells.cons _ plain spells
                simpa [Piece.text, Conversion.text, split] using whole

/-! ## Counting -/

theorem invalid_not_mem_paramTypes (pieces : List Piece) :
    .invalid ∉ paramTypes pieces := by
  intro member
  rcases List.mem_flatMap.mp member with ⟨piece, _, inTypes⟩
  cases piece with
  | conversion conversion => exact conversion.invalid_not_mem_types inTypes
  | literal c => cases inTypes
  | percent => cases inTypes

theorem Conversion.types_length_lt_text (conversion : Conversion) :
    conversion.types.length < conversion.text.length := by
  have width : (if conversion.width = .star then 1 else 0) ≤
      conversion.width.text.length := by
    split
    · rename_i star
      rw [star]
      exact Nat.le_refl 1
    · exact Nat.zero_le _
  have precision : (if conversion.precision = some .star then 1 else 0) ≤
      (Conversion.precisionText conversion.precision).length := by
    split
    · rename_i star
      rw [star]
      decide
    · exact Nat.zero_le _
  rw [types_length]
  simp only [stars, text, inner, List.length_cons, List.length_append,
    List.length_nil]
  omega

theorem paramTypes_length_le {pieces : List Piece} {fmt : List UInt8}
    (spells : Spells pieces fmt) : (paramTypes pieces).length ≤ fmt.length := by
  rw [← spells.text]
  clear spells
  induction pieces with
  | nil => exact Nat.le_refl _
  | cons piece pieces induction =>
      rw [paramTypes_cons, List.flatMap_cons, List.length_append, List.length_append]
      have own : piece.types.length ≤ piece.text.length := by
        cases piece with
        | conversion conversion => exact conversion.types_length_lt_text.le
        | literal c => exact Nat.zero_le _
        | percent => exact Nat.zero_le _
      omega

theorem countFmtParamsFrom_spelled {pieces : List Piece} {fmt : List UInt8}
    (spells : Spells pieces fmt) {passes count : Nat}
    (within : count ≤ (paramTypes pieces).length)
    (enough : (paramTypes pieces).length < passes + count) :
    countFmtParamsFrom fmt passes count = .ok (paramTypes pieces).length := by
  induction passes generalizing count with
  | zero => omega
  | succ passes induction =>
      rw [countFmtParamsFrom, getParamInfo_spelled spells]
      rcases Nat.lt_or_ge count (paramTypes pieces).length with inside | ends
      · have valid : (paramTypes pieces)[count] ≠ .invalid := by
          intro invalid
          exact invalid_not_mem_paramTypes pieces (invalid ▸ List.getElem_mem inside)
        rw [List.getElem?_eq_getElem inside, Option.getD_some]
        split
        · rename_i impossible
          cases impossible
        · rename_i invalid
          exact absurd (Except.ok.inj invalid) valid
        · exact induction inside (by omega)
      · have all : count = (paramTypes pieces).length := by omega
        rw [List.getElem?_eq_none ends, all]
        rfl

/-- A format that the grammar spells is accepted, with one parameter for each
value and for each star. -/
theorem countFmtParams_spelled {pieces : List Piece} {fmt : List UInt8}
    (spells : Spells pieces fmt) :
    countFmtParams fmt = .ok (paramTypes pieces).length := by
  apply countFmtParamsFrom_spelled spells (Nat.zero_le _)
  have bounded := paramTypes_length_le spells
  omega

theorem length_pos_of_current {rest : List UInt8} {c : UInt8}
    (first : (current rest == c) = true) (nonzero : c ≠ 0) : 0 < rest.length := by
  rw [eq_cons_of_current (beq_iff_eq.mp first) nonzero]
  exact Nat.succ_pos _

/-- Each parameter that the parser finds takes a character of its own. -/
theorem scanConversion_found_lt {rest : List UInt8} {paramNum : Nat} {type : ParamType}
    (scanned : scanConversion rest paramNum = .ok (.found type)) :
    paramNum < rest.length := by
  have atTerminal {rest : List UInt8} {paramNum : Nat} {dynamic : Bool}
      {precision : Option Nat}
      (scanned : scanTerminal rest paramNum dynamic precision = .ok (.found type)) :
      paramNum = 0 ∧ 0 < rest.length := by
    simp only [scanTerminal] at scanned
    split at scanned
    · cases scanned
    · rename_i terminal
      split at scanned
      · cases scanned
      · split at scanned
        · cases scanned
        · rename_i zero
          refine ⟨by omega, ?_⟩
          cases rest with
          | nil => exact absurd terminal (by decide)
          | cons head tail => exact Nat.succ_pos _
  have atPrecision {rest : List UInt8} {paramNum : Nat}
      (scanned : scanPrecision rest paramNum = .ok (.found type)) :
      paramNum < rest.length := by
    simp only [scanPrecision] at scanned
    split at scanned
    · rename_i dot
      have dotFirst := length_pos_of_current dot (by decide)
      split at scanned
      · rename_i star
        have starFirst := length_pos_of_current star (by decide)
        rw [List.length_tail] at starFirst
        split at scanned
        · omega
        · have zero := (atTerminal scanned).1
          omega
      · split at scanned
        · cases scanned
        · have zero := (atTerminal scanned).1
          omega
    · have zero := atTerminal scanned
      omega
  have shorter : (rest.dropWhile isFlag).length ≤ rest.length :=
    (List.dropWhile_suffix _).length_le
  simp only [scanConversion] at scanned
  split at scanned
  · rename_i star
    have starFirst := length_pos_of_current star (by decide)
    split at scanned
    · omega
    · have behind := atPrecision scanned
      rw [List.length_tail] at behind
      omega
  · have behind := atPrecision scanned
    have digits : ((rest.dropWhile isFlag).dropWhile isDigit).length ≤
        (rest.dropWhile isFlag).length := (List.dropWhile_suffix _).length_le
    omega

theorem getParamInfoFrom_lt {passes paramNum : Nat} {fmt : List UInt8}
    {type : ParamType} (found : getParamInfoFrom passes fmt paramNum = .ok type)
    (valid : type ≠ .invalid) : paramNum < fmt.length := by
  induction passes generalizing fmt paramNum with
  | zero =>
      cases found
      exact absurd rfl valid
  | succ passes induction =>
      cases fmt with
      | nil =>
          cases found
          exact absurd rfl valid
      | cons c rest =>
          simp only [getParamInfoFrom] at found
          rw [List.length_cons]
          split at found
          · have behind := induction found
            omega
          · split at found
            · have behind := induction found
              rw [List.length_tail] at behind
              omega
            · split at found
              · cases found
              · rename_i type' scanned
                have here := scanConversion_found_lt scanned
                omega
              · rename_i behind left scanned
                rcases scanConversion_next scanned with ⟨conversion, split, count⟩
                have later := induction found
                have own := conversion.types_length_lt_text
                simp only [Conversion.text, List.length_cons, List.length_append,
                  List.length_nil] at own
                rw [split, List.length_append, List.length_cons]
                omega

theorem spells_of_countFmtParamsFrom {passes count total : Nat} {fmt : List UInt8}
    (counted : countFmtParamsFrom fmt passes count = .ok total)
    (reached : count ≤ fmt.length) (enough : fmt.length < passes + count) :
    ∃ pieces, Spells pieces fmt := by
  induction passes generalizing count with
  | zero => omega
  | succ passes induction =>
      rw [countFmtParamsFrom] at counted
      split at counted
      · cases counted
      · rename_i invalid
        exact spells_of_getParamInfoFrom (Nat.lt_succ_self _) invalid
      · rename_i type valid found
        exact induction counted (getParamInfoFrom_lt found valid) (by omega)

/-- The accepted formats are those that the grammar spells. -/
theorem countFmtParams_ok_iff (fmt : List UInt8) (count : Nat) :
    countFmtParams fmt = .ok count ↔
      ∃ pieces, Spells pieces fmt ∧ count = (paramTypes pieces).length := by
  constructor
  · intro counted
    rcases spells_of_countFmtParamsFrom counted (Nat.zero_le _) (Nat.lt_succ_self _) with
      ⟨pieces, spells⟩
    rw [countFmtParams_spelled spells] at counted
    exact ⟨pieces, spells, (Except.ok.inj counted).symm⟩
  · rintro ⟨pieces, spells, rfl⟩
    exact countFmtParams_spelled spells

theorem analyzeFormatString_spelled {pieces : List Piece} {fmt : List UInt8}
    (spells : Spells pieces fmt) :
    analyzeFormatString (paramTypes pieces).length fmt = .ok (paramTypes pieces) := by
  have collected : (List.range (paramTypes pieces).length).map
      (fun paramNum => (paramTypes pieces)[paramNum]?.getD .invalid) =
      paramTypes pieces := by
    apply List.ext_getElem (by simp)
    intro index _ inside
    simp [inside]
  rw [analyzeFormatString, getParamInfo_of_spells spells]
  exact (List.mapM_pure).trans (congrArg Except.ok collected)

end StaticLog.Format
