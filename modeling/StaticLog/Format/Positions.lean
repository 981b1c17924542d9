import StaticLog.Format.Parsing

/-! # The parser over positions in the literal

The `constexpr` functions once more, this time as they go over the array `fmt`
with a position. An array access that lies behind the terminating NUL has no
value, and neither has a loop that has not ended within the passes it is given.
Both never happen: the functions agree with those over lists. -/

namespace StaticLog.Format.Positions

/-- `fmt[pos]`: the characters of the literal and the terminating NUL. -/
def readAt (fmt : List UInt8) (pos : Nat) : Option UInt8 := (fmt ++ [0])[pos]?

theorem lt_of_readAt {fmt : List UInt8} {pos : Nat} {c : UInt8}
    (read : readAt fmt pos = some c) : pos < fmt.length + 1 := by
  rcases List.getElem?_eq_some_iff.mp read with ⟨within, _⟩
  simpa using within

/-- `while (accepts(fmt[pos])) ++pos`. -/
def skipWhile (accepts : UInt8 → Bool) (fmt : List UInt8) (pos : Nat) : Option Nat :=
  match read : readAt fmt pos with
  | none => none
  | some c => if accepts c then skipWhile accepts fmt (pos + 1) else some pos
termination_by fmt.length + 1 - pos
decreasing_by
  have within := lt_of_readAt read
  omega

/-- The loop over the digits of a precision: where it ends and the value. -/
def readPrecisionAt (fmt : List UInt8) (pos precision : Nat) :
    Option (Except ParseError (Nat × Nat)) :=
  match read : readAt fmt pos with
  | none => none
  | some c =>
      if isDigit c then
        let precision := 10 * precision + (c.toNat - '0'.toNat)
        if precision ≤ intMax then readPrecisionAt fmt (pos + 1) precision
        else some (.error .precisionOverflow)
      else some (.ok (pos, precision))
termination_by fmt.length + 1 - pos
decreasing_by
  have within := lt_of_readAt read
  omega

/-- What parsing one conversion comes to. -/
inductive ScanAt
  | found (type : ParamType)
  | next (pos : Nat) (paramNum : Nat)

def scanTerminalAt (fmt : List UInt8) (pos paramNum : Nat) (hasDynamicPrecision : Bool)
    (precision : Option Nat) : Option (Except ParseError ScanAt) := do
  let pos ← skipWhile isLength fmt pos
  let c ← readAt fmt pos
  if !isTerminal c then some (.error .unrecognizedSpecifier)
  else if c == 'n'.toUInt8 then some (.error .positionSpecifier)
  else if paramNum ≠ 0 then some (.ok (.next (pos + 1) (paramNum - 1)))
  else if c != 's'.toUInt8 then some (.ok (.found .nonString))
  else if hasDynamicPrecision then some (.ok (.found .stringWithDynamicPrecision))
  else
    match precision with
    | none => some (.ok (.found .stringWithNoPrecision))
    | some precision => some (.ok (.found (.string precision)))

def scanPrecisionAt (fmt : List UInt8) (pos paramNum : Nat) :
    Option (Except ParseError ScanAt) := do
  let c ← readAt fmt pos
  if c == '.'.toUInt8 then
    let c ← readAt fmt (pos + 1)
    if c == '*'.toUInt8 then
      if paramNum = 0 then some (.ok (.found .dynamicPrecision))
      else scanTerminalAt fmt (pos + 2) (paramNum - 1) true none
    else
      match ← readPrecisionAt fmt (pos + 1) 0 with
      | .error error => some (.error error)
      | .ok (pos, precision) => scanTerminalAt fmt pos paramNum false (some precision)
  else scanTerminalAt fmt pos paramNum false none

def scanConversionAt (fmt : List UInt8) (pos paramNum : Nat) :
    Option (Except ParseError ScanAt) := do
  let pos ← skipWhile isFlag fmt pos
  let c ← readAt fmt pos
  if c == '*'.toUInt8 then
    if paramNum = 0 then some (.ok (.found .dynamicWidth))
    else scanPrecisionAt fmt (pos + 1) (paramNum - 1)
  else
    let pos ← skipWhile isDigit fmt pos
    scanPrecisionAt fmt pos paramNum

/-- The loop of `getParamInfo`, within so many passes. -/
def getParamInfoFromAt (fmt : List UInt8) :
    Nat → Nat → Nat → Option (Except ParseError ParamType)
  | 0, _, _ => none
  | passes + 1, pos, paramNum =>
      if pos < fmt.length then do
        let c ← readAt fmt pos
        if c != '%'.toUInt8 then getParamInfoFromAt fmt passes (pos + 1) paramNum
        else
          let c ← readAt fmt (pos + 1)
          if c == '%'.toUInt8 then getParamInfoFromAt fmt passes (pos + 2) paramNum
          else
            match ← scanConversionAt fmt (pos + 1) paramNum with
            | .error error => some (.error error)
            | .ok (.found type) => some (.ok type)
            | .ok (.next pos paramNum) => getParamInfoFromAt fmt passes pos paramNum
      else some (.ok .invalid)

def getParamInfoAt (fmt : List UInt8) (paramNum : Nat) :
    Option (Except ParseError ParamType) :=
  getParamInfoFromAt fmt (fmt.length + 1) 0 paramNum

/-- The loop of `countFmtParams`, within so many passes. -/
def countFmtParamsFromAt (fmt : List UInt8) :
    Nat → Nat → Option (Except ParseError Nat)
  | 0, _ => none
  | passes + 1, count => do
      match ← getParamInfoAt fmt count with
      | .error error => some (.error error)
      | .ok .invalid => some (.ok count)
      | .ok _ => countFmtParamsFromAt fmt passes (count + 1)

def countFmtParamsAt (fmt : List UInt8) : Option (Except ParseError Nat) :=
  countFmtParamsFromAt fmt (fmt.length + 1) 0

/-! ## Positions and rests -/

section

variable {fmt : List UInt8} {pos : Nat}

theorem readAt_eq (within : pos ≤ fmt.length) :
    readAt fmt pos = some (current (fmt.drop pos)) := by
  rw [readAt]
  rcases Nat.lt_or_ge pos fmt.length with inside | atEnd
  · rw [List.getElem?_append_left inside, List.drop_eq_getElem_cons inside,
      List.getElem?_eq_getElem inside]
    rfl
  · obtain rfl : pos = fmt.length := by omega
    simp [current]

/-- Where a character other than NUL is read the literal goes on. -/
theorem lt_of_current (nonzero : current (fmt.drop pos) ≠ 0) : pos < fmt.length := by
  rcases Nat.lt_or_ge pos fmt.length with inside | atEnd
  · exact inside
  · rw [List.drop_eq_nil_of_le atEnd] at nonzero
    exact absurd rfl nonzero

theorem lt_of_accepted {accepts : UInt8 → Bool} (stopsAtNul : accepts 0 = false)
    (accepted : accepts (current (fmt.drop pos)) = true) : pos < fmt.length := by
  apply lt_of_current
  intro nul
  rw [nul, stopsAtNul] at accepted
  cases accepted

theorem lt_of_current_eq {c : UInt8} (read : (current (fmt.drop pos) == c) = true)
    (nonzero : c ≠ 0) : pos < fmt.length := by
  apply lt_of_current
  rwa [beq_iff_eq.mp read]

theorem drop_eq_current_cons (inside : pos < fmt.length) :
    fmt.drop pos = current (fmt.drop pos) :: fmt.drop (pos + 1) := by
  rw [List.drop_eq_getElem_cons inside]
  rfl

/-- A loop over characters other than NUL ends in the literal. -/
theorem skipWhile_eq {accepts : UInt8 → Bool} (stopsAtNul : accepts 0 = false)
    (within : pos ≤ fmt.length) :
    ∃ stop, skipWhile accepts fmt pos = some stop ∧ stop ≤ fmt.length ∧
      (fmt.drop pos).dropWhile accepts = fmt.drop stop := by
  induction steps : fmt.length - pos generalizing pos with
  | zero =>
      have atEnd : fmt.drop pos = [] := List.drop_eq_nil_of_le (by omega)
      refine ⟨pos, ?_, within, by rw [atEnd]; rfl⟩
      rw [skipWhile, readAt_eq within, atEnd]
      simp [current, stopsAtNul]
  | succ steps induction =>
      have split := drop_eq_current_cons (by omega : pos < fmt.length)
      rw [skipWhile, readAt_eq within]
      by_cases accepted : accepts (current (fmt.drop pos)) = true
      · rcases induction (by omega : pos + 1 ≤ fmt.length) (by omega) with
          ⟨stop, stops, inside, rest⟩
        refine ⟨stop, by simp [accepted, stops], inside, ?_⟩
        rw [split, List.dropWhile_cons_of_pos accepted, rest]
      · refine ⟨pos, by simp [accepted], within, ?_⟩
        rw [split, List.dropWhile_cons_of_neg accepted, ← split]

/-- The digits of a precision, and where they end. -/
theorem readPrecisionAt_eq (within : pos ≤ fmt.length) (precision : Nat) :
    ∃ stop, stop ≤ fmt.length ∧ (fmt.drop pos).dropWhile isDigit = fmt.drop stop ∧
      readPrecisionAt fmt pos precision = some
        ((readPrecision precision ((fmt.drop pos).takeWhile isDigit)).map (stop, ·)) := by
  induction steps : fmt.length - pos generalizing pos precision with
  | zero =>
      have atEnd : fmt.drop pos = [] := List.drop_eq_nil_of_le (by omega)
      refine ⟨pos, within, by rw [atEnd]; rfl, ?_⟩
      rw [readPrecisionAt, readAt_eq within, atEnd]
      rfl
  | succ steps induction =>
      have split := drop_eq_current_cons (by omega : pos < fmt.length)
      rw [readPrecisionAt, readAt_eq within]
      by_cases digit : isDigit (current (fmt.drop pos)) = true
      · rcases induction (by omega : pos + 1 ≤ fmt.length)
            (10 * precision + ((current (fmt.drop pos)).toNat - '0'.toNat)) (by omega) with
          ⟨stop, inside, rest, value⟩
        refine ⟨stop, inside, by rw [split, List.dropWhile_cons_of_pos digit, rest], ?_⟩
        rw [split, List.takeWhile_cons_of_pos digit, readPrecision, ← split]
        simp only [digit, if_true, value]
        split
        · rfl
        · rfl
      · refine ⟨pos, within, by rw [split, List.dropWhile_cons_of_neg digit, ← split], ?_⟩
        rw [split, List.takeWhile_cons_of_neg digit, ← split]
        simp [digit, readPrecision, Except.map]

/-! ## The two parsers agree -/

/-- Where in the literal a rest starts. -/
def placed (fmt : List UInt8) : Scan → ScanAt
  | .found type => .found type
  | .next rest paramNum => .next (fmt.length - rest.length) paramNum

theorem placed_drop (within : pos ≤ fmt.length) (paramNum : Nat) :
    placed fmt (.next (fmt.drop pos) paramNum) = .next pos paramNum := by
  rw [placed, List.length_drop, Nat.sub_sub_self within]

theorem scanTerminalAt_eq (within : pos ≤ fmt.length) (paramNum : Nat)
    (hasDynamicPrecision : Bool) (precision : Option Nat) :
    scanTerminalAt fmt pos paramNum hasDynamicPrecision precision = some
      ((scanTerminal (fmt.drop pos) paramNum hasDynamicPrecision precision).map
        (placed fmt)) := by
  rcases skipWhile_eq (by rfl : isLength 0 = false) within with
    ⟨stop, stops, inside, rest⟩
  simp only [scanTerminalAt, scanTerminal, stops, rest, Option.bind_eq_bind,
    Option.bind_some, readAt_eq inside]
  by_cases terminal : isTerminal (current (fmt.drop stop)) = true
  · have before : stop < fmt.length := lt_of_accepted rfl terminal
    have behind := placed_drop (by omega : stop + 1 ≤ fmt.length) (paramNum - 1)
    rw [← List.tail_drop] at behind
    simp only [terminal, Bool.not_true, Bool.false_eq_true, if_false]
    split
    · rfl
    · split
      · exact congrArg (fun scan => some (Except.ok scan)) behind.symm
      · split
        · rfl
        · split
          · rfl
          · cases precision <;> rfl
  · simp only [terminal, Bool.not_false, if_true]
    rfl

theorem scanPrecisionAt_eq (within : pos ≤ fmt.length) (paramNum : Nat) :
    scanPrecisionAt fmt pos paramNum =
      some ((scanPrecision (fmt.drop pos) paramNum).map (placed fmt)) := by
  simp only [scanPrecisionAt, scanPrecision, readAt_eq within, Option.bind_eq_bind,
    Option.bind_some, List.tail_drop]
  by_cases dot : (current (fmt.drop pos) == '.'.toUInt8) = true
  · have before : pos < fmt.length := lt_of_current_eq dot (by decide)
    have behindDot : pos + 1 ≤ fmt.length := before
    simp only [dot, if_true, readAt_eq behindDot, Option.bind_some]
    by_cases star : (current (fmt.drop (pos + 1)) == '*'.toUInt8) = true
    · have atStar : pos + 1 < fmt.length := lt_of_current_eq star (by decide)
      simp only [star, if_true]
      split
      · rfl
      · exact scanTerminalAt_eq atStar _ _ _
    · rcases readPrecisionAt_eq behindDot 0 with ⟨stop, inside, rest, value⟩
      simp only [star, Bool.false_eq_true, if_false, value, rest, Option.bind_some]
      cases readPrecision 0 ((fmt.drop (pos + 1)).takeWhile isDigit) with
      | error error => rfl
      | ok precision => exact scanTerminalAt_eq inside _ _ _
  · simp only [dot, Bool.false_eq_true, if_false]
    exact scanTerminalAt_eq within _ _ _

theorem scanConversionAt_eq (within : pos ≤ fmt.length) (paramNum : Nat) :
    scanConversionAt fmt pos paramNum =
      some ((scanConversion (fmt.drop pos) paramNum).map (placed fmt)) := by
  rcases skipWhile_eq (by rfl : isFlag 0 = false) within with
    ⟨stop, stops, inside, rest⟩
  simp only [scanConversionAt, scanConversion, stops, rest, readAt_eq inside,
    Option.bind_eq_bind, Option.bind_some, List.tail_drop]
  by_cases star : (current (fmt.drop stop) == '*'.toUInt8) = true
  · have atStar : stop < fmt.length := lt_of_current_eq star (by decide)
    simp only [star, if_true]
    split
    · rfl
    · exact scanPrecisionAt_eq atStar _
  · rcases skipWhile_eq (by rfl : isDigit 0 = false) inside with
      ⟨behind, ends, insideDigits, digits⟩
    simp only [star, Bool.false_eq_true, if_false, ends, digits, Option.bind_some]
    exact scanPrecisionAt_eq insideDigits _

/-- What is left behind a conversion is the literal from a later position on. -/
theorem placed_next {rest : List UInt8} {paramNum left : Nat}
    (scanned : scanConversion (fmt.drop pos) paramNum = .ok (.next rest left)) :
    fmt.drop (fmt.length - rest.length) = rest ∧
      pos < fmt.length - rest.length ∧ rest.length < fmt.length - pos := by
  rcases scanConversion_next scanned with ⟨conversion, split, _⟩
  have suffix : rest <:+ fmt := by
    apply List.IsSuffix.trans _ (List.drop_suffix pos fmt)
    rw [split]
    exact (List.suffix_cons _ rest).trans (List.suffix_append _ _)
  have lengths := congrArg List.length split
  simp only [List.length_drop, List.length_append, List.length_cons] at lengths
  refine ⟨?_, by omega, by omega⟩
  rcases suffix with ⟨front, rfl⟩
  simp

theorem getParamInfoFromAt_eq {passes : Nat} (within : pos ≤ fmt.length)
    (enough : fmt.length - pos < passes) (paramNum : Nat) :
    getParamInfoFromAt fmt passes pos paramNum =
      some (getParamInfoFrom passes (fmt.drop pos) paramNum) := by
  induction passes generalizing pos paramNum with
  | zero => exact absurd enough (Nat.not_lt_zero _)
  | succ passes induction =>
      rcases Nat.lt_or_ge pos fmt.length with inside | atEnd
      case inr =>
        rw [getParamInfoFromAt, if_neg (Nat.not_lt.mpr atEnd), List.drop_eq_nil_of_le atEnd]
        rfl
      have behind : pos + 1 ≤ fmt.length := inside
      rw [getParamInfoFromAt, if_pos inside, readAt_eq within, drop_eq_current_cons inside]
      simp only [getParamInfoFrom, current_cons, Option.bind_eq_bind, Option.bind_some]
      by_cases literal : (current (fmt.drop pos) != '%'.toUInt8) = true
      · rw [if_pos literal, if_pos literal]
        exact induction behind (by omega) paramNum
      rw [if_neg literal, if_neg literal, readAt_eq behind, Option.bind_some]
      by_cases twice : (current (fmt.drop (pos + 1)) == '%'.toUInt8) = true
      · have atSecond : pos + 1 < fmt.length := lt_of_current_eq twice (by decide)
        rw [if_pos twice, if_pos twice, List.tail_drop]
        exact induction (by omega) (by omega) paramNum
      rw [if_neg twice, if_neg twice, scanConversionAt_eq behind, Option.bind_some]
      cases scanned : scanConversion (fmt.drop (pos + 1)) paramNum with
      | error error => rfl
      | ok scan =>
          cases scan with
          | found type => rfl
          | next rest left =>
              rcases placed_next scanned with ⟨same, later, shorter⟩
              have goesOn := induction (Nat.sub_le fmt.length rest.length)
                (by omega : fmt.length - (fmt.length - rest.length) < passes) left
              rwa [same] at goesOn

theorem getParamInfoAt_eq (fmt : List UInt8) (paramNum : Nat) :
    getParamInfoAt fmt paramNum = some (getParamInfo fmt paramNum) :=
  getParamInfoFromAt_eq (Nat.zero_le _) (Nat.lt_succ_self _) paramNum

theorem countFmtParamsFromAt_eq {passes count : Nat} (reached : count ≤ fmt.length)
    (enough : fmt.length < passes + count) :
    countFmtParamsFromAt fmt passes count = some (countFmtParamsFrom fmt passes count) := by
  induction passes generalizing count with
  | zero => omega
  | succ passes induction =>
      simp only [countFmtParamsFromAt, countFmtParamsFrom, getParamInfoAt_eq,
        Option.bind_eq_bind, Option.bind_some]
      cases found : getParamInfo fmt count with
      | error error => rfl
      | ok type =>
          by_cases invalid : type = .invalid
          · rw [invalid]
          · have goesOn := induction (getParamInfoFrom_lt found invalid) (by omega)
            cases type with
            | invalid => exact absurd rfl invalid
            | _ => exact goesOn

end

/-- Neither function reads behind the terminating NUL, and both end. -/
theorem countFmtParamsAt_eq (fmt : List UInt8) :
    countFmtParamsAt fmt = some (countFmtParams fmt) :=
  countFmtParamsFromAt_eq (Nat.zero_le _) (Nat.lt_succ_self _)

end StaticLog.Format.Positions
