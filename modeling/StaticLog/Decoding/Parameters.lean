import StaticLog.Decoding.Turns

/-! # Which parameters belong to which conversion

The compile-time parser gives a conversion one parameter for its value and one for
each star; the run-time loop gives it one. They agree exactly on the formats
without stars of which the run-time loop sees every conversion. -/

namespace StaticLog.Decoding

open StaticLog.Format
open StaticLog.Execution

/-- The indices of the parameters of each conversion, from a first index on: width,
precision and value. -/
def assigned : Nat → List Conversion → List (List Nat)
  | _, [] => []
  | paramNum, conversion :: conversions =>
      List.range' paramNum (conversion.stars + 1) ::
        assigned (paramNum + (conversion.stars + 1)) conversions

/-- The indices of the parameters that a call hands to `snprintf`. -/
def Call.params (call : Call) : List Nat := [call.paramIdx]

/-- What a call needs to return a length: a string nothing, another parameter what the
retry loop needs for it. -/
def Call.Returns (libc : Libc) (call : Call) : Prop :=
  call.isString = false →
    ∀ branch, selectBranch call.value.length (call.fmt.getLastD 0) call.value = some branch →
      Decoding.Returns libc call.startPos call.fmt branch call.output

/-- What a loop head needs for the loop to go on: if it stands at a conversion, there is
memory for the copy of a long one, and the call for it returns. -/
structure FmtState.GoesOn (libc : Libc) (message : Message) (state : FmtState) : Prop where
  copied : ∀ conversion ∈ state.conversion, 100 ≤ conversion.length →
    libc.malloc state.output.mallocs conversion.length ≠ none
  returns : ∀ call, Makes libc message state call → call.Returns libc

theorem FmtState.GoesOn.of_noConversion {libc : Libc} {message : Message} {state : FmtState}
    (none : state.conversion = none) : state.GoesOn libc message where
  copied := by simp [none]
  returns := by simp [Makes, FmtState.upcoming, none]

/-! ## A pass over a conversion -/

structure InRange (state : FmtState) : Prop where
  output : state.output.InRange
  logPos : state.logPos < 2 ^ 64

theorem pointerAdd_lt (pointer count : Nat) : pointerAdd pointer count < 2 ^ 64 :=
  Nat.mod_lt _ (by decide)

theorem InRange.advance {state : FmtState} {output : Output} (inRange : output.InRange)
    (logFmtLen : Int) (paramList : Nat) (call : Call) (rest : List UInt8) :
    InRange (state.advance output logFmtLen paramList call rest) where
  output := ⟨inRange.length, wrappingSub_lt inRange.reserved⟩
  logPos := pointerAdd_lt _ _

section Pass

variable {libc : Libc} {passes : Nat} {message : Message} {state : FmtState} {call : Call}

theorem Call.run_inRange (libc : Libc) (passes : Nat) (inRange : call.output.InRange) :
    (call.run libc passes).1.InRange := by
  rw [Call.run]
  split
  · split
    · exact ⟨inRange.length, inRange.reserved⟩
    · apply printString_inRange
      constructor
      · rw [withParamBuffer_length]
        exact inRange.length
      · rw [withParamBuffer_reserved]
        exact inRange.reserved
  · split
    · exact inRange
    · exact retryNonString_inRange libc call.startPos call.fmt _ passes inRange

/-- The loop goes on behind a call just if the call has what it needs. -/
theorem Call.run_returns_iff (startFits : call.startPos < 2 ^ 64)
    (inRange : call.output.InRange) (enough : 3 ≤ passes) :
    (call.isString = true ∨ ¬Fruitless (call.run libc passes).2) ↔ call.Returns libc := by
  cases isString : call.isString with
  | true =>
      refine iff_of_true (.inl rfl) ?_
      intro nonString
      rw [isString] at nonString
      cases nonString
  | false =>
      simp only [Call.Returns, Call.run, isString, Bool.false_eq_true, if_false, false_or,
        forall_true_left]
      cases selectBranch call.value.length (call.fmt.getLastD 0) call.value with
      | none => exact iff_of_true (by simp [Fruitless]) (by simp)
      | some branch =>
          rw [retryNonString_returns_iff startFits inRange enough]
          simp

theorem Call.run_string_returns (libc : Libc) (passes : Nat) (isString : call.isString = true) :
    ∃ ret, (call.run libc passes).2 = some ret := by
  rw [Call.run, if_pos isString]
  split
  · exact ⟨-1, rfl⟩
  · exact ⟨_, rfl⟩

theorem behindCall_running_iff {behind : List UInt8} {result : Output × Option Int}
    (returns : call.isString = true → ∃ ret, result.2 = some ret) :
    (state.behindCall message behind call result).2 = .running ↔
      call.isString = true ∨ ¬Fruitless result.2 := by
  rcases result with ⟨output, none | logFmtLen⟩
  · have notString : ¬call.isString = true := by
      intro isString
      rcases returns isString with ⟨ret, none⟩
      cases none
    simp [FmtState.behindCall, Fruitless, notString]
  · simp only [FmtState.behindCall, Fruitless]
    cases call.isString <;> by_cases failed : logFmtLen = -1 <;> simp [failed]

/-- At a conversion for which there is a parameter the loop goes on just if it has what it
needs. -/
theorem AtConversion.running_iff {conversion : Conversion} {behind : List UInt8}
    {after : FmtState × Progress}
    (atConversion : AtConversion libc passes message conversion behind state after)
    (enough : 3 ≤ passes) (inRange : InRange state)
    (hasParam : state.paramIdx < message.numParams) :
    (after.2 = .running ↔ state.GoesOn libc message) ∧
      (after.2 = .running → InRange after.1) := by
  have found := conversion_of_text atConversion.plain atConversion.rest
  have startFits : wrappingSub state.logPos state.output.logBuffer < 2 ^ 64 :=
    wrappingSub_lt inRange.logPos
  cases atConversion.pass with
  | crashed copied =>
      refine ⟨iff_of_false (by simp) ?_, fun running => by cases running⟩
      intro goesOn
      rw [copyConversion] at copied
      split at copied
      · cases copied
      · rename_i long
        rw [Prod.mk.injEq, Option.map_eq_none_iff] at copied
        exact goesOn.copied _ found (Nat.not_lt.mp long) copied.2
  | @formatted output fmtSingle copied =>
      have same := copyConversion_samePlace libc conversion.text state.output
      rw [copied] at same
      have handed : ({ state with output := output } : FmtState).paramIdx <
          message.numParams := hasParam
      have makes : Makes libc message state
          (FmtState.call message fmtSingle { state with output := output }) := by
        simp only [Makes, FmtState.upcoming, found, Option.bind_some, copied,
          if_pos hasParam]
      have callStart : (FmtState.call message fmtSingle
          { state with output := output }).startPos < 2 ^ 64 := wrappingSub_lt inRange.logPos
      have callRange : (FmtState.call message fmtSingle
          { state with output := output }).output.InRange :=
        ⟨same.length ▸ inRange.output.length, same.reserved ▸ inRange.output.reserved⟩
      rw [formatConversion_eq handed]
      generalize FmtState.call message fmtSingle { state with output := output } = call
        at makes callStart callRange ⊢
      constructor
      · rw [behindCall_running_iff (Call.run_string_returns libc passes),
          Call.run_returns_iff callStart callRange enough]
        constructor
        · intro returns
          refine ⟨?_, ?_⟩
          · intro other same long refused
            rw [found] at same
            cases same
            rw [copyConversion, if_neg (Nat.not_lt.mpr long), refused] at copied
            cases copied
          · intro made own
            rw [Makes, show state.upcoming libc message = some call from makes] at own
            cases own
            exact returns
        · exact fun goesOn => goesOn.returns call makes
      · intro running
        have decoded := Call.run_inRange libc passes callRange
        rcases ran : call.run libc passes with ⟨given, none | logFmtLen⟩
        · rw [ran] at running
          cases running
        · rw [ran] at running decoded
          simp only [FmtState.behindCall] at running ⊢
          split at running
          · cases running
          · rename_i success
            rw [if_neg success]
            exact .advance decoded _ _ _ _

/-- The end of the format is reached if and only if every loop head has what it needs. -/
theorem fmtLoop_finished_iff (enough : 3 ≤ passes)
    {pieces : List Piece} (spells : Spells pieces state.rest) (inRange : InRange state)
    (params : state.paramIdx + (conversions pieces).length ≤ message.numParams)
    {count : Nat} (long : state.rest.length < count) :
    (fmtLoop libc passes message count state).2 = .finished ↔
      ∀ head, (heads libc passes message state).Reachable head →
        head.GoesOn libc message := by
  revert inRange params
  refine fmtLoop_pieces (fun pieces state ended =>
    InRange state → state.paramIdx + (conversions pieces).length ≤ message.numParams →
      (ended.2 = .finished ↔
        ∀ head, (heads libc passes message state).Reachable head →
          head.GoesOn libc message))
    ?_ ?_ ?_ ?_ ?_ spells long
  · intro state ended _ _
    have taken : fmtPass libc passes message state = (state, .finished) := by
      rw [fmtPass, ended]
    rw [forall_heads_iff_of_left taken (by simp)]
    exact iff_of_true rfl (.of_noConversion (by rw [FmtState.conversion, ended]))
  · intro c pieces state rest ended plain given later inRange params
    rw [forall_heads_iff_of_running (fmtPass_literal libc passes message given plain),
      later ⟨⟨inRange.output.length, wrappingSub_lt inRange.output.reserved⟩,
        pointerAdd_lt _ _⟩ params]
    exact (and_iff_right (.of_noConversion (conversion_of_plain plain given))).symm
  · intro pieces state rest ended given later inRange params
    rw [forall_heads_iff_of_running (fmtPass_percent libc passes message given),
      later ⟨⟨inRange.output.length, wrappingSub_lt inRange.output.reserved⟩,
        pointerAdd_lt _ _⟩ params]
    exact (and_iff_right (.of_noConversion (conversion_of_percent given))).symm
  · intro conversion pieces behind state after atConversion left inRange params
    have hasParam : state.paramIdx < message.numParams := by
      simp only [conversions, List.length_cons] at params
      omega
    rw [forall_heads_iff_of_left atConversion.taken left,
      ← (atConversion.running_iff enough inRange hasParam).1]
    refine iff_of_false ?_ left
    rcases atConversion.pass.takes with ⟨_, crashed | failed⟩ | ⟨_, took⟩
    · simp [crashed]
    · simp [failed]
    · exact took.notFinished
  · intro conversion pieces behind state middle ended atConversion later inRange params
    simp only [conversions, List.length_cons] at params
    have hasParam : state.paramIdx < message.numParams := by omega
    rcases atConversion.running_iff enough inRange hasParam with ⟨running_iff, inRangeAfter⟩
    have advanced : middle.paramIdx = state.paramIdx + 1 := by
      rcases atConversion.pass.takes with ⟨_, crashed | failed⟩ | ⟨call, took⟩
      · cases crashed
      · cases failed
      · exact (took.running rfl).2.1
    rw [forall_heads_iff_of_running atConversion.taken, ← running_iff,
      later (inRangeAfter rfl) (by omega)]
    exact (and_iff_right rfl).symm

theorem processFmt_finished_iff (libc : Libc) (enough : 3 ≤ passes)
    {fmt : List UInt8} {pieces : List Piece} (spells : Spells pieces fmt)
    (message : Message)
    (params : (conversions (visible pieces)).length ≤ message.numParams)
    (paramList : Nat) (output : Output) (startPos : Nat)
    (lengthFits : output.length < 2 ^ 64) :
    (processFmt libc passes fmt message paramList output startPos).2 = .finished ↔
      ∀ state, IsHead libc passes message fmt paramList startPos output state →
        state.GoesOn libc message := by
  have entered : InRange (FmtState.enter fmt paramList startPos output) :=
    ⟨⟨lengthFits, wrappingSub_lt lengthFits⟩, pointerAdd_lt _ _⟩
  have visibleSpells : Spells (visible pieces)
      (FmtState.enter fmt paramList startPos output).rest := spells_visible spells
  have visibleParams : (FmtState.enter fmt paramList startPos output).paramIdx +
      (conversions (visible pieces)).length ≤ message.numParams := by
    rw [show (FmtState.enter fmt paramList startPos output).paramIdx = 0 from rfl]
    omega
  exact fmtLoop_finished_iff enough visibleSpells entered visibleParams (Nat.lt_succ_self _)

end Pass

/-! ## Counting parameters -/

theorem Walked.params {message : Message} {paramIdx cursor stop : Nat}
    {calls : List Call} (walked : Walked message paramIdx cursor calls stop) :
    calls.map Call.params = (List.range' paramIdx calls.length).map fun index => [index] := by
  induction walked with
  | nil => rfl
  | cons _ _ induction =>
      rw [List.map_cons, induction, List.length_cons, List.range'_succ, List.map_cons]
      rfl

theorem conversions_cons (piece : Piece) (pieces : List Piece) :
    conversions (piece :: pieces) = conversions [piece] ++ conversions pieces := by
  cases piece <;> rfl

theorem length_conversions_le (pieces : List Piece) :
    (conversions pieces).length ≤ (paramTypes pieces).length := by
  induction pieces with
  | nil => exact Nat.le_refl _
  | cons piece pieces induction =>
      rw [conversions_cons, paramTypes_cons, List.length_append, List.length_append]
      have own : (conversions [piece]).length ≤ piece.types.length := by
        cases piece with
        | literal c => exact Nat.zero_le _
        | percent => exact Nat.zero_le _
        | conversion conversion =>
            rw [Piece.types, conversion.types_length]
            exact Nat.succ_le_succ (Nat.zero_le _)
      omega

theorem length_paramTypes {pieces : List Piece}
    (noStars : ∀ conversion ∈ conversions pieces, conversion.stars = 0) :
    (paramTypes pieces).length = (conversions pieces).length := by
  induction pieces with
  | nil => rfl
  | cons piece pieces induction =>
      rw [conversions_cons] at noStars
      have others := induction fun conversion member =>
        noStars conversion (List.mem_append_right _ member)
      rw [conversions_cons, paramTypes_cons, List.length_append, List.length_append, others]
      cases piece with
      | literal c => rfl
      | percent => rfl
      | conversion conversion =>
          have own := noStars conversion (List.mem_append_left _ (List.mem_singleton_self _))
          rw [Piece.types, conversion.types_length, own]
          rfl

/-- The run-time loop sees the first conversions of a format. -/
theorem conversions_visible_isPrefix (pieces : List Piece) :
    conversions (visible pieces) <+: conversions pieces := by
  induction pieces with
  | nil => exact List.prefix_refl _
  | cons piece pieces induction =>
      cases piece with
      | literal c =>
          rw [visible]
          split
          · exact List.nil_prefix
          · exact induction
      | percent => exact induction
      | conversion conversion => exact (List.prefix_cons_inj conversion).mpr induction

/-! ## The two scanners -/

theorem paramTypes_conversions (pieces : List Piece) :
    paramTypes pieces = (conversions pieces).flatMap Conversion.types := by
  induction pieces with
  | nil => rfl
  | cons piece pieces induction =>
      rw [paramTypes_cons, conversions_cons, List.flatMap_append, induction]
      cases piece <;> simp [Piece.types, conversions]

theorem types_assigned (before : List ParamType) (conversions : List Conversion) :
    (assigned before.length conversions).map (List.map fun paramNum =>
        (before ++ conversions.flatMap Conversion.types)[paramNum]?.getD .invalid) =
      conversions.map Conversion.types := by
  induction conversions generalizing before with
  | nil => rfl
  | cons conversion conversions induction =>
      have others := induction (before ++ conversion.types)
      rw [List.length_append, conversion.types_length, List.append_assoc] at others
      rw [assigned, List.map_cons, List.map_cons, List.flatMap_cons, others]
      congr 1
      apply List.ext_getElem
      · simp [conversion.types_length]
      · intro index _ inside
        have position : before.length + index < (before ++ conversion.types).length := by
          rw [List.length_append]
          omega
        simp only [List.getElem_map, List.getElem_range', Nat.one_mul]
        rw [← List.append_assoc, List.getElem?_append_left position,
          List.getElem?_append_right (Nat.le_add_right _ _), Nat.add_sub_cancel_left,
          List.getElem?_eq_getElem inside]
        rfl

/-- What is assigned to a conversion is what `getParamInfo` reports for it. -/
theorem getParamInfo_assigned {pieces : List Piece} {fmt : List UInt8}
    (spells : Spells pieces fmt) :
    (assigned 0 (conversions pieces)).map (List.map (getParamInfo fmt)) =
      (conversions pieces).map fun conversion => conversion.types.map .ok := by
  have types := types_assigned [] (conversions pieces)
  rw [List.nil_append, ← paramTypes_conversions] at types
  have reported := congrArg (List.map (List.map (@Except.ok ParseError ParamType))) types
  simp only [List.map_map, Function.comp_def] at reported
  rw [getParamInfo_of_spells spells]
  exact reported

namespace Example

/-- A conversion without flags, precision and length. -/
def short (width : Field) (terminal : UInt8)
    (given : width = .star ∨ width = .digits [])
    (isTerm : isTerminal terminal = true) (ne_n : terminal ≠ 'n'.toUInt8) :
    Conversion where
  flags := []
  width := width
  precision := none
  length := []
  terminal := terminal
  flags_flag := by simp
  width_wellFormed := by
    rcases given with rfl | rfl <;> simp [Field.WellFormed]
  width_notFlag := by
    intro c member
    rcases given with rfl | rfl
    · cases member
      rfl
    · cases member
  precision_wellFormed := by simp
  precision_fits := by simp
  length_length := by simp
  terminal_terminal := isTerm
  terminal_ne_n := ne_n

/-- A conversion of a terminal only. -/
def bare (terminal : UInt8) (isTerm : isTerminal terminal = true)
    (ne_n : terminal ≠ 'n'.toUInt8) : Conversion :=
  short (.digits []) terminal (.inr rfl) isTerm ne_n

/-- `%d`. -/
def decimal : Conversion := bare 'd'.toUInt8 rfl (by decide)

def plainPieces : List Piece :=
  [.literal 'n'.toUInt8, .literal '='.toUInt8, .conversion decimal]

/-- Parameters of four bytes each. -/
def message (paramTypes : List ParamType) (params : List UInt8) : Message where
  numParams := paramTypes.length
  paramTypes := paramTypes
  paramSizes := paramTypes.map fun _ => 4
  params := Memory.overwrite (fun _ => 0) 0 params

def output : Output where
  heap _ := 0
  logBuffer := 2 ^ 20
  length := 2 ^ 20
  reserved := 0
  mallocs := 0

theorem sample_allocates : Libc.sample.Allocates := by
  intro count size
  simp [Libc.sample]

end Example

end StaticLog.Decoding
