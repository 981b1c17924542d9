import StaticLog.Decoding.LoopHeads
import StaticLog.Decoding.Segments

/-! # Passes of the loop, one by one

What a pass of `process_fmt` does with the format and with the heap, which call it makes,
and how the pass from a loop head is part of the run. -/

namespace StaticLog.Decoding

open StaticLog.Format
open StaticLog.Execution

/-! ## The conversion at a loop head -/

/-- The conversion that a pass copies. -/
def FmtState.conversion (state : FmtState) : Option (List UInt8) :=
  match state.rest with
  | [] => none
  | c :: rest =>
      if c != '%'.toUInt8 || current rest == '%'.toUInt8 then none
      else
        match rest.dropWhile (fun c => !isTerminal c) with
        | [] => none
        | terminal :: _ =>
            some ('%'.toUInt8 :: (rest.takeWhile (fun c => !isTerminal c) ++ [terminal]))

section Conversion

variable {state : FmtState} {behind : List UInt8} {conversion : Conversion}

theorem conversion_of_plain {c : UInt8} {rest : List UInt8} (plain : c ≠ '%'.toUInt8)
    (given : state.rest = c :: rest) : state.conversion = none := by
  simp [FmtState.conversion, given, plain]

theorem conversion_of_percent {rest : List UInt8}
    (given : state.rest = '%'.toUInt8 :: '%'.toUInt8 :: rest) :
    state.conversion = none := by
  simp [FmtState.conversion, given, current]

theorem conversion_of_text (plain : (Piece.conversion conversion).Plain)
    (given : state.rest = conversion.text ++ behind) :
    state.conversion = some conversion.text := by
  rcases scan_conversion conversion behind with ⟨taken, dropped⟩
  rw [conversion_text_append] at given
  simp only [FmtState.conversion, given, current_inner conversion plain behind,
    bne_self_eq_false, Bool.or_self, Bool.false_eq_true, if_false, dropped, taken,
    Conversion.text]

end Conversion

/-! ## The call for a conversion -/

section Calls

variable {message : Message} {state : FmtState}

/-- The call that is made for a conversion. -/
def FmtState.call (message : Message) (fmtSingle : List UInt8) (state : FmtState) : Call where
  isString := message.isString state.paramIdx
  fmt := fmtSingle
  paramIdx := state.paramIdx
  cursor := state.paramList
  value := message.taken state.paramIdx state.paramList
  startPos := wrappingSub state.logPos state.output.logBuffer
  output := state.output

/-- The loop variables behind a call. -/
def FmtState.behindCall (message : Message) (behind : List UInt8) (call : Call)
    (state : FmtState) : Output × Option Int → FmtState × Progress
  | (output, none) =>
      ({ state with output := output, calls := state.calls ++ [call] }, .retrying)
  | (output, some logFmtLen) =>
      if call.isString = false ∧ logFmtLen = -1 then
        ({ state with output := output, calls := state.calls ++ [call] }, .failed)
      else
        (state.advance output logFmtLen
          (message.cursorBehind state.paramIdx state.paramList) call behind, .running)

theorem formatConversion_eq (hasParam : state.paramIdx < message.numParams)
    (libc : Libc) (passes : Nat) (fmtSingle behind : List UInt8) :
    formatConversion libc passes message fmtSingle behind state =
      state.behindCall message behind (state.call message fmtSingle)
        ((state.call message fmtSingle).run libc passes) := by
  simp only [formatConversion, if_pos hasParam]
  split
  · rename_i isString
    have string : message.isString state.paramIdx = true := decide_eq_true isString
    have taken : (state.call message fmtSingle).value = Memory.slice message.params
        (state.paramList + 4) (message.stringSize state.paramList) := by
      simp only [FmtState.call, Message.taken, string, if_true]
    rw [run_of_string string taken]
    simp only [FmtState.behindCall, FmtState.call, string, Message.cursorBehind,
      Message.taken, Message.stringSize, if_true, false_and, if_false, reduceCtorEq]
  · rename_i nonString
    have notString : message.isString state.paramIdx = false := decide_eq_false nonString
    have taken : (state.call message fmtSingle).value = Memory.slice message.params
        state.paramList (message.paramSizes.getD state.paramIdx 0) := by
      simp only [FmtState.call, Message.taken, notString, Bool.false_eq_true, if_false]
    rw [run_of_nonString notString taken]
    simp only [FmtState.call, notString, Message.taken, Bool.false_eq_true, if_false]
    split
    · rename_i output given
      rw [given]
      simp only [FmtState.behindCall]
    · rename_i output logFmtLen given
      rw [given]
      simp only [FmtState.behindCall, true_and, Message.cursorBehind, notString,
        Bool.false_eq_true, if_false]

@[simp] theorem behindCall_calls (message : Message) (behind : List UInt8) (call : Call)
    (state : FmtState) (result : Output × Option Int) :
    (state.behindCall message behind call result).1.calls = state.calls ++ [call] := by
  rcases result with ⟨output, none | logFmtLen⟩
  · rfl
  · simp only [FmtState.behindCall]
    split <;> rfl

end Calls

/-! ## The characters and conversions of a format -/

/-- What the scan of `process_fmt` comes to, with a weight for each character that it
copies and one for each conversion. -/
def countIn (character conversion : Nat) : List UInt8 → Nat
  | [] => 0
  | c :: rest =>
      if c != '%'.toUInt8 then countIn character conversion rest + character
      else if current rest == '%'.toUInt8 then
        countIn character conversion rest.tail + character
      else
        match given : rest.dropWhile (fun c => !isTerminal c) with
        | [] => 0
        | _ :: behind => countIn character conversion behind + conversion
termination_by fmt => fmt.length
decreasing_by
  · simp
  · simp only [List.length_tail, List.length_cons]
    omega
  · have shorter := (rest.dropWhile_suffix fun c => !isTerminal c).length_le
    rw [given] at shorter
    simp at shorter ⊢
    omega

/-- The number of characters that the scan of `process_fmt` copies. -/
def charactersIn (fmt : List UInt8) : Nat := countIn 1 0 fmt

/-- The number of conversions that it comes to. -/
def conversionsIn (fmt : List UInt8) : Nat := countIn 0 1 fmt

theorem countIn_of_literal (character conversion : Nat) {c : UInt8} {rest : List UInt8}
    {state : FmtState} (literal : state.literal = some (c, rest)) :
    countIn character conversion state.rest =
      countIn character conversion rest + character := by
  simp only [FmtState.literal] at literal
  split at literal
  · cases literal
  · rename_i given
    rw [given, countIn]
    split at literal
    · rename_i plain
      cases literal
      exact if_pos plain
    · rename_i notPlain
      rw [if_neg notPlain]
      split at literal
      · rename_i percent
        cases literal
        exact if_pos percent
      · cases literal

/-- At a conversion that has an end. -/
theorem countIn_of_dropWhile (character conversion : Nat) {rest behind : List UInt8}
    {terminal : UInt8} (single : (current rest == '%'.toUInt8) = false)
    (given : rest.dropWhile (fun c => !isTerminal c) = terminal :: behind) :
    countIn character conversion ('%'.toUInt8 :: rest) =
      countIn character conversion behind + conversion := by
  rw [countIn]
  simp only [bne_self_eq_false, Bool.false_eq_true, if_false, single]
  split
  · rename_i none
    rw [given] at none
    cases none
  · rename_i found
    rw [given] at found
    cases found
    rfl

/-- A pass that comes to a conversion has it in the rest of its format. -/
theorem conversion_eq_some {conversion : List UInt8} {state : FmtState}
    (found : state.conversion = some conversion) :
    state.literal = none ∧ 0 < conversionsIn state.rest := by
  simp only [FmtState.conversion] at found
  split at found
  · cases found
  · rename_i c rest given
    split at found
    · cases found
    · rename_i single
      rw [Bool.or_eq_true, not_or] at single
      have isPercent : c = '%'.toUInt8 := by simpa using single.1
      split at found
      · cases found
      · rename_i terminal behind dropped
        have counted := countIn_of_dropWhile 0 1 (Bool.eq_false_iff.mpr single.2) dropped
        constructor
        · simp only [FmtState.literal, given, if_neg single.1, if_neg single.2]
        · rw [conversionsIn, given, isPercent, counted]
          exact Nat.succ_pos _

/-- In an accepted format these are the conversions of the grammar. -/
theorem conversionsIn_of_spells {pieces : List Piece} {fmt : List UInt8}
    (spells : Spells pieces fmt) : conversionsIn fmt = (conversions pieces).length := by
  induction pieces generalizing fmt with
  | nil =>
      have empty : fmt = [] := spells.text.symm
      rw [empty, conversionsIn, countIn]
      rfl
  | cons piece pieces induction =>
      rcases spells.uncons with ⟨rest, rfl, plain, spellsRest⟩
      have others := induction spellsRest
      rw [conversionsIn] at others ⊢
      cases piece with
      | literal c =>
          have notPercent : (c != '%'.toUInt8) = true := bne_iff_ne.mpr plain
          rw [Piece.text, List.singleton_append, countIn, if_pos notPercent, others]
          rfl
      | percent =>
          have percent : (current ('%'.toUInt8 :: rest) == '%'.toUInt8) = true := rfl
          rw [Piece.text, List.cons_append, List.singleton_append, countIn,
            if_neg (by decide), if_pos percent, List.tail_cons, others]
          rfl
      | conversion conversion =>
          rw [Piece.text, conversion_text_append,
            countIn_of_dropWhile 0 1 (current_inner conversion plain rest)
              (scan_conversion conversion rest).2, others]
          rfl

/-! ## One pass -/

/-- The variables when memory has been asked for some times. -/
def Output.counted (asked : Nat) (output : Output) : Output :=
  { output with mallocs := output.mallocs + asked }

/-- The call that the pass from a loop head comes to: there is a conversion, a copy of it
and a parameter for it. -/
def FmtState.upcoming (libc : Libc) (message : Message) (state : FmtState) : Option Call :=
  state.conversion.bind fun conversion =>
    match copyConversion libc conversion state.output with
    | (_, none) => none
    | (output, some fmtSingle) =>
        if state.paramIdx < message.numParams then
          some (FmtState.call message fmtSingle { state with output := output })
        else none

/-- The pass from a loop head makes a call. -/
def Makes (libc : Libc) (message : Message) (state : FmtState) (call : Call) : Prop :=
  state.upcoming libc message = some call

/-- A pass of the loop: a character is stored, or a call is made with a copy of the
conversion, unless there is no end of the conversion, no copy or no parameter. -/
inductive Turn (libc : Libc) (passes : Nat) (message : Message) (state : FmtState) :
    FmtState × Progress → Prop
  | finished : state.rest = [] → Turn libc passes message state (state, .finished)
  | literal {c : UInt8} {rest : List UInt8} : state.literal = some (c, rest) →
      Turn libc passes message state (state.putChar c rest, .running)
  | crashed {asked : Nat} :
      (∀ conversion ∈ state.conversion,
        (copyConversion libc conversion state.output).2 = none) →
      Turn libc passes message state
        ({ state with output := state.output.counted asked }, .crashed)
  | noParam {asked : Nat} {conversion fmtSingle : List UInt8} :
      state.conversion = some conversion →
      (copyConversion libc conversion state.output).2 = some fmtSingle →
      message.numParams ≤ state.paramIdx →
      Turn libc passes message state
        ({ state with output := state.output.counted asked }, .failed)
  | called {asked : Nat} {fmtSingle behind : List UInt8} {call : Call} :
      state.paramIdx < message.numParams →
      (∀ character conversion, countIn character conversion state.rest =
        countIn character conversion behind + conversion) →
      behind.length < state.rest.length →
      Makes libc message state call →
      call = FmtState.call message fmtSingle
        { state with output := state.output.counted asked } →
      Turn libc passes message state
        (FmtState.behindCall message behind call
          { state with output := state.output.counted asked } (call.run libc passes))

theorem copyConversion_counted (libc : Libc) (conversion : List UInt8) (output : Output) :
    ∃ asked, (copyConversion libc conversion output).1 = output.counted asked := by
  rw [copyConversion]
  split
  · exact ⟨0, rfl⟩
  · exact ⟨1, rfl⟩

theorem fmtPass_turn (libc : Libc) (passes : Nat) (message : Message) (state : FmtState) :
    Turn libc passes message state (fmtPass libc passes message state) := by
  simp only [fmtPass]
  split
  · rename_i ended
    exact .finished ended
  · rename_i c rest given
    split
    · rename_i plain
      apply Turn.literal
      rw [FmtState.literal, given]
      exact if_pos plain
    · rename_i notPlain
      have isPercent : c = '%'.toUInt8 := by simpa using notPlain
      split
      · rename_i percent
        apply Turn.literal
        simp only [FmtState.literal, given, if_neg notPlain, if_pos percent]
      · rename_i notPercent
        have single : (current rest == '%'.toUInt8) = false := by simpa using notPercent
        split
        · rename_i endless
          apply @Turn.crashed _ _ _ _ 0
          simp [FmtState.conversion, given, endless]
        · rename_i terminal behind found
          have conversions (character conversion : Nat) :
              countIn character conversion state.rest =
                countIn character conversion behind + conversion := by
            rw [given, isPercent]
            exact countIn_of_dropWhile character conversion single found
          have own : state.conversion = some ('%'.toUInt8 ::
              (rest.takeWhile (fun c => !isTerminal c) ++ [terminal])) := by
            simp [FmtState.conversion, given, isPercent, single, found]
          generalize '%'.toUInt8 :: _ = conversion at own ⊢
          rcases copyConversion_counted libc conversion state.output with ⟨asked, copied⟩
          split
          · rename_i output none
            rw [none] at copied
            subst copied
            apply Turn.crashed
            intro other same
            cases own.symm.trans same
            rw [none]
          · rename_i output fmtSingle some
            rw [some] at copied
            subst copied
            have suffix := (rest.dropWhile_suffix fun c => !isTerminal c).length_le
            rw [found, List.length_cons] at suffix
            have shorter : behind.length < state.rest.length := by
              rw [given, List.length_cons]
              omega
            by_cases hasParam : state.paramIdx < message.numParams
            · have handed : ({ state with output := state.output.counted asked } :
                  FmtState).paramIdx < message.numParams := hasParam
              rw [formatConversion_eq handed]
              apply Turn.called hasParam conversions shorter _ rfl
              simp only [Makes, FmtState.upcoming, own, Option.bind_some, some,
                if_pos hasParam]
            · have none : ¬({ state with output := state.output.counted asked } :
                  FmtState).paramIdx < message.numParams := hasParam
              rw [formatConversion, if_neg none]
              exact .noParam own (by rw [some]) (Nat.not_lt.mp hasParam)

theorem upcoming_of_literal {libc : Libc} {message : Message} {state : FmtState} {c : UInt8}
    {rest : List UInt8} (literal : state.literal = some (c, rest)) :
    state.upcoming libc message = none := by
  have none : state.conversion = none := by
    cases found : state.conversion with
    | none => rfl
    | some conversion =>
        rw [(conversion_eq_some found).1] at literal
        cases literal
  rw [FmtState.upcoming, none]
  rfl

/-- The call that a pass makes is recorded. -/
theorem fmtPass_calls (libc : Libc) (passes : Nat) (message : Message) (state : FmtState) :
    (fmtPass libc passes message state).1.calls =
      state.calls ++ (state.upcoming libc message).toList := by
  have turn := fmtPass_turn libc passes message state
  generalize fmtPass libc passes message state = result at turn
  cases turn with
  | finished ended =>
      have none : state.upcoming libc message = none := by
        simp [FmtState.upcoming, FmtState.conversion, ended]
      simp [none]
  | literal literal => simp [upcoming_of_literal literal, FmtState.putChar]
  | crashed noCopy =>
      have none : state.upcoming libc message = none := by
        rw [FmtState.upcoming, Option.bind_eq_none_iff]
        intro conversion found
        have none := noCopy conversion found
        rcases given : copyConversion libc conversion state.output with ⟨output, copy⟩
        rw [given] at none
        cases none
        rfl
      simp [none]
  | @noParam asked conversion fmtSingle found copied missing =>
      have none : state.upcoming libc message = none := by
        rcases given : copyConversion libc conversion state.output with ⟨output, copy⟩
        rw [given] at copied
        cases copied
        simp only [FmtState.upcoming, found, Option.bind_some, given,
          if_neg (Nat.not_lt.mpr missing)]
      simp [none]
  | called _ _ _ own _ =>
      rw [behindCall_calls, show state.upcoming libc message = _ from own]
      rfl

theorem makes_iff (libc : Libc) (passes : Nat) (message : Message) (state : FmtState)
    (call : Call) :
    Makes libc message state call ↔
      (fmtPass libc passes message state).1.calls = state.calls ++ [call] := by
  rw [fmtPass_calls, List.append_cancel_left_eq, Makes]
  cases state.upcoming libc message <;> simp

section Makes

variable {libc : Libc} {passes : Nat} {message : Message} {state : FmtState} {call : Call}

/-- A call is made with the variables of the loop head. -/
theorem Makes.callAt (makes : Makes libc message state call) : CallAt state call := by
  rw [Makes, FmtState.upcoming, Option.bind_eq_some_iff] at makes
  rcases makes with ⟨conversion, _, made⟩
  have same := copyConversion_samePlace libc conversion state.output
  rcases given : copyConversion libc conversion state.output with ⟨output, copy⟩
  rw [given] at same made
  cases copy with
  | none => cases made
  | some fmtSingle =>
      simp only at made
      split at made
      · cases made
        exact ⟨same, by rw [← same.logBuffer]; rfl⟩
      · cases made

/-- The loop goes on behind a call when it returns. -/
theorem Makes.goesOn (makes : Makes libc message state call) {given : Output}
    {logFmtLen : Int} (run : call.run libc passes = (given, some logFmtLen))
    (success : call.isString = false → logFmtLen ≠ -1) :
    ∃ paramList rest, fmtPass libc passes message state =
      (state.advance given logFmtLen paramList call rest, .running) := by
  rw [makes_iff libc passes] at makes
  have noCall : state.calls ≠ state.calls ++ [call] := by simp
  have own {other : Call} (same : state.calls ++ [other] = state.calls ++ [call]) :
      other = call := List.singleton_inj.mp (List.append_cancel_left same)
  have pass := fmtPass_pass libc passes message state
  generalize fmtPass libc passes message state = result at makes pass
  cases pass with
  | finished _ => exact absurd makes noCall
  | literal _ => exact absurd makes noCall
  | left _ _ => exact absurd makes noCall
  | retrying _ endless =>
      cases own makes
      rw [endless] at run
      cases run
  | failed _ nonString failed =>
      cases own makes
      rw [failed] at run
      cases run
      exact absurd rfl (success nonString)
  | returned _ returned _ =>
      cases own makes
      rw [returned] at run
      cases run
      exact ⟨_, _, rfl⟩

end Makes

/-! ## The run from a loop head on -/

section Run

variable {libc : Libc} {passes : Nat} {message : Message} {start state after : FmtState}

theorem literal_shortens {c : UInt8} {rest : List UInt8}
    (literal : state.literal = some (c, rest)) : rest.length < state.rest.length := by
  simp only [FmtState.literal] at literal
  split at literal
  · cases literal
  · rename_i given
    rw [given, List.length_cons]
    split at literal
    · cases literal
      omega
    · split at literal
      · cases literal
        rw [List.length_tail]
        omega
      · cases literal

/-- The loop goes on behind a call that has returned a length. -/
theorem behindCall_running {behind : List UInt8} {call : Call}
    {result : Output × Option Int}
    (given : state.behindCall message behind call result = (after, .running)) :
    ∃ output logFmtLen, result = (output, some logFmtLen) ∧
      ¬(call.isString = false ∧ logFmtLen = -1) ∧
      after = state.advance output logFmtLen
        (message.cursorBehind state.paramIdx state.paramList) call behind := by
  rcases result with ⟨output, none | logFmtLen⟩
  · cases given
  · simp only [FmtState.behindCall] at given
    split at given
    · cases given
    · rename_i success
      cases given
      exact ⟨output, logFmtLen, rfl, success, rfl⟩

theorem behindCall_failed {behind : List UInt8} {call : Call}
    {result : Output × Option Int}
    (failed : (state.behindCall message behind call result).2 = .failed) :
    call.isString = false ∧ ∃ output, result = (output, some (-1)) := by
  rcases result with ⟨output, none | logFmtLen⟩
  · cases failed
  · simp only [FmtState.behindCall] at failed
    split at failed
    · rename_i refused
      exact ⟨refused.1, output, by rw [refused.2]⟩
    · cases failed

/-- What the loop goes on behind: a character, or a conversion and its parameter. -/
theorem fmtPass_running (taken : fmtPass libc passes message state = (after, .running)) :
    (∃ c rest, state.literal = some (c, rest) ∧ after = state.putChar c rest) ∨
      (conversionsIn state.rest = conversionsIn after.rest + 1 ∧
        after.rest.length < state.rest.length ∧ after.paramIdx = state.paramIdx + 1) := by
  have turn := fmtPass_turn libc passes message state
  rw [taken] at turn
  generalize given : (after, Progress.running) = result at turn
  cases turn with
  | finished _ => cases given
  | literal literal =>
      cases given
      exact .inl ⟨_, _, literal, rfl⟩
  | crashed _ => cases given
  | noParam _ _ _ => cases given
  | called _ counted shorter _ _ =>
      rcases behindCall_running given.symm with ⟨output, logFmtLen, _, _, rfl⟩
      exact .inr ⟨counted 0 1, shorter, rfl⟩

theorem fmtPass_shortens (taken : fmtPass libc passes message state = (after, .running)) :
    after.rest.length < state.rest.length := by
  rcases fmtPass_running taken with ⟨c, rest, literal, rfl⟩ | ⟨_, shorter, _⟩
  · exact literal_shortens literal
  · exact shorter

/-- What holds at every loop head, told from the first one. -/
theorem forall_heads_iff_of_left {Holds : FmtState → Prop} {ended : FmtState × Progress}
    (taken : fmtPass libc passes message state = ended) (left : ended.2 ≠ .running) :
    (∀ head, (heads libc passes message state).Reachable head → Holds head) ↔
      Holds state := by
  constructor
  · exact fun all => all state (.initial rfl)
  · intro own head reachable
    rcases heads_reachable_iff.mp reachable with rfl | ⟨second, first, _⟩
    · exact own
    · rw [taken] at first
      rw [first] at left
      exact absurd rfl left

theorem forall_heads_iff_of_running {Holds : FmtState → Prop}
    (taken : fmtPass libc passes message state = (after, .running)) :
    (∀ head, (heads libc passes message state).Reachable head → Holds head) ↔
      Holds state ∧
        ∀ head, (heads libc passes message after).Reachable head → Holds head := by
  constructor
  · intro all
    exact ⟨all state (.initial rfl), fun head reachable =>
      all head (heads_reachable_iff.mpr (.inr ⟨after, taken, reachable⟩))⟩
  · rintro ⟨own, later⟩ head reachable
    rcases heads_reachable_iff.mp reachable with rfl | ⟨second, first, behind⟩
    · exact own
    · cases taken.symm.trans first
      exact later head behind

/-- The loop comes to each of its heads, with passes left for what is behind it. -/
theorem fmtLoop_of_head (head : (heads libc passes message start).Reachable state) :
    ∃ used, used + state.rest.length ≤ start.rest.length ∧
      ∀ count, fmtLoop libc passes message (used + count) start =
        fmtLoop libc passes message count state := by
  induction head with
  | initial entered =>
      cases entered
      exact ⟨0, by omega, fun count => by rw [Nat.zero_add]⟩
  | step _ taken induction =>
      rcases induction with ⟨used, within, comes⟩
      have shorter := fmtPass_shortens taken
      refine ⟨used + 1, by omega, ?_⟩
      intro count
      rw [Nat.add_assoc, Nat.add_comm 1, comes]
      exact fmtLoop_running taken

/-- A pass that leaves the loop is the end of the run. -/
theorem fmtLoop_of_left (head : (heads libc passes message start).Reachable state)
    (left : (fmtPass libc passes message state).2 ≠ .running) :
    fmtLoop libc passes message (start.rest.length + 1) start =
      fmtPass libc passes message state := by
  rcases fmtLoop_of_head head with ⟨used, within, comes⟩
  rw [show start.rest.length + 1 = used + (start.rest.length - used + 1) by omega, comes]
  exact fmtLoop_left left

end Run

end StaticLog.Decoding
