import Mathlib.Algebra.Ring.Int.Defs
import StaticLog.Decoding.Growths

/-! # Where the cursor of a run is

`log_pos` is set once and then moved by what is stored and by what the decoding functions
return. So it is told from the format and the texts of the conversions, whatever becomes
of the log buffer; as long as the buffer is not replaced, so is the free space. -/

namespace StaticLog.Decoding

open StaticLog.Format
open StaticLog.Execution

namespace Call

/-- A string that `decodeStringFmt` returns -1 for: memory is missing, or `snprintf`
fails. -/
def stringFails (libc : Libc) (call : Call) : Bool :=
  call.fails libc || (call.isString && call.snprintfFails libc)

/-- The length that a call returns when the loop goes on behind it. -/
def length (libc : Libc) (call : Call) : Int :=
  if call.stringFails libc then -1 else (call.text libc).length

end Call

/-- By how much the cursor has been moved when the loop comes to one of its heads. -/
def FmtState.printed (libc : Libc) (fmt : List UInt8) (state : FmtState) : Int :=
  charactersIn (cString fmt) - charactersIn state.rest +
    (state.calls.map (Call.length libc)).sum

/-! ## The result of a call -/

section Results

variable {libc : Libc} {passes : Nat} {call : Call} {ret : Int}

/-- Taken as an `int`, a failure of `snprintf` is the -1 that it was. -/
theorem toInt_fmtLen (libc : Libc) (fmt : List UInt8) (arg : VarArg) :
    toInt (libc.fmtLen fmt arg) =
      if libc.fails fmt arg then -1 else ((libc.render fmt arg).length : Int) := by
  have bounded := libc.render_fits fmt arg
  simp only [Format.intMax] at bounded
  cases fails : libc.fails fmt arg with
  | true =>
      rw [libc.fmtLen_of_fails fails, if_pos rfl]
      decide
  | false =>
      rw [libc.fmtLen_of_succeeds fails, toInt_of_lt (by omega)]
      rfl

/-- What a call for a string returns. -/
theorem run_string_length (isString : call.isString = true) :
    (call.run libc passes).2 = some (call.length libc) := by
  have needed (heap : Memory UInt8) (target size : Nat) :
      (snprintf libc heap target size call.fmt (.string (cString call.value))).2 =
        libc.fmtLen call.fmt (.string (cString call.value)) := rfl
  cases copied : paramBufferFails libc call.value.length call.output with
  | true =>
      simp [Call.run, Call.length, Call.stringFails, Call.fails, Call.unserved, isString,
        copied]
  | false =>
      simp only [Call.run, Call.length, Call.stringFails, Call.fails, Call.unserved,
        Call.allocation, Call.newLength, grows_of_string isString,
        fmtLen_of_string isString, text_of_string isString, snprintfFails_of_string isString,
        isString, copied, if_true, Bool.false_eq_true, if_false, Bool.true_and,
        Bool.false_or, Bool.and_false, printString, needed, withParamBuffer_reserved,
        withParamBuffer_length]
      split
      · rename_i long
        rw [decide_eq_true long, Bool.true_and]
        split
        · rename_i refused
          rw [refused]
          simp
        · rename_i tmp allocated
          rw [allocated]
          simp [toInt_fmtLen]
      · rename_i fits
        rw [decide_eq_false fits]
        simp [toInt_fmtLen]

/-- A string fails just if there is no memory for its copy or for a larger buffer, or
`snprintf` fails. -/
theorem run_failed_iff (isString : call.isString = true) :
    (call.run libc passes).2 = some (-1) ↔ call.stringFails libc = true := by
  rw [run_string_length isString, Option.some.injEq, Call.length]
  cases call.stringFails libc with
  | true => simp
  | false =>
      simp only [Bool.false_eq_true, if_false, iff_false]
      omega

/-- The retry loop returns -1 or the length of the text. -/
theorem retryNonString_length {startPos : Nat} {fmt : List UInt8} {branch : Branch}
    {output : Output}
    (returned : (retryNonString libc startPos fmt branch passes output).2 = some ret)
    (success : ret ≠ -1) : ret = (libc.render fmt branch.arg).length := by
  induction passes generalizing output with
  | zero => cases returned
  | succ passes induction =>
      rcases Nat.lt_or_ge (libc.fmtLen fmt branch.arg) output.reserved with fits | long
      · rw [retryNonString_prints libc passes startPos fmt branch output fits,
          Option.some.injEq, toInt_fmtLen] at returned
        split at returned
        · exact absurd returned.symm success
        · exact returned.symm
      · cases allocated : libc.malloc output.mallocs
            (grownLength (libc.fmtLen fmt branch.arg) output.length output.reserved) with
        | none =>
            rw [retryNonString_refused long allocated] at returned
            exact absurd (Option.some.inj returned).symm success
        | some buffer =>
            rw [retryNonString_grows long allocated] at returned
            exact induction returned

theorem retryNonString_samePlace {startPos : Nat} {fmt : List UInt8} {branch : Branch}
    {output : Output} (noGrowth : retryGrowths libc startPos fmt branch passes output = []) :
    output.SamePlace (retryNonString libc startPos fmt branch passes output).1 := by
  cases passes with
  | zero => exact ⟨rfl, rfl, rfl⟩
  | succ passes =>
      rw [retryGrowths] at noGrowth
      rcases Nat.lt_or_ge (libc.fmtLen fmt branch.arg) output.reserved with fits | long
      · rw [retryNonString_prints libc passes startPos fmt branch output fits]
        exact ⟨rfl, rfl, rfl⟩
      · rw [if_pos long] at noGrowth
        cases allocated : libc.malloc output.mallocs
            (grownLength (libc.fmtLen fmt branch.arg) output.length output.reserved) with
        | none =>
            rw [retryNonString_refused long allocated]
            exact ⟨rfl, rfl, rfl⟩
        | some buffer =>
            rw [allocated] at noGrowth
            cases noGrowth

theorem printString_samePlace {startPos : Nat} {fmt : List UInt8} {arg : VarArg}
    {output : Output} (noGrowth : printStringGrowths libc fmt arg output = []) :
    output.SamePlace (printString libc startPos fmt arg output).1 := by
  have needed (heap : Memory UInt8) (target size : Nat) :
      (snprintf libc heap target size fmt arg).2 = libc.fmtLen fmt arg := rfl
  simp only [printStringGrowths] at noGrowth
  simp only [printString, needed]
  split
  · rename_i long
    rw [if_pos long] at noGrowth
    split
    · exact ⟨rfl, rfl, rfl⟩
    · rename_i tmp allocated
      rw [allocated] at noGrowth
      cases noGrowth
  · exact ⟨rfl, rfl, rfl⟩

theorem Call.run_length (returned : (call.run libc passes).2 = some ret)
    (success : call.isString = false → ret ≠ -1) : ret = call.length libc := by
  cases isString : call.isString with
  | true =>
      rw [run_string_length isString] at returned
      exact (Option.some.inj returned).symm
  | false =>
      have noString : call.stringFails libc = false := by
        simp [Call.stringFails, Call.fails, isString]
      rw [Call.length, noString, if_neg Bool.false_ne_true]
      cases selected : selectBranch call.value.length (call.fmt.getLastD 0) call.value with
      | none =>
          simp only [Call.run, Call.text, isString, Bool.false_eq_true, if_false, selected,
            Option.some.injEq] at returned ⊢
          exact returned.symm
      | some branch =>
          rw [run_of_branch isString selected] at returned
          rw [text_of_nonString isString selected]
          exact retryNonString_length returned (success isString)

/-- A call in which the log buffer is not replaced leaves it as it was. -/
theorem Call.run_samePlace (noGrowth : call.growths libc passes = []) :
    call.output.SamePlace (call.run libc passes).1 := by
  rw [Call.growths] at noGrowth
  rw [Call.run]
  split
  · rename_i isString
    rw [if_pos isString] at noGrowth
    split
    · exact ⟨rfl, rfl, rfl⟩
    · rename_i copied
      rw [if_neg copied] at noGrowth
      have same := withParamBuffer_samePlace call.value.length call.output
      exact same.trans (printString_samePlace noGrowth)
  · rename_i notString
    rw [if_neg notString] at noGrowth
    split
    · exact ⟨rfl, rfl, rfl⟩
    · rename_i branch selected
      rw [selected] at noGrowth
      exact retryNonString_samePlace noGrowth

theorem Call.length_bounds (libc : Libc) (call : Call) :
    -1 ≤ call.length libc ∧ call.length libc < 2 ^ 31 := by
  have bounded := call.text_length_le libc
  simp only [Format.intMax] at bounded
  rw [Call.length]
  split <;> omega

end Results

/-! ## The cursor -/

section Cursor

variable {libc : Libc} {passes : Nat} {message : Message} {fmt : List UInt8}
  {paramList startPos : Nat} {output : Output} {state after : FmtState}

/-- By how much a pass moves the cursor. If it does not replace the log buffer, the free
space shrinks by as much. -/
structure Moves (libc : Libc) (passes : Nat) (fmt : List UInt8) (state after : FmtState)
    (moved : Int) : Prop where
  lower : -1 ≤ moved
  upper : moved < 2 ^ 31
  logPos : after.logPos = pointerAdd state.logPos (ofInt moved)
  printed : after.printed libc fmt = state.printed libc fmt + moved
  unmoved : after.growths libc passes = [] →
    state.growths libc passes = [] ∧ after.output.logBuffer = state.output.logBuffer ∧
      after.output.length = state.output.length ∧
      after.output.reserved = wrappingSub state.output.reserved (ofInt moved)

theorem Moves.word {moved : Int} (moves : Moves libc passes fmt state after moved) :
    0 ≤ moved ∧ (ofInt moved : Int) = moved ∨
      moved < 0 ∧ (ofInt moved : Int) = moved + 2 ^ 64 := by
  have lower := moves.lower
  exact ofInt_spec (by omega) moves.upper

theorem fmtPass_moves (fmt : List UInt8)
    (taken : fmtPass libc passes message state = (after, .running)) :
    ∃ moved, Moves libc passes fmt state after moved := by
  have turn := fmtPass_turn libc passes message state
  rw [taken] at turn
  generalize given : (after, Progress.running) = result at turn
  cases turn with
  | finished _ => cases given
  | literal literal =>
      cases given
      have counted := countIn_of_literal 1 0 literal
      refine ⟨1, by decide, by decide, rfl, ?_, fun noGrowth => ⟨noGrowth, rfl, rfl, rfl⟩⟩
      simp only [FmtState.printed, FmtState.putChar, charactersIn, counted]
      omega
  | crashed _ => cases given
  | noParam _ _ _ => cases given
  | @called asked fmtSingle behind call _ counted _ makes own =>
      rcases behindCall_running given.symm with ⟨decoded, logFmtLen, run, success, rfl⟩
      have returned : (call.run libc passes).2 = some logFmtLen := by rw [run]
      have length := Call.run_length returned fun nonString failed => success ⟨nonString, failed⟩
      have bounds := call.length_bounds libc
      refine ⟨logFmtLen, by omega, by omega, rfl, ?_, ?_⟩
      · simp only [FmtState.printed, FmtState.advance, charactersIn, counted, Nat.add_zero,
          List.map_append, List.sum_append, List.map_cons, List.map_nil, List.sum_cons,
          List.sum_nil, length]
        omega
      · intro noGrowth
        simp only [FmtState.growths, FmtState.advance, List.flatMap_append,
          List.flatMap_singleton, List.append_eq_nil_iff] at noGrowth
        have same := Call.run_samePlace noGrowth.2
        rw [run, own] at same
        refine ⟨noGrowth.1, same.logBuffer, same.length, ?_⟩
        have reserved : decoded.reserved = state.output.reserved := same.reserved
        rw [FmtState.advance, reserved]

/-- The cursor counts from the first log buffer, at every loop head. -/
theorem head_logPos
    (head : IsHead libc passes message fmt paramList startPos output state) :
    (state.logPos : Int) =
      (output.logBuffer + startPos + state.printed libc fmt) % 2 ^ 64 := by
  induction head with
  | initial entered =>
      cases entered
      simp [FmtState.enter, FmtState.printed, pointerAdd]
  | step _ taken induction =>
      rcases fmtPass_moves fmt taken with ⟨moved, moves⟩
      have word := moves.word
      rw [moves.logPos, moves.printed, pointerAdd]
      omega

/-- As long as the log buffer is the first one, the free space begins where the cursor
is. -/
theorem head_unmoved (fits : output.length < 2 ^ 64) (start : startPos ≤ output.length)
    (head : IsHead libc passes message fmt paramList startPos output state)
    (noGrowth : state.growths libc passes = []) :
    state.output.logBuffer = output.logBuffer ∧ state.output.length = output.length ∧
      (state.output.reserved : Int) =
        (output.length - startPos - state.printed libc fmt) % 2 ^ 64 := by
  induction head with
  | initial entered =>
      cases entered
      refine ⟨rfl, rfl, ?_⟩
      simp only [FmtState.enter, FmtState.printed, wrappingSub_of_le start, List.map_nil,
        List.sum_nil]
      omega
  | @step before _ _ _ taken induction =>
      rcases fmtPass_moves fmt taken with ⟨moved, moves⟩
      rcases moves.unmoved noGrowth with ⟨earlier, logBuffer, length, reserved⟩
      rcases induction earlier with ⟨sameBuffer, sameLength, free⟩
      have word := moves.word
      have upper := moves.upper
      refine ⟨logBuffer.trans sameBuffer, length.trans sameLength, ?_⟩
      rw [reserved, moves.printed]
      rcases wrappingSub_spec before.output.reserved (ofInt moved) with ⟨_, equal⟩ | ⟨_, equal⟩
        <;> omega

end Cursor

end StaticLog.Decoding
