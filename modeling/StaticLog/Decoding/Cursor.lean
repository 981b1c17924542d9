import StaticLog.Decoding.ProcessFmt

/-! # The write cursor while the buffer keeps its place

As long as no call of a decoding function has to grow the log buffer, `log_pos`
stands `buflen - reserved` bytes behind the start of the buffer, whatever the
calls return. -/

namespace StaticLog.Decoding

open StaticLog.Format

namespace Call

/-- The text that the call formats. -/
def text (libc : Libc) (call : Call) : List UInt8 :=
  if call.isString then libc.render call.fmt (.string (cString call.value))
  else
    match selectBranch call.value.length (call.fmt.getLastD 0) call.value with
    | none => []
    | some branch => libc.render call.fmt branch.arg

/-- What `snprintf` returns for the call. -/
def fmtLen (libc : Libc) (call : Call) : Nat :=
  if call.isString then libc.fmtLen call.fmt (.string (cString call.value))
  else
    match selectBranch call.value.length (call.fmt.getLastD 0) call.value with
    | none => 0
    | some branch => libc.fmtLen call.fmt branch.arg

/-- `snprintf` fails for the call. -/
def snprintfFails (libc : Libc) (call : Call) : Bool :=
  if call.isString then libc.fails call.fmt (.string (cString call.value))
  else
    match selectBranch call.value.length (call.fmt.getLastD 0) call.value with
    | none => false
    | some branch => libc.fails call.fmt branch.arg

/-- Whether what `snprintf` returns is too much for what is left of the buffer. -/
def grows (libc : Libc) (call : Call) : Bool :=
  if call.isString then decide (call.output.reserved < call.fmtLen libc)
  else
    (selectBranch call.value.length (call.fmt.getLastD 0) call.value).isSome &&
      (call.snprintfFails libc || decide (call.output.reserved ≤ call.fmtLen libc))

theorem lt_reserved {libc : Libc} {call : Call} (fits : call.grows libc = false)
    (nonString : call.isString = false) {branch : Branch}
    (selected : selectBranch call.value.length (call.fmt.getLastD 0) call.value =
      some branch) :
    libc.fails call.fmt branch.arg = false ∧
      libc.fmtLen call.fmt branch.arg < call.output.reserved := by
  simp only [grows, fmtLen, snprintfFails, nonString, selected] at fits
  simpa using fits

end Call

/-- The output is that of another moment, up to what the heap holds and the
number of allocations. -/
structure Output.SamePlace (before after : Output) : Prop where
  logBuffer : after.logBuffer = before.logBuffer
  length : after.length = before.length
  reserved : after.reserved = before.reserved

theorem Output.SamePlace.trans {before middle after : Output}
    (first : before.SamePlace middle) (second : middle.SamePlace after) :
    before.SamePlace after where
  logBuffer := second.logBuffer.trans first.logBuffer
  length := second.length.trans first.length
  reserved := second.reserved.trans first.reserved

/-- The variables after `snprintf` in a run of the body behind `retry`. -/
def Output.printed (libc : Libc) (startPos : Nat) (fmt : List UInt8) (branch : Branch)
    (output : Output) : Output :=
  { output with
    heap := (snprintf libc output.heap (pointerAdd output.logBuffer startPos)
      (if branch.boundIsReserved then output.reserved else output.length) fmt
      branch.arg).1 }

/-- A text that fits is printed once. -/
theorem retryNonString_prints (libc : Libc) (passes startPos : Nat) (fmt : List UInt8)
    (branch : Branch) (output : Output)
    (fits : libc.fmtLen fmt branch.arg < output.reserved) :
    retryNonString libc startPos fmt branch (passes + 1) output =
      (output.printed libc startPos fmt branch,
        some (toInt (libc.fmtLen fmt branch.arg))) := by
  have enough : ¬output.reserved ≤ libc.fmtLen fmt branch.arg :=
    Nat.not_le.mpr fits
  rw [retryNonString]
  exact if_neg enough

theorem retryNonString_fits (libc : Libc) (passes startPos : Nat) (fmt : List UInt8)
    (branch : Branch) (output : Output)
    (fits : libc.fmtLen fmt branch.arg < output.reserved) :
    let retried := retryNonString libc startPos fmt branch passes output
    output.SamePlace retried.1 ∧
      (passes ≠ 0 → retried.2 = some (toInt (libc.fmtLen fmt branch.arg))) := by
  cases passes with
  | zero => exact ⟨⟨rfl, rfl, rfl⟩, fun none => absurd rfl none⟩
  | succ passes =>
      rw [retryNonString_prints libc passes startPos fmt branch output fits]
      exact ⟨⟨rfl, rfl, rfl⟩, fun _ => rfl⟩

theorem decodeNonStringFmt_fits (libc : Libc) (passes startPos : Nat)
    (fmt : List UInt8) (param : Memory UInt8) (paramPos paramSize : Nat)
    (output : Output)
    (fits : ∀ branch, selectBranch paramSize (fmt.getLastD 0)
        (Memory.slice param paramPos paramSize) = some branch →
      libc.fmtLen fmt branch.arg < output.reserved) :
    output.SamePlace
      (decodeNonStringFmt libc passes startPos fmt param paramPos paramSize output).1 := by
  simp only [decodeNonStringFmt]
  split
  · exact ⟨rfl, rfl, rfl⟩
  · rename_i branch selected
    exact (retryNonString_fits libc passes startPos fmt branch output
      (fits branch selected)).1

/-- A string that is no longer than what is left of the buffer is printed once. -/
theorem printString_fits {libc : Libc} {startPos : Nat} {fmt : List UInt8} {arg : VarArg}
    {output : Output} (fits : libc.fmtLen fmt arg ≤ output.reserved) :
    printString libc startPos fmt arg output =
      ({ output with
          heap := (snprintf libc output.heap (pointerAdd output.logBuffer startPos)
            output.reserved fmt arg).1 }, toInt (libc.fmtLen fmt arg)) :=
  if_neg (Nat.not_lt.mpr fits)

theorem decodeStringFmt_fits (libc : Libc) (startPos : Nat) (param : Memory UInt8)
    (paramPos paramSize : Nat) (fmt : List UInt8) (output : Output)
    (fits : libc.fmtLen fmt (.string (cString (Memory.slice param paramPos paramSize))) ≤
      output.reserved) :
    output.SamePlace
      (decodeStringFmt libc startPos param paramPos paramSize fmt output).1 := by
  simp only [decodeStringFmt]
  split
  · exact ⟨rfl, rfl, rfl⟩
  · split
    · rw [printString_fits (by exact fits)]
      exact ⟨rfl, rfl, rfl⟩
    · rw [printString_fits fits]
      exact ⟨rfl, rfl, rfl⟩

/-! ## Over a pass of the loop -/

/-- The buffer is where it was, and the cursor stands where `reserved` says. -/
structure Steady (start : Output) (state : FmtState) : Prop where
  logBuffer : state.output.logBuffer = start.logBuffer
  length : state.output.length = start.length
  reserved_lt : state.output.reserved < 2 ^ 64
  cursor : state.logPos =
    pointerAdd start.logBuffer (wrappingSub start.length state.output.reserved)

/-- What the cursor advances is what `reserved` goes down by. -/
theorem pointerAdd_wrappingSub {base length reserved count : Nat}
    (lengthFits : length < 2 ^ 64) (reservedFits : reserved < 2 ^ 64)
    (countFits : count < 2 ^ 64) :
    pointerAdd (pointerAdd base (wrappingSub length reserved)) count =
      pointerAdd base (wrappingSub length (wrappingSub reserved count)) := by
  simp only [pointerAdd, wrappingSub]
  split <;> split <;> split <;> omega

namespace Steady

variable {start : Output} {state : FmtState}

theorem enter (fmt : List UInt8) (paramList startPos : Nat) {output : Output}
    (lengthFits : output.length < 2 ^ 64) (startFits : startPos < 2 ^ 64) :
    Steady output (FmtState.enter fmt paramList startPos output) where
  logBuffer := rfl
  length := rfl
  reserved_lt := wrappingSub_lt lengthFits
  cursor := by
    simp only [FmtState.enter, pointerAdd, wrappingSub]
    split <;> split <;> omega

theorem putChar (steady : Steady start state) (lengthFits : start.length < 2 ^ 64)
    (c : UInt8) (rest : List UInt8) : Steady start (state.putChar c rest) where
  logBuffer := steady.logBuffer
  length := steady.length
  reserved_lt := wrappingSub_lt steady.reserved_lt
  cursor := by
    simp only [FmtState.putChar, steady.cursor]
    exact pointerAdd_wrappingSub lengthFits steady.reserved_lt (by decide)

theorem advance (steady : Steady start state) (lengthFits : start.length < 2 ^ 64)
    {output : Output} (same : state.output.SamePlace output) (logFmtLen : Int)
    (paramList : Nat) (call : Call) (rest : List UInt8) :
    Steady start (state.advance output logFmtLen paramList call rest) where
  logBuffer := same.logBuffer.trans steady.logBuffer
  length := same.length.trans steady.length
  reserved_lt := by
    simp only [FmtState.advance, same.reserved]
    exact wrappingSub_lt steady.reserved_lt
  cursor := by
    simp only [FmtState.advance, steady.cursor, same.reserved]
    exact pointerAdd_wrappingSub lengthFits steady.reserved_lt (ofInt_lt _)

/-- A change of what does not matter. -/
theorem congr (steady : Steady start state) {changed : FmtState}
    (same : state.output.SamePlace changed.output)
    (logPos : changed.logPos = state.logPos) : Steady start changed where
  logBuffer := same.logBuffer.trans steady.logBuffer
  length := same.length.trans steady.length
  reserved_lt := same.reserved ▸ steady.reserved_lt
  cursor := by
    rw [logPos, same.reserved]
    exact steady.cursor

theorem of_start (steady : Steady start state) {other : Output}
    (logBuffer : other.logBuffer = start.logBuffer)
    (length : other.length = start.length) : Steady other state where
  logBuffer := steady.logBuffer.trans logBuffer.symm
  length := steady.length.trans length.symm
  reserved_lt := steady.reserved_lt
  cursor := by
    rw [logBuffer, length]
    exact steady.cursor

end Steady

/-- What formatting a conversion can come to: there is no parameter for it, or a
call is made which leaves the buffer alone unless it has to grow it; then the
cursor is advanced or the loop is left. -/
theorem formatConversion_cases (libc : Libc) (passes : Nat) (message : Message)
    (fmtSingle rest : List UInt8) (state : FmtState) :
    let formatted := formatConversion libc passes message fmtSingle rest state
    formatted = (state, .failed) ∨
      ∃ call output,
        (call.grows libc = false → state.output.SamePlace output) ∧
        ((∃ logFmtLen paramList,
            formatted = (state.advance output logFmtLen paramList call rest, .running)) ∨
          ∃ progress,
            formatted = ({ state with output := output, calls := state.calls ++ [call] },
              progress)) := by
  simp only [formatConversion]
  split
  · split
    · right
      refine ⟨_, _, ?_, .inl ⟨_, _, rfl⟩⟩
      intro fits
      apply decodeStringFmt_fits
      simpa [Call.grows, Call.fmtLen] using fits
    · have decoded := decodeNonStringFmt_fits libc passes
        (wrappingSub state.logPos state.output.logBuffer) fmtSingle message.params
        state.paramList (message.paramSizes.getD state.paramIdx 0) state.output
      have keeps (call : Call) (fmt : call.fmt = fmtSingle)
          (nonString : call.isString = false) (output : call.output = state.output)
          (value : call.value = Memory.slice message.params state.paramList
            (message.paramSizes.getD state.paramIdx 0))
          (fits : call.grows libc = false) :
          state.output.SamePlace (decodeNonStringFmt libc passes
            (wrappingSub state.logPos state.output.logBuffer) fmtSingle message.params
            state.paramList (message.paramSizes.getD state.paramIdx 0)
            state.output).1 := by
        apply decoded
        intro branch selected
        rw [← fmt, ← output]
        refine (Call.lt_reserved fits nonString ?_).2
        rw [fmt, value, Memory.slice_length]
        exact selected
      split
      · rename_i output given
        rw [given] at keeps
        exact .inr ⟨_, output, keeps _ rfl rfl rfl rfl, .inr ⟨_, rfl⟩⟩
      · rename_i output logFmtLen given
        rw [given] at keeps
        split
        · exact .inr ⟨_, output, keeps _ rfl rfl rfl rfl, .inr ⟨_, rfl⟩⟩
        · exact .inr ⟨_, output, keeps _ rfl rfl rfl rfl, .inl ⟨_, _, rfl⟩⟩
  · exact .inl rfl

theorem copyConversion_samePlace (libc : Libc) (conversion : List UInt8)
    (output : Output) :
    output.SamePlace (copyConversion libc conversion output).1 := by
  rw [copyConversion]
  split <;> exact ⟨rfl, rfl, rfl⟩

/-- A pass keeps the cursor in place, unless its call grows the buffer. -/
theorem fmtPass_steady (libc : Libc) (passes : Nat) (message : Message)
    {start : Output} (lengthFits : start.length < 2 ^ 64) (state : FmtState)
    (steady : (∀ call ∈ state.calls, call.grows libc = false) → Steady start state) :
    let after := (fmtPass libc passes message state).1
    (∀ call ∈ after.calls, call.grows libc = false) → Steady start after := by
  simp only [fmtPass]
  split
  · exact steady
  · split
    · exact fun fits => (steady fits).putChar lengthFits _ _
    · split
      · exact fun fits => (steady fits).putChar lengthFits _ _
      · split
        · exact steady
        · rename_i terminal behind _
          generalize '%'.toUInt8 :: _ = conversion
          have copied := copyConversion_samePlace libc conversion state.output
          split
          · rename_i output given
            rw [given] at copied
            exact fun fits => (steady fits).congr copied rfl
          · rename_i output fmtSingle given
            rw [given] at copied
            have formatted := formatConversion_cases libc passes message fmtSingle behind
              { state with output := output }
            rcases formatted with nothing | ⟨call, decoded, same, formatted⟩
            · rw [nothing]
              exact fun fits => (steady fits).congr copied rfl
            · have handed (fits : ∀ made ∈ state.calls ++ [call], made.grows libc = false) :
                  Steady start { state with output := output } ∧
                    call.grows libc = false := by
                have before := steady fun made member =>
                  fits made (List.mem_append_left _ member)
                exact ⟨before.congr copied rfl,
                  fits call (List.mem_append_right _ (List.mem_singleton_self _))⟩
              rcases formatted with ⟨logFmtLen, paramList, advanced⟩ | ⟨progress, left⟩
              · rw [advanced]
                intro fits
                rcases handed fits with ⟨before, own⟩
                exact before.advance lengthFits (same own) _ _ _ _
              · rw [left]
                intro fits
                rcases handed fits with ⟨before, own⟩
                exact before.congr (same own) rfl

/-- What every pass keeps is kept by the loop. -/
theorem fmtLoop_invariant {libc : Libc} {passes : Nat} {message : Message}
    (Invariant : FmtState → Prop)
    (pass : ∀ state, Invariant state → Invariant (fmtPass libc passes message state).1)
    {state : FmtState} (starts : Invariant state) (count : Nat) :
    Invariant (fmtLoop libc passes message count state).1 := by
  induction count generalizing state with
  | zero => exact starts
  | succ count induction =>
      have next := pass state starts
      rw [fmtLoop]
      split
      · rename_i after given
        rw [given] at next
        exact induction next
      · exact next

/-- In a run of `process_fmt` that does not grow the buffer the cursor ends where
`reserved` says. -/
theorem processFmt_steady (libc : Libc) (passes : Nat) (fmt : List UInt8)
    (message : Message) (paramList : Nat) (output : Output) (startPos : Nat)
    (lengthFits : output.length < 2 ^ 64) (startFits : startPos < 2 ^ 64)
    (fits : ∀ call ∈ (processFmt libc passes fmt message paramList output
      startPos).1.calls, call.grows libc = false) :
    Steady output
      (processFmt libc passes fmt message paramList output startPos).1 := by
  revert fits
  apply fmtLoop_invariant fun state =>
    (∀ call ∈ state.calls, call.grows libc = false) → Steady output state
  · exact fmtPass_steady libc passes message lengthFits
  · exact fun _ => .enter fmt paramList startPos lengthFits startFits

end StaticLog.Decoding
