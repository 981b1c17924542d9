import StaticLog.Decoding.Rendering
import StaticLog.Foundation.Execution

/-! # The heads of the formatting loop

The moments at which `process_fmt` evaluates its loop condition, as the states of a
system whose steps are the passes of the loop, with one account of what a pass can
do. What a call of a decoding function does depends on its record only. -/

namespace StaticLog.Decoding

open StaticLog.Format
open StaticLog.Execution

/-- The states at the head of the loop. -/
def heads (libc : Libc) (passes : Nat) (message : Message) (start : FmtState) :
    System FmtState Unit where
  Initial state := state = start
  Step before _ after := fmtPass libc passes message before = (after, .running)

/-- A loop head of a call of `process_fmt`. -/
abbrev IsHead (libc : Libc) (passes : Nat) (message : Message) (fmt : List UInt8)
    (paramList startPos : Nat) (output : Output) (state : FmtState) : Prop :=
  (heads libc passes message (FmtState.enter fmt paramList startPos output)).Reachable state

section Heads

variable {libc : Libc} {passes count : Nat} {message : Message}
  {start state final : FmtState} {progress : Progress}

theorem heads_next {after : FmtState}
    (head : (heads libc passes message start).Reachable state)
    (taken : fmtPass libc passes message state = (after, .running)) :
    (heads libc passes message start).Reachable after := by
  have step : (heads libc passes message start).Step state () after := taken
  exact .step head step

/-- The first loop head, and the ones from the second on. -/
theorem heads_reachable_iff :
    (heads libc passes message start).Reachable state ↔
      state = start ∨ ∃ second, fmtPass libc passes message start = (second, .running) ∧
        (heads libc passes message second).Reachable state := by
  constructor
  · intro reachable
    induction reachable with
    | initial entered => exact .inl entered
    | step _ taken induction =>
        rcases induction with rfl | ⟨second, first, later⟩
        · exact .inr ⟨_, taken, .initial rfl⟩
        · exact .inr ⟨second, first, heads_next later taken⟩
  · rintro (rfl | ⟨second, first, later⟩)
    · exact .initial rfl
    · induction later with
      | initial entered =>
          cases entered
          exact heads_next (.initial rfl) first
      | step _ taken induction => exact heads_next induction taken

theorem heads_reachable_of_fmtLoop
    (head : (heads libc passes message start).Reachable state)
    (looped : fmtLoop libc passes message count state = (final, .running)) :
    (heads libc passes message start).Reachable final := by
  induction count generalizing state with
  | zero =>
      cases looped
      exact head
  | succ count induction =>
      rw [fmtLoop] at looped
      split at looped
      · rename_i after given
        exact induction (heads_next head given) looped
      · rename_i notRunning
        exact absurd looped (notRunning final)

/-- The loop comes to an end with the pass from one of its heads. -/
theorem fmtLoop_ended (head : (heads libc passes message start).Reachable state)
    (looped : fmtLoop libc passes message count state = (final, progress))
    (ended : progress ≠ .running) :
    ∃ last, (heads libc passes message start).Reachable last ∧
      fmtPass libc passes message last = (final, progress) := by
  induction count generalizing state with
  | zero =>
      cases looped
      exact absurd rfl ended
  | succ count induction =>
      rw [fmtLoop] at looped
      split at looped
      · rename_i after given
        exact induction (heads_next head given) looped
      · exact ⟨state, head, looped⟩

end Heads

/-! ## What a call comes to -/

/-- The result of a call, from what has been recorded of it. -/
def Call.run (libc : Libc) (passes : Nat) (call : Call) : Output × Option Int :=
  if call.isString then
    if paramBufferFails libc call.value.length call.output then
      ({ call.output with mallocs := call.output.mallocs + 1 }, some (-1))
    else
      let printed := printString libc call.startPos call.fmt
        (.string (cString call.value)) (call.output.withParamBuffer call.value.length)
      (printed.1, some printed.2)
  else
    match selectBranch call.value.length (call.fmt.getLastD 0) call.value with
    | none => (call.output, some 0)
    | some branch =>
        retryNonString libc call.startPos call.fmt branch passes call.output

/-! ## What a pass can do -/

/-- The character that a pass stores by itself, and the format behind it. -/
def FmtState.literal (state : FmtState) : Option (UInt8 × List UInt8) :=
  match state.rest with
  | [] => none
  | c :: rest =>
      if c != '%'.toUInt8 then some (c, rest)
      else if current rest == '%'.toUInt8 then some ('%'.toUInt8, rest.tail)
      else none

/-- A call whose arguments are those of a loop head. -/
structure CallAt (state : FmtState) (call : Call) : Prop where
  place : state.output.SamePlace call.output
  startPos : call.startPos = wrappingSub state.logPos state.output.logBuffer

/-- A pass of the loop from one of its heads. -/
inductive Pass (libc : Libc) (passes : Nat) (state : FmtState) :
    FmtState × Progress → Prop
  | finished : state.rest = [] → Pass libc passes state (state, .finished)
  | literal {c : UInt8} {rest : List UInt8} : state.literal = some (c, rest) →
      Pass libc passes state (state.putChar c rest, .running)
  | left {output : Output} {progress : Progress} : state.output.SamePlace output →
      progress = .failed ∨ progress = .crashed →
      Pass libc passes state ({ state with output := output }, progress)
  | retrying {call : Call} {output : Output} : CallAt state call →
      call.run libc passes = (output, none) →
      Pass libc passes state
        ({ state with output := output, calls := state.calls ++ [call] }, .retrying)
  | failed {call : Call} {output : Output} : CallAt state call →
      call.isString = false → call.run libc passes = (output, some (-1)) →
      Pass libc passes state
        ({ state with output := output, calls := state.calls ++ [call] }, .failed)
  | returned {call : Call} {output : Output} {logFmtLen : Int} {paramList : Nat}
      {rest : List UInt8} : CallAt state call →
      call.run libc passes = (output, some logFmtLen) →
      (call.isString = false → logFmtLen ≠ -1) →
      Pass libc passes state
        (state.advance output logFmtLen paramList call rest, .running)

/-- The record of a call determines what it comes to. -/
theorem run_of_string {call : Call} (isString : call.isString = true) {param : Memory UInt8}
    {paramPos paramSize : Nat} (value : call.value = Memory.slice param paramPos paramSize)
    (libc : Libc) (passes : Nat) :
    call.run libc passes =
      ((decodeStringFmt libc call.startPos param paramPos paramSize call.fmt
          call.output).1,
        some (decodeStringFmt libc call.startPos param paramPos paramSize call.fmt
          call.output).2) := by
  simp only [Call.run, isString, if_true, value, Memory.slice_length, decodeStringFmt_eq]
  split <;> rfl

theorem run_of_nonString {call : Call} (nonString : call.isString = false)
    {param : Memory UInt8} {paramPos paramSize : Nat}
    (value : call.value = Memory.slice param paramPos paramSize)
    (libc : Libc) (passes : Nat) :
    call.run libc passes =
      decodeNonStringFmt libc passes call.startPos call.fmt param paramPos paramSize
        call.output := by
  have notString : ¬call.isString = true := by simp [nonString]
  rw [Call.run, if_neg notString, value, Memory.slice_length]
  rfl

theorem formatConversion_pass (libc : Libc) (passes : Nat) (message : Message)
    (fmtSingle rest : List UInt8) {state : FmtState} {output : Output}
    (place : state.output.SamePlace output) :
    Pass libc passes state (formatConversion libc passes message fmtSingle rest
      { state with output := output }) := by
  have callAt {call : Call} (handed : call.output = output)
      (startPos : call.startPos = wrappingSub state.logPos output.logBuffer) :
      CallAt state call := by
    subst handed
    rw [place.logBuffer] at startPos
    exact ⟨place, startPos⟩
  simp only [formatConversion]
  split
  · split
    · apply Pass.returned (callAt rfl rfl)
      · exact run_of_string rfl rfl libc passes
      · intro nonString
        cases nonString
    · split
      · rename_i given
        apply Pass.retrying (callAt rfl rfl)
        rw [run_of_nonString rfl rfl libc passes]
        exact given
      · rename_i given
        split
        · rename_i failed
          subst failed
          apply Pass.failed (callAt rfl rfl) rfl
          rw [run_of_nonString rfl rfl libc passes]
          exact given
        · rename_i success
          apply Pass.returned (callAt rfl rfl)
          · rw [run_of_nonString rfl rfl libc passes]
            exact given
          · exact fun _ => success
  · exact .left place (.inl rfl)

theorem fmtPass_pass (libc : Libc) (passes : Nat) (message : Message) (state : FmtState) :
    Pass libc passes state (fmtPass libc passes message state) := by
  simp only [fmtPass]
  split
  · rename_i ended
    exact .finished ended
  · rename_i c rest given
    split
    · rename_i plain
      apply Pass.literal
      rw [FmtState.literal, given]
      exact if_pos plain
    · rename_i notPlain
      split
      · rename_i percent
        apply Pass.literal
        simp only [FmtState.literal, given, if_neg notPlain, if_pos percent]
      · split
        · exact .left ⟨rfl, rfl, rfl⟩ (.inr rfl)
        · generalize '%'.toUInt8 :: _ = conversion
          have copied := copyConversion_samePlace libc conversion state.output
          split
          · rename_i output given
            rw [given] at copied
            exact .left copied (.inr rfl)
          · rename_i output fmtSingle given
            rw [given] at copied
            exact formatConversion_pass libc passes message fmtSingle _ copied

end StaticLog.Decoding
