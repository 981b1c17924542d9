import StaticLog.Decoding.Parameters
import StaticLog.Decoding.Positions

/-! # What becomes of a failed allocation

`process_fmt` leaves its loop when `decodeNonStringFmt` returns -1, but adds a -1 of
`decodeStringFmt` to its cursor like any other length. -/

namespace StaticLog.Decoding

open StaticLog.Format
open StaticLog.Execution

/-! ## What is reported -/

section Reports

variable (libc : Libc) (passes : Nat) (message : Message)

/-- The decoding of a parameter that the pass comes to returns -1. -/
def FailsAt (state : FmtState) : Prop :=
  ∃ call output, Makes libc message state call ∧
    call.run libc passes = (output, some (-1))

/-- A failed decoding is reported, the log buffer is then a block that has not been freed
and has the front of before, and nothing else but a missing parameter is reported as a
failure. -/
structure ReportsFailures (fmt : List UInt8) (paramList startPos : Nat) (output : Output) :
    Prop where
  reported : ∀ state, IsHead libc passes message fmt paramList startPos output state →
    FailsAt libc passes message state →
      let ended := processFmt libc passes fmt message paramList output startPos
      let growths := ended.1.growths libc passes
      returned ended.1 ended.2 = some (-1) ∧
        Kept libc startPos growths output ended.1.output ∧
        growths.getLast? ∉ freed growths
  onlyFailed :
    let ended := processFmt libc passes fmt message paramList output startPos
    returned ended.1 ended.2 = some (-1) →
      (∃ state, IsHead libc passes message fmt paramList startPos output state ∧
        FailsAt libc passes message state) ∨
      message.numParams < conversionsIn (cString fmt)

/-- While the log buffer is the first one: what a pass stores comes behind the start
position if at least as many characters have been printed as strings have failed, and ends
in the address space. Two characters more are taken away when `snprintf` fails. -/
structure Ahead (fmt : List UInt8) (startPos : Nat) (state : FmtState) : Prop where
  literal : state.literal ≠ none →
    0 ≤ state.printed libc fmt ∧ startPos + state.printed libc fmt < 2 ^ 64
  call : ∀ call, Makes libc message state call → call.prints libc = true →
    0 ≤ state.printed libc fmt ∧
      startPos + state.printed libc fmt + 2 * (call.text libc).length + 1 < 2 ^ 64
  shrinks : ∀ call, Makes libc message state call → call.isString = false →
    call.snprintfFails libc = true → call.replacement libc ≠ none →
      2 ≤ state.printed libc fmt

/-- What is stored at a position of the log buffer in the pass from a loop head lies
behind the front. -/
structure Spares (front position : Nat) (state : FmtState) : Prop where
  literal : state.literal ≠ none → front ≤ position
  call : ∀ call, Makes libc message state call → call.prints libc = true →
    call.Clear libc front position

/-- Where the cursor, which counts from the first log buffer, is in the one of now. -/
def FmtState.place (fmt : List UInt8) (startPos : Nat) (output : Output)
    (state : FmtState) : Nat :=
  ((output.logBuffer + startPos + state.printed libc fmt - state.output.logBuffer) %
    2 ^ 64).toNat

/-- A pass spares the front: before the first growth enough is printed, and behind it the
stale cursor misses the front of the new block. -/
structure SparesFront (fmt : List UInt8) (startPos : Nat) (output : Output)
    (state : FmtState) : Prop where
  ahead : state.growths libc passes = [] → Ahead libc message fmt startPos state
  misses : state.growths libc passes ≠ [] →
    Spares libc message startPos (state.place libc fmt startPos output) state

/-- If a decoding fails, every pass of the run spares the front. -/
def FrontSpared (fmt : List UInt8) (paramList startPos : Nat) (output : Output) : Prop :=
  ∀ failing, IsHead libc passes message fmt paramList startPos output failing →
    FailsAt libc passes message failing →
      ∀ state, IsHead libc passes message fmt paramList startPos output state →
        SparesFront libc passes message fmt startPos output state

/-- No line has a length that looks like a failure when it is returned as an `int`. -/
def EndsApart (fmt : List UInt8) (paramList startPos : Nat) (output : Output) : Prop :=
  ∀ state, IsHead libc passes message fmt paramList startPos output state →
    state.rest = [] → toInt (wrappingSub state.output.length state.output.reserved) ≠ -1

/-- What leaves the loop: a parameter that is no string is refused memory, or there is
no parameter for a conversion. -/
inductive Leaves (state : FmtState) : Prop
  | refused {call : Call} {output : Output} : Makes libc message state call →
      call.isString = false → call.run libc passes = (output, some (-1)) → Leaves state
  | noParam {conversion fmtSingle : List UInt8} : state.conversion = some conversion →
      (copyConversion libc conversion state.output).2 = some fmtSingle →
      message.numParams ≤ state.paramIdx → Leaves state

/-- No string fails, or the run comes to something else that leaves the loop. -/
def StringsServed (fmt : List UInt8) (paramList startPos : Nat) (output : Output) : Prop :=
  ∀ state, IsHead libc passes message fmt paramList startPos output state →
    ∀ call, Makes libc message state call → call.stringFails libc = true →
      ∃ last, IsHead libc passes message fmt paramList startPos output last ∧
        Leaves libc passes message last

/-- What makes failures reported. -/
structure Reportable (fmt : List UInt8) (paramList startPos : Nat) (output : Output) :
    Prop where
  strings : StringsServed libc passes message fmt paramList startPos output
  ends : EndsApart libc passes message fmt paramList startPos output
  spares : FrontSpared libc passes message fmt paramList startPos output

end Reports

section Runs

variable {libc : Libc} {passes : Nat} {message : Message} {fmt : List UInt8}
  {paramList startPos front : Nat} {output : Output} {state : FmtState} {call : Call}

/-! ### What leaves the loop -/

/-- The pass that makes a call ends with what the call has returned. -/
theorem Makes.turn (makes : Makes libc message state call) :
    ∃ asked behind, call.output = state.output.counted asked ∧
      fmtPass libc passes message state =
        FmtState.behindCall message behind call
          { state with output := state.output.counted asked } (call.run libc passes) := by
  have turn := fmtPass_turn libc passes message state
  have noCall : state.calls ≠ state.calls ++ [call] := by simp
  rw [makes_iff libc passes] at makes
  generalize given : fmtPass libc passes message state = result at makes turn
  cases turn with
  | finished _ => exact absurd makes noCall
  | literal _ => exact absurd makes noCall
  | crashed _ => exact absurd makes noCall
  | noParam _ _ _ => exact absurd makes noCall
  | @called asked fmtSingle behind made _ _ _ _ own =>
      rw [behindCall_calls] at makes
      have same : made = call := List.singleton_inj.mp (List.append_cancel_left makes)
      subst same
      exact ⟨asked, behind, by rw [own]; rfl, rfl⟩

/-- The loop is left with a failure just if something leaves it. -/
theorem leaves_iff :
    (fmtPass libc passes message state).2 = .failed ↔
      Leaves libc passes message state := by
  constructor
  · intro failed
    have turn := fmtPass_turn libc passes message state
    generalize given : fmtPass libc passes message state = result at failed turn
    cases turn with
    | finished _ => cases failed
    | literal _ => cases failed
    | crashed _ => cases failed
    | noParam found copied missing => exact .noParam found copied missing
    | @called asked fmtSingle behind made _ _ _ makes _ =>
        rcases behindCall_failed failed with ⟨nonString, decoded, ran⟩
        exact .refused makes nonString ran
  · intro leaves
    cases leaves with
    | refused makes nonString run =>
        rcases makes.turn with ⟨asked, behind, _, taken⟩
        rw [taken, run, FmtState.behindCall, if_pos ⟨nonString, rfl⟩]
    | @noParam conversion fmtSingle found copied missing =>
        have turn := fmtPass_turn libc passes message state
        generalize fmtPass libc passes message state = result at turn
        cases turn with
        | finished ended => simp [FmtState.conversion, ended] at found
        | literal literal =>
            rw [(conversion_eq_some found).1] at literal
            cases literal
        | crashed none =>
            rw [none conversion found] at copied
            cases copied
        | noParam _ _ _ => rfl
        | called hasParam _ _ _ _ => exact absurd hasParam (Nat.not_lt.mpr missing)

/-! ### The front of the log buffer -/

theorem kept_counted (within : front ≤ output.length) (asked : Nat) :
    Kept libc front [] output (output.counted asked) :=
  .of_same within (Nat.le_add_right _ _) rfl rfl rfl

theorem kept_behindCall {growths : List Nat} {before : Output} {behind : List UInt8}
    {result : Output × Option Int} (kept : Kept libc front growths before result.1) :
    Kept libc front growths before
      (state.behindCall message behind call result).1.output := by
  rcases result with ⟨decoded, none | logFmtLen⟩
  · exact kept
  · simp only [FmtState.behindCall]
    split
    · exact kept
    · exact kept.onwards (.of_same kept.within (Nat.le_refl _) rfl rfl rfl)

theorem growths_behindCall {behind : List UInt8} {result : Output × Option Int} :
    (state.behindCall message behind call result).1.growths libc passes =
      state.growths libc passes ++ call.growths libc passes := by
  rw [FmtState.growths, behindCall_calls, List.flatMap_append, List.flatMap_singleton]
  rfl

/-- The length that is asked for when the free space begins at a position. -/
theorem growth_at {position needed length reserved : Nat}
    (free : (reserved : Int) = (length - position) % 2 ^ 64) :
    wrappingSub ((needed + length) % 2 ^ 64) reserved = (position + needed) % 2 ^ 64 := by
  rcases wrappingSub_spec ((needed + length) % 2 ^ 64) reserved with
    ⟨_, equal⟩ | ⟨_, equal⟩ <;> omega

/-- As long as there is no growth, printing enough spares the front. -/
theorem Ahead.spares (ahead : Ahead libc message fmt startPos state)
    (fits : output.length < 2 ^ 64) (start : startPos ≤ output.length)
    (head : IsHead libc passes message fmt paramList startPos output state)
    (noGrowth : state.growths libc passes = []) :
    Spares libc message startPos (state.place libc fmt startPos output) state := by
  rcases head_unmoved fits start head noGrowth with ⟨logBuffer, length, reserved⟩
  have place : state.place libc fmt startPos output =
      ((startPos + state.printed libc fmt) % 2 ^ 64).toNat := by
    rw [FmtState.place, logBuffer]
    congr 2
    omega
  rw [place]
  constructor
  · intro literal
    have printed := ahead.literal literal
    omega
  · intro call makes prints
    have printed := ahead.call call makes prints
    have same := makes.callAt.place
    have sameLength := same.length.trans length
    have sameReserved := same.reserved
    refine ⟨by omega, by omega, ?_, ?_⟩
    · intro given
      have free : (call.output.reserved : Int) = (call.output.length -
          (startPos + state.printed libc fmt).toNat) % 2 ^ 64 := by
        rw [sameReserved, reserved, sameLength]
        congr 1
        omega
      rw [Call.newLength, growth_at free]
      cases snprintfFails : call.snprintfFails libc with
      | true =>
          have enough := ahead.shrinks call makes
          rw [Call.fmtLen_of_fails snprintfFails]
          cases isString : call.isString with
          | true =>
              rw [if_pos rfl]
              omega
          | false =>
              have two := enough isString snprintfFails given
              rw [if_neg Bool.false_ne_true]
              omega
      | false =>
          rw [Call.fmtLen_of_succeeds snprintfFails]
          split <;> omega
    · intro given nonString snprintfFails
      have shrinks := ahead.shrinks call makes nonString snprintfFails given
      omega

/-- The cursor is where it has been moved to. -/
theorem place_eq (head : IsHead libc passes message fmt paramList startPos output state)
    (placed : state.output.logBuffer < 2 ^ 64) :
    state.place libc fmt startPos output =
      wrappingSub state.logPos state.output.logBuffer := by
  have logPos := head_logPos head
  rw [FmtState.place]
  rcases wrappingSub_spec state.logPos state.output.logBuffer with
    ⟨_, equal⟩ | ⟨_, equal⟩ <;> omega

/-- A pass that spares the front keeps it. -/
theorem Spares.kept
    (spares : Spares libc message front
      (wrappingSub state.logPos state.output.logBuffer) state)
    (pointers : libc.Pointers) (placed : output.logBuffer < 2 ^ 64)
    (kept : Kept libc front (state.growths libc passes) output state.output) :
    let after := (fmtPass libc passes message state).1
    Kept libc front (after.growths libc passes) output after.output := by
  have here := kept.placed pointers placed
  have turn := fmtPass_turn libc passes message state
  generalize fmtPass libc passes message state = result at turn
  cases turn with
  | finished _ => exact kept
  | @literal c rest literal =>
      have behind := spares.literal (by simp [literal])
      have stored := slice_putChar_spared state.output.heap c behind
      exact kept.onwards (.of_same kept.within (Nat.le_refl _) rfl rfl stored)
  | crashed _ => exact kept.onwards (kept_counted kept.within _)
  | noParam _ _ _ => exact kept.onwards (kept_counted kept.within _)
  | @called asked fmtSingle behind made _ _ _ makes own =>
      have handed : made.output = state.output.counted asked := by
        rw [own]
        rfl
      have clear := spares.call made makes
      rw [← makes.callAt.startPos] at clear
      have ran := made.run_kept pointers passes clear
        (by rw [handed]; exact here) (by rw [handed]; exact kept.within)
      rw [handed] at ran
      simp only [growths_behindCall]
      exact kept_behindCall ((kept.onwards (kept_counted kept.within asked)).trans ran)

theorem SparesFront.kept (spares : SparesFront libc passes message fmt startPos output state)
    (pointers : libc.Pointers) (placed : output.logBuffer < 2 ^ 64)
    (fits : output.length < 2 ^ 64) (start : startPos ≤ output.length)
    (head : IsHead libc passes message fmt paramList startPos output state)
    (kept : Kept libc startPos (state.growths libc passes) output state.output) :
    let after := (fmtPass libc passes message state).1
    Kept libc startPos (after.growths libc passes) output after.output := by
  have atPlace : Spares libc message startPos (state.place libc fmt startPos output) state := by
    by_cases noGrowth : state.growths libc passes = []
    · exact (spares.ahead noGrowth).spares fits start head noGrowth
    · exact spares.misses noGrowth
  rw [place_eq head (kept.placed pointers placed)] at atPlace
  exact atPlace.kept pointers placed kept

/-- Passes that spare the front keep it, up to every loop head. -/
theorem head_kept (pointers : libc.Pointers) (placed : output.logBuffer < 2 ^ 64)
    (fits : output.length < 2 ^ 64) (start : startPos ≤ output.length)
    (spares : ∀ state, IsHead libc passes message fmt paramList startPos output state →
      SparesFront libc passes message fmt startPos output state)
    (head : IsHead libc passes message fmt paramList startPos output state) :
    Kept libc startPos (state.growths libc passes) output state.output := by
  induction head with
  | initial entered =>
      cases entered
      exact .of_same start (Nat.le_refl _) rfl rfl rfl
  | step earlier taken induction =>
      have passed := (spares _ earlier).kept pointers placed fits start earlier induction
      rw [taken] at passed
      exact passed

/-! ### The end of the loop -/

/-- The parameters that are taken are counted by the conversions that are passed. -/
theorem head_conversions
    (head : IsHead libc passes message fmt paramList startPos output state) :
    state.paramIdx + conversionsIn state.rest = conversionsIn (cString fmt) := by
  induction head with
  | initial entered =>
      cases entered
      exact Nat.zero_add _
  | step _ taken induction =>
      rcases fmtPass_running taken with ⟨c, rest, literal, rfl⟩ | ⟨counted, _, next⟩
      · rw [conversionsIn, countIn_of_literal 0 1 literal] at induction
        exact induction
      · omega

theorem behindCall_ne_finished {behind : List UInt8} {result : Output × Option Int} :
    (state.behindCall message behind call result).2 ≠ .finished := by
  rcases result with ⟨decoded, none | logFmtLen⟩
  · simp [FmtState.behindCall]
  · simp only [FmtState.behindCall]
    split <;> simp

theorem fmtPass_finished {final : FmtState}
    (taken : fmtPass libc passes message state = (final, .finished)) :
    state.rest = [] ∧ final = state := by
  have turn := fmtPass_turn libc passes message state
  rw [taken] at turn
  generalize given : (final, Progress.finished) = result at turn
  cases turn with
  | finished ended =>
      cases given
      exact ⟨ended, rfl⟩
  | literal _ => cases given
  | crashed _ => cases given
  | noParam _ _ _ => cases given
  | called _ _ _ _ => exact absurd (congrArg Prod.snd given).symm behindCall_ne_finished

/-- What is returned as -1 is a failure, unless it is the length of a line. -/
theorem failed_of_returned
    (ends : EndsApart libc passes message fmt paramList startPos output) :
    let ended := processFmt libc passes fmt message paramList output startPos
    returned ended.1 ended.2 = some (-1) → ended.2 = .failed := by
  intro ended given
  rcases run : ended with ⟨final, progress⟩
  rw [run] at given
  cases progress with
  | finished =>
      have looped : fmtLoop libc passes message ((cString fmt).length + 1)
          (FmtState.enter fmt paramList startPos output) = (final, .finished) := run
      rcases fmtLoop_ended (.initial rfl) looped (by simp) with ⟨last, head, taken⟩
      rcases fmtPass_finished taken with ⟨atEnd, rfl⟩
      exact absurd (Option.some.inj given) (ends _ head atEnd)
  | failed => rfl
  | running => cases given
  | retrying => cases given
  | crashed => cases given

/-- What has left the loop with a failure. -/
theorem leaves_of_failed
    (failed : (processFmt libc passes fmt message paramList output startPos).2 = .failed) :
    ∃ last, IsHead libc passes message fmt paramList startPos output last ∧
      Leaves libc passes message last := by
  rcases run : processFmt libc passes fmt message paramList output startPos with
    ⟨final, progress⟩
  rw [run] at failed
  cases failed
  have looped : fmtLoop libc passes message ((cString fmt).length + 1)
      (FmtState.enter fmt paramList startPos output) = (final, .failed) := run
  rcases fmtLoop_ended (.initial rfl) looped (by simp) with ⟨last, head, taken⟩
  exact ⟨last, head, leaves_iff.mp (by rw [taken])⟩

theorem onlyFailed_of_ends
    (ends : EndsApart libc passes message fmt paramList startPos output) :
    let ended := processFmt libc passes fmt message paramList output startPos
    returned ended.1 ended.2 = some (-1) →
      (∃ state, IsHead libc passes message fmt paramList startPos output state ∧
        FailsAt libc passes message state) ∨
      message.numParams < conversionsIn (cString fmt) := by
  intro ended given
  rcases leaves_of_failed (failed_of_returned ends given) with ⟨last, head, leaves⟩
  cases leaves with
  | refused makes _ run => exact .inl ⟨last, head, _, _, makes, run⟩
  | noParam found _ missing =>
      have total := head_conversions head
      have counted := (conversion_eq_some found).2
      exact .inr (by omega)

/-- With a parameter for each conversion of the format, a -1 means that a decoding has
failed. -/
theorem failsAt_of_accepted {pieces : List Piece} (spells : Spells pieces fmt)
    (accepted : countFmtParams fmt = .ok message.numParams)
    (ends : EndsApart libc passes message fmt paramList startPos output) :
    let ended := processFmt libc passes fmt message paramList output startPos
    returned ended.1 ended.2 = some (-1) →
      ∃ state, IsHead libc passes message fmt paramList startPos output state ∧
        FailsAt libc passes message state := by
  intro ended given
  rcases onlyFailed_of_ends ends given with failed | missing
  · exact failed
  · have seen := (conversions_visible_isPrefix pieces).length_le
    have total := length_conversions_le pieces
    rw [countFmtParams_spelled spells] at accepted
    have counted := Except.ok.inj accepted
    rw [conversionsIn_of_spells (spells_visible spells)] at missing
    omega

theorem ended_of_failed {last : FmtState}
    (head : IsHead libc passes message fmt paramList startPos output last)
    (left : (fmtPass libc passes message last).2 = .failed) :
    processFmt libc passes fmt message paramList output startPos =
      fmtPass libc passes message last :=
  fmtLoop_of_left head (by rw [left]; simp)

/-- A failed decoding is one of a string, or it leaves the loop. -/
theorem FailsAt.cases (fails : FailsAt libc passes message state) :
    (∃ call, Makes libc message state call ∧ call.stringFails libc = true) ∨
      Leaves libc passes message state := by
  rcases fails with ⟨call, after, makes, run⟩
  cases isString : call.isString with
  | false => exact .inr (.refused makes isString run)
  | true =>
      exact .inl ⟨call, makes, (run_failed_iff isString).mp (congrArg Prod.snd run)⟩

theorem Reportable.reports (pointers : libc.Pointers) (placed : output.logBuffer < 2 ^ 64)
    (fits : output.length < 2 ^ 64) (start : startPos ≤ output.length)
    (reportable : Reportable libc passes message fmt paramList startPos output) :
    ReportsFailures libc passes message fmt paramList startPos output where
  reported := by
    intro state head fails
    have spares := reportable.spares state head fails
    have leaving : ∃ last, IsHead libc passes message fmt paramList startPos output last ∧
        Leaves libc passes message last := by
      rcases fails.cases with ⟨call, makes, string⟩ | leaves
      · exact reportable.strings state head call makes string
      · exact ⟨state, head, leaves⟩
    rcases leaving with ⟨last, lastHead, leaves⟩
    have left := leaves_iff.mpr leaves
    have kept := (spares last lastHead).kept pointers placed fits start lastHead
      (head_kept pointers placed fits start spares lastHead)
    simp only [ended_of_failed lastHead left]
    refine ⟨?_, kept, kept.live⟩
    rw [left]
    rfl
  onlyFailed := onlyFailed_of_ends reportable.ends

/-- Failures are reported if every string is served or its failure is followed by
another one, no line looks like a failure, and the passes spare the front. They are
reported only if strings are served so, once the other two are given. -/
theorem reportsFailures_iff (pointers : libc.Pointers)
    (placed : output.logBuffer < 2 ^ 64) (fits : output.length < 2 ^ 64)
    (start : startPos ≤ output.length) :
    (Reportable libc passes message fmt paramList startPos output →
      ReportsFailures libc passes message fmt paramList startPos output) ∧
    (EndsApart libc passes message fmt paramList startPos output →
      FrontSpared libc passes message fmt paramList startPos output →
      (ReportsFailures libc passes message fmt paramList startPos output ↔
        Reportable libc passes message fmt paramList startPos output)) := by
  refine ⟨Reportable.reports pointers placed fits start, ?_⟩
  intro ends spares
  refine ⟨?_, Reportable.reports pointers placed fits start⟩
  intro reports
  refine ⟨?_, ends, spares⟩
  intro state head call makes fails
  have isString : call.isString = true := by
    cases isString : call.isString with
    | true => rfl
    | false => simp [Call.stringFails, Call.fails, isString] at fails
  have run : (call.run libc passes).2 = some (-1) := (run_failed_iff isString).mpr fails
  have failsAt : FailsAt libc passes message state := ⟨call, _, makes, Prod.ext rfl run⟩
  exact leaves_of_failed (failed_of_returned ends (reports.reported state head failsAt).1)

end Runs

/-! ## A number and a string that there is no memory for -/

namespace Boundary

/-- The C library of a process that has no memory left. -/
def exhausted : Libc := { libc with malloc := fun _ _ => none }

theorem pointers_exhausted : exhausted.Pointers := by
  intro count size address given
  cases given

/-- The C library of a process that has memory for one more block. -/
def spent : Libc :=
  { libc with malloc := fun count _ => if count = 0 then some (2 ^ 32) else none }

theorem pointers_spent : spent.Pointers := by
  intro count size address given
  simp only [spent] at given
  split at given
  · cases given
    decide
  · cases given

/-- A message with the string `four` and the number 7. -/
def pairMessage : Message where
  numParams := 2
  paramTypes := [.stringWithNoPrecision, .nonString]
  paramSizes := [4, 4]
  params := param (LittleEndian.bytes 4 4 ++ ascii "four" ++ [7, 0, 0, 0])

/-- The first loop head: the string does not fit. -/
def first : FmtState := FmtState.enter (ascii "%s%d") 0 2 (output 3)

/-- The second one, in a larger buffer: there is no memory for the number. -/
def second : FmtState := (fmtPass spent 2 pairMessage first).1

theorem heads_pair {state : FmtState}
    (head : IsHead spent 2 pairMessage (ascii "%s%d") 0 2 (output 3) state) :
    state = first ∨ state = second := by
  rcases heads_reachable_iff.mp head with rfl | ⟨_, taken, later⟩
  · exact .inl rfl
  · have behind : _ = second := (congrArg Prod.fst taken).symm
    subst behind
    rcases heads_reachable_iff.mp later with rfl | ⟨_, again, _⟩
    · exact .inr rfl
    · have left : (fmtPass spent 2 pairMessage second).2 = .failed := by decide +kernel
      rw [again] at left
      cases left

theorem second_head :
    IsHead spent 2 pairMessage (ascii "%s%d") 0 2 (output 3) second := by
  have running : (fmtPass spent 2 pairMessage first).2 = .running := by decide +kernel
  exact heads_next (.initial rfl) (Prod.ext rfl running)

theorem leaves_second : Leaves spent 2 pairMessage second :=
  leaves_iff.mp (by decide +kernel)

theorem failsAt_second : FailsAt spent 2 pairMessage second := by
  rcases leaves_second with ⟨makes, _, run⟩ | ⟨_, _, missing⟩
  · exact ⟨_, _, makes, run⟩
  · exact absurd missing (by decide +kernel)

theorem endsApart_pair :
    EndsApart spent 2 pairMessage (ascii "%s%d") 0 2 (output 3) := by
  intro state head
  rcases heads_pair head with rfl | rfl <;> decide +kernel

theorem frontSpared_pair :
    FrontSpared spent 2 pairMessage (ascii "%s%d") 0 2 (output 3) := by
  intro _ _ _ state head
  rcases heads_pair head with rfl | rfl
  · refine ⟨fun _ => ⟨by decide, ?_, ?_⟩, fun grown => absurd rfl grown⟩
    · show ∀ call ∈ first.upcoming spent pairMessage, _
      decide +kernel
    · show ∀ call ∈ first.upcoming spent pairMessage, _
      decide +kernel
  · refine ⟨fun unmoved => absurd unmoved (by decide +kernel), fun _ => ⟨by decide +kernel, ?_⟩⟩
    have clear : ∀ call ∈ second.upcoming spent pairMessage,
        2 ≤ second.place spent (ascii "%s%d") 2 (output 3) ∧
          second.place spent (ascii "%s%d") 2 (output 3) + 2 * (call.text spent).length + 1 ≤
            2 ^ 64 ∧
          call.replacement spent = none := by
      decide +kernel
    intro call makes _
    rcases clear call makes with ⟨behind, room, kept⟩
    exact ⟨behind, room, fun given => absurd kept given, fun given => absurd kept given⟩

theorem stringsServed_pair :
    StringsServed spent 2 pairMessage (ascii "%s%d") 0 2 (output 3) := by
  intro _ _ _ _ _
  exact ⟨_, second_head, leaves_second⟩

/-- The call for `%s` when there are three bytes left behind two characters. -/
def fourCall : Call where
  isString := true
  fmt := ascii "%s"
  paramIdx := 0
  cursor := 0
  value := ascii "four"
  startPos := 2
  output := output 3

end Boundary

/-- Behind a string that has made the buffer grow a number that there is no memory for is
reported. -/
theorem reportsFailures_pair :
    FailsAt Boundary.spent 2 Boundary.pairMessage Boundary.second ∧
      ReportsFailures Boundary.spent 2 Boundary.pairMessage (ascii "%s%d") 0 2
        (Boundary.output 3) :=
  ⟨Boundary.failsAt_second,
    ((reportsFailures_iff Boundary.pointers_spent (by decide) (by decide) (by decide)).2
      Boundary.endsApart_pair Boundary.frontSpared_pair).mpr
      ⟨Boundary.stringsServed_pair, Boundary.endsApart_pair, Boundary.frontSpared_pair⟩⟩

/-- Behind a string that there is no memory for formatting goes on, one byte too early. -/
theorem not_reportsFailures_four :
    Format.countFmtParams (ascii "%s!") = .ok (Boundary.message (ascii "four")).numParams ∧
      Boundary.exhausted.Pointers ∧ (Boundary.output 3).Placed ∧
      ¬ReportsFailures Boundary.exhausted 2 (Boundary.message (ascii "four"))
        (ascii "%s!") 0 2 (Boundary.output 3) := by
  refine ⟨by decide, Boundary.pointers_exhausted, Boundary.placed, ?_⟩
  intro reports
  have failsAt : FailsAt Boundary.exhausted 2 (Boundary.message (ascii "four"))
      (FmtState.enter (ascii "%s!") 0 2 (Boundary.output 3)) :=
    ⟨Boundary.fourCall, _, rfl, Prod.ext rfl (by decide)⟩
  have reported := (reports.reported _ (.initial rfl) failsAt).1
  revert reported
  decide

end StaticLog.Decoding
