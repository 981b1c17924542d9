import StaticLog.Decoding.LoopHeads

/-! # What a call of a decoding function can come to

Told from the record of the call: its text, whether that fits, whether `snprintf` fails,
and what `malloc` has to offer. A call that asks for a larger buffer and gets a block puts
this block in place of the log buffer; every other call leaves the buffer where it is. -/

namespace StaticLog.Decoding

namespace Call

/-- There is no memory for the copy of the parameter of a string. -/
def unserved (libc : Libc) (call : Call) : Bool :=
  call.isString && paramBufferFails libc call.value.length call.output

/-- The length that is asked for when the text does not fit. -/
def newLength (libc : Libc) (call : Call) : Nat :=
  let fmtLen := call.fmtLen libc
  wrappingSub
    (((if call.isString then fmtLen + 1 else 2 * fmtLen) + call.output.length) % 2 ^ 64)
    call.output.reserved

/-- What `malloc` gives when the text does not fit. -/
def allocation (libc : Libc) (call : Call) : Option Nat :=
  libc.malloc
    (if call.isString then (call.output.withParamBuffer call.value.length).mallocs
      else call.output.mallocs)
    (call.newLength libc)

/-- The block that is put in place of the log buffer, if the call does that. -/
def replacement (libc : Libc) (call : Call) : Option Nat :=
  if call.grows libc && !call.unserved libc then call.allocation libc else none

/-- A string for which memory is missing: the call returns -1. -/
def fails (libc : Libc) (call : Call) : Bool :=
  call.isString &&
    (call.unserved libc || (call.grows libc && (call.allocation libc).isNone))

/-- The call leaves the log buffer alone, or it is one that never returns a length: it is
for no string, and `snprintf` fails or has nothing to print. -/
def Keeps (libc : Libc) (call : Call) : Prop :=
  call.replacement libc = none ∨
    call.isString = false ∧ (call.snprintfFails libc = true ∨ call.text libc = [])

/-- The result of a call. -/
inductive Outcome (libc : Libc) (call : Call) : Output × Option Int → Prop
  | kept {output : Output} {length : Nat} : call.Keeps libc → call.fails libc = false →
      call.snprintfFails libc = false → call.output.SamePlace output →
      length ≤ call.output.reserved → Outcome libc call (output, some length)
  | failed {output : Output} : call.Keeps libc → call.fails libc = true →
      call.output.SamePlace output → Outcome libc call (output, some (-1))
  | left {output : Output} : call.Keeps libc → call.isString = false →
      SameLength libc call.output output →
      Outcome libc call (output, some (-1))
  | endless {output : Output} : call.Keeps libc → call.isString = false →
      Outcome libc call (output, none)
  /-- `snprintf` fails for a parameter that is no string. -/
  | abandoned {output : Output} {ret : Option Int} : call.isString = false →
      call.snprintfFails libc = true → Fruitless ret →
      (call.allocation libc = none → call.output.SamePlace output) →
      Outcome libc call (output, ret)
  /-- `snprintf` fails for a string, and there is memory for the buffer asked for. -/
  | misprinted {output : Output} : call.isString = true →
      call.snprintfFails libc = true → call.replacement libc = some output.logBuffer →
      output.length = call.startPos → output.reserved = 0 →
      Outcome libc call (output, some (-1))
  | replaced {output : Output} : call.text libc ≠ [] →
      call.snprintfFails libc = false →
      call.output.reserved ≤ (call.text libc).length →
      call.replacement libc = some output.logBuffer →
      output.length = call.newLength libc →
      call.startPos + output.reserved = output.length →
      (call.text libc).length < output.reserved →
      output.reserved ≤ 2 * (call.text libc).length →
      Outcome libc call (output, some (call.text libc).length)

theorem text_length_le (libc : Libc) (call : Call) :
    (call.text libc).length ≤ Format.intMax := by
  rw [text]
  split
  · exact libc.render_fits _ _
  · split
    · exact Nat.zero_le _
    · exact libc.render_fits _ _

/-- What `snprintf` returns when it does not fail. -/
theorem fmtLen_of_succeeds {libc : Libc} {call : Call}
    (succeeds : call.snprintfFails libc = false) :
    call.fmtLen libc = (call.text libc).length := by
  cases isString : call.isString with
  | true =>
      simp only [snprintfFails, isString, if_true] at succeeds
      simp only [fmtLen, text, isString, if_true, libc.fmtLen_of_succeeds succeeds]
  | false =>
      simp only [snprintfFails, fmtLen, text, isString, Bool.false_eq_true, if_false]
        at succeeds ⊢
      cases selected : selectBranch call.value.length (call.fmt.getLastD 0) call.value with
      | none => rfl
      | some branch =>
          rw [selected] at succeeds
          exact libc.fmtLen_of_succeeds succeeds

theorem fmtLen_of_fails {libc : Libc} {call : Call} (fails : call.snprintfFails libc = true) :
    call.fmtLen libc = 2 ^ 64 - 1 := by
  cases isString : call.isString with
  | true =>
      simp only [snprintfFails, isString, if_true] at fails
      simp only [fmtLen, isString, if_true, libc.fmtLen_of_fails fails]
  | false =>
      simp only [snprintfFails, fmtLen, isString, Bool.false_eq_true, if_false] at fails ⊢
      cases selected : selectBranch call.value.length (call.fmt.getLastD 0) call.value with
      | none =>
          rw [selected] at fails
          cases fails
      | some branch =>
          rw [selected] at fails
          exact libc.fmtLen_of_fails fails

theorem fails_of_nonString {libc : Libc} {call : Call} (nonString : call.isString = false) :
    call.fails libc = false := by
  rw [fails, nonString]
  rfl

/-- A call that fails has no block to put in place of the log buffer. -/
theorem replacement_of_fails {libc : Libc} {call : Call} (fails : call.fails libc = true) :
    call.replacement libc = none := by
  simp only [Call.fails, Bool.and_eq_true, Bool.or_eq_true, Option.isNone_iff_eq_none]
    at fails
  rcases fails.2 with unserved | ⟨_, refused⟩
  · simp [replacement, unserved]
  · rw [replacement, refused]
    split <;> rfl

theorem keeps_of_not_grows {libc : Libc} {call : Call} (fits : call.grows libc = false) :
    call.Keeps libc := by
  left
  rw [replacement, fits]
  rfl

theorem keeps_of_refused {libc : Libc} {call : Call}
    (refused : call.allocation libc = none) : call.Keeps libc := by
  left
  rw [replacement, refused]
  split <;> rfl

end Call

variable {libc : Libc} {passes : Nat} {call : Call}

/-! ## Strings -/

section Strings

variable (isString : call.isString = true)
include isString

theorem text_of_string :
    call.text libc = libc.render call.fmt (.string (cString call.value)) := by
  rw [Call.text, if_pos isString]

theorem fmtLen_of_string :
    call.fmtLen libc = libc.fmtLen call.fmt (.string (cString call.value)) := by
  rw [Call.fmtLen, if_pos isString]

theorem snprintfFails_of_string :
    call.snprintfFails libc = libc.fails call.fmt (.string (cString call.value)) := by
  rw [Call.snprintfFails, if_pos isString]

theorem grows_of_string :
    call.grows libc = decide (call.output.reserved < call.fmtLen libc) := by
  rw [Call.grows, if_pos isString]

theorem newLength_of_string (free : call.output.FreeFrom call.startPos)
    (succeeds : call.snprintfFails libc = false) :
    call.newLength libc = call.startPos + (call.text libc).length + 1 := by
  simp only [Call.newLength, isString, if_true, Call.fmtLen_of_succeeds succeeds]
  exact stringGrowth free (call.text_length_le libc)

/-- What is asked for behind a failure of `snprintf`. -/
theorem newLength_of_failedString (free : call.output.FreeFrom call.startPos)
    (fails : call.snprintfFails libc = true) : call.newLength libc = call.startPos := by
  have sum := free.free
  have small := free.small
  simp only [Call.newLength, isString, if_true, Call.fmtLen_of_fails fails]
  rw [show (2 ^ 64 - 1 + 1 + call.output.length) % 2 ^ 64 = call.output.length by omega,
    wrappingSub_of_le (by omega)]
  omega

theorem allocation_of_string : call.allocation libc =
    libc.malloc (call.output.withParamBuffer call.value.length).mallocs
      (call.newLength libc) := by
  rw [Call.allocation, if_pos isString]

theorem run_of_served (served : call.unserved libc = false) :
    call.run libc passes =
      let printed := printString libc call.startPos call.fmt (.string (cString call.value))
        (call.output.withParamBuffer call.value.length)
      (printed.1, some printed.2) := by
  rw [Call.unserved, isString, Bool.true_and] at served
  simp only [Call.run, isString, served, Bool.false_eq_true, if_true, if_false]

theorem fails_of_grows (grows : call.grows libc = true)
    (refused : call.allocation libc = none) : call.fails libc = true := by
  simp [Call.fails, isString, grows, refused]

/-- A string that does not fit: the buffer is replaced, or there is no memory for that. -/
theorem run_outcome_of_longString (free : call.output.FreeFrom call.startPos)
    (served : call.unserved libc = false) (succeeds : call.snprintfFails libc = false)
    (long : call.output.reserved < (call.text libc).length) :
    call.Outcome libc (call.run libc passes) := by
  have bounded := libc.render_fits call.fmt (.string (cString call.value))
  simp only [Format.intMax] at bounded
  have text : call.text libc = libc.render call.fmt (.string (cString call.value)) :=
    text_of_string isString
  have grows : call.grows libc = true := by
    rw [grows_of_string isString, Call.fmtLen_of_succeeds succeeds]
    exact decide_eq_true long
  have allocation : call.allocation libc =
      libc.malloc (call.output.withParamBuffer call.value.length).mallocs
        (call.startPos + (call.text libc).length + 1) := by
    rw [allocation_of_string isString, newLength_of_string isString free succeeds]
  have same := withParamBuffer_samePlace call.value.length call.output
  have freeCopied := free.withParamBuffer call.value.length
  have printed := succeeds
  rw [snprintfFails_of_string isString] at printed
  rw [run_of_served isString served]
  rw [text] at long allocation
  have longCopied := long
  rw [← same.reserved] at longCopied
  cases allocated : libc.malloc (call.output.withParamBuffer call.value.length).mallocs
      (call.startPos +
        (libc.render call.fmt (.string (cString call.value))).length + 1) with
  | none =>
      rw [allocated] at allocation
      rw [printString_refused freeCopied printed longCopied allocated]
      exact .failed (Call.keeps_of_refused allocation)
        (fails_of_grows isString grows allocation)
        ⟨same.logBuffer, same.length, same.reserved⟩
  | some tmp =>
      rw [allocated] at allocation
      rw [printString_grows freeCopied printed longCopied allocated, toInt_of_lt (by omega)]
      rw [← text] at long ⊢
      apply Call.Outcome.replaced
      · exact List.ne_nil_of_length_pos (by omega)
      · exact succeeds
      · exact Nat.le_of_lt long
      · simp only [Call.replacement, grows, served, allocation, Bool.not_false,
          Bool.and_self, if_true]
      · exact (newLength_of_string isString free succeeds).symm
      · exact (Nat.add_assoc _ _ _).symm
      · exact Nat.lt_succ_self _
      · have twice : (call.text libc).length + 1 ≤ 2 * (call.text libc).length := by omega
        exact twice

/-- A string that `snprintf` fails for: what is in front gets a buffer of its own, or there
is no memory for that. -/
theorem run_outcome_of_failedString (free : call.output.FreeFrom call.startPos)
    (served : call.unserved libc = false) (snprintfFails : call.snprintfFails libc = true) :
    call.Outcome libc (call.run libc passes) := by
  have sum := free.free
  have small := free.small
  have same := withParamBuffer_samePlace call.value.length call.output
  have fails := snprintfFails
  rw [snprintfFails_of_string isString] at fails
  have grows : call.grows libc = true := by
    rw [grows_of_string isString, fmtLen_of_string isString, libc.fmtLen_of_fails fails]
    exact decide_eq_true (by omega)
  have allocation : call.allocation libc =
      libc.malloc (call.output.withParamBuffer call.value.length).mallocs call.startPos := by
    rw [allocation_of_string isString, newLength_of_failedString isString free snprintfFails]
  rw [run_of_served isString served,
    printString_of_fails (free.withParamBuffer call.value.length) fails]
  cases allocated : libc.malloc (call.output.withParamBuffer call.value.length).mallocs
      call.startPos with
  | none =>
      rw [allocated] at allocation
      exact .failed (Call.keeps_of_refused allocation)
        (fails_of_grows isString grows allocation)
        ⟨same.logBuffer, same.length, same.reserved⟩
  | some tmp =>
      rw [allocated] at allocation
      apply Call.Outcome.misprinted isString snprintfFails _ rfl rfl
      simp only [Call.replacement, grows, served, allocation, Bool.not_false, Bool.and_self,
        if_true]

/-- The ways of a call for a string. -/
theorem run_outcome_of_string (free : call.output.FreeFrom call.startPos) :
    call.Outcome libc (call.run libc passes) := by
  have bounded := libc.render_fits call.fmt (.string (cString call.value))
  simp only [Format.intMax] at bounded
  have text : call.text libc = libc.render call.fmt (.string (cString call.value)) :=
    text_of_string isString
  cases served : call.unserved libc with
  | true =>
      have notCopied := served
      rw [Call.unserved, isString, Bool.true_and] at notCopied
      have fails : call.fails libc = true := by
        rw [Call.fails, isString, served]
        rfl
      simp only [Call.run, isString, notCopied, if_true]
      exact .failed (.inl (Call.replacement_of_fails fails)) fails ⟨rfl, rfl, rfl⟩
  | false =>
      cases snprintfFails : call.snprintfFails libc with
      | true => exact run_outcome_of_failedString isString free served snprintfFails
      | false =>
          have needed := Call.fmtLen_of_succeeds snprintfFails
          rcases Nat.lt_or_ge call.output.reserved (call.text libc).length with long | fits
          · exact run_outcome_of_longString isString free served snprintfFails long
          · have grows : call.grows libc = false := by
              rw [grows_of_string isString, needed]
              exact decide_eq_false (Nat.not_lt.mpr fits)
            have succeeds : call.fails libc = false := by
              simp [Call.fails, served, grows]
            have same := withParamBuffer_samePlace call.value.length call.output
            rw [fmtLen_of_string isString] at needed
            have fitsCopied := fits
            rw [← same.reserved, ← needed] at fitsCopied
            rw [run_of_served isString served, printString_fits fitsCopied, needed,
              toInt_of_lt (by rw [text]; omega)]
            exact .kept (Call.keeps_of_not_grows grows) succeeds snprintfFails
              ⟨same.logBuffer, same.length, same.reserved⟩ fits

end Strings

/-! ## Other parameters -/

section NonStrings

variable {branch : Branch} (nonString : call.isString = false)
  (selected : selectBranch call.value.length (call.fmt.getLastD 0) call.value = some branch)
include nonString selected

theorem text_of_nonString : call.text libc = libc.render call.fmt branch.arg := by
  simp only [Call.text, nonString, Bool.false_eq_true, if_false, selected]

theorem fmtLen_of_nonString : call.fmtLen libc = libc.fmtLen call.fmt branch.arg := by
  simp only [Call.fmtLen, nonString, Bool.false_eq_true, if_false, selected]

theorem snprintfFails_of_nonString :
    call.snprintfFails libc = libc.fails call.fmt branch.arg := by
  simp only [Call.snprintfFails, nonString, Bool.false_eq_true, if_false, selected]

theorem grows_of_nonString : call.grows libc =
    (call.snprintfFails libc || decide (call.output.reserved ≤ call.fmtLen libc)) := by
  simp only [Call.grows, nonString, Bool.false_eq_true, if_false, selected,
    Option.isSome_some, Bool.true_and]

theorem newLength_of_nonString : call.newLength libc =
    grownLength (libc.fmtLen call.fmt branch.arg) call.output.length call.output.reserved := by
  simp only [Call.newLength, nonString, Bool.false_eq_true, if_false,
    fmtLen_of_nonString nonString selected, grownLength]

theorem allocation_of_nonString : call.allocation libc =
    libc.malloc call.output.mallocs (grownLength (libc.fmtLen call.fmt branch.arg)
      call.output.length call.output.reserved) := by
  rw [Call.allocation, newLength_of_nonString nonString selected]
  simp only [nonString, Bool.false_eq_true, if_false]

theorem run_of_branch : call.run libc passes =
    retryNonString libc call.startPos call.fmt branch passes call.output := by
  simp only [Call.run, nonString, Bool.false_eq_true, if_false, selected]

/-- `snprintf` fails: the log buffer is replaced over and over, as long as there is
memory. -/
theorem run_outcome_of_failedBranch (free : call.output.FreeFrom call.startPos)
    (enough : 2 ≤ passes) (snprintfFails : call.snprintfFails libc = true) :
    call.Outcome libc (call.run libc passes) := by
  have sum := free.free
  have small := free.small
  have fails := snprintfFails
  rw [snprintfFails_of_nonString nonString selected] at fails
  rw [run_of_branch nonString selected]
  apply Call.Outcome.abandoned nonString snprintfFails
  · exact retryNonString_of_fails fails ⟨by omega, by omega⟩ _ _
  · intro refused
    rw [allocation_of_nonString nonString selected] at refused
    have long : call.output.reserved ≤ libc.fmtLen call.fmt branch.arg := by
      rw [libc.fmtLen_of_fails fails]
      omega
    obtain ⟨more, rfl⟩ : ∃ more, passes = more + 1 := ⟨passes - 1, by omega⟩
    rw [retryNonString_refused long refused]
    exact ⟨rfl, rfl, rfl⟩

/-- Without a text there is nothing to keep the buffer for. -/
theorem run_outcome_of_emptyText (free : call.output.FreeFrom call.startPos)
    (succeeds : call.snprintfFails libc = false) (empty : call.text libc = [])
    (long : call.output.reserved ≤ (call.text libc).length) :
    call.Outcome libc (call.run libc passes) := by
  have sum := free.free
  have small := free.small
  have keeps : call.Keeps libc := .inr ⟨nonString, .inr empty⟩
  have noSpace : call.output.reserved = 0 := by
    rw [empty] at long
    exact Nat.le_zero.mp long
  have needed := Call.fmtLen_of_succeeds succeeds
  rw [fmtLen_of_nonString nonString selected, empty, List.length_nil] at needed
  have stuck : Stuck libc call.startPos call.fmt branch call.output :=
    ⟨needed, noSpace, by omega⟩
  have fruitless := retryNonString_of_stuck (by omega) stuck passes
  rw [run_of_branch nonString selected]
  rcases retried : retryNonString libc call.startPos call.fmt branch passes call.output with
    ⟨output, ret⟩
  rw [retried] at fruitless
  rcases fruitless with ⟨rfl | rfl, same⟩
  · exact .endless keeps nonString
  · exact .left keeps nonString same

/-- A text that does not fit: the buffer is replaced once, or there is no memory for
that. -/
theorem run_outcome_of_longText (free : call.output.FreeFrom call.startPos)
    (enough : 2 ≤ passes) (succeeds : call.snprintfFails libc = false)
    (nonempty : call.text libc ≠ [])
    (long : call.output.reserved ≤ (call.text libc).length) :
    call.Outcome libc (call.run libc passes) := by
  have bounded := libc.render_fits call.fmt branch.arg
  simp only [Format.intMax] at bounded
  have text : call.text libc = libc.render call.fmt branch.arg :=
    text_of_nonString nonString selected
  have grows : call.grows libc = true := by
    rw [grows_of_nonString nonString selected, Call.fmtLen_of_succeeds succeeds,
      decide_eq_true long, Bool.or_true]
  have printed := succeeds
  rw [snprintfFails_of_nonString nonString selected] at printed
  have allocation : call.allocation libc =
      libc.malloc call.output.mallocs
        (call.startPos + 2 * (libc.render call.fmt branch.arg).length) := by
    rw [allocation_of_nonString nonString selected, nonStringGrowth free printed]
  obtain ⟨more, rfl⟩ : ∃ more, passes = more + 2 := ⟨passes - 2, by omega⟩
  rw [run_of_branch nonString selected]
  rw [text] at nonempty long
  cases allocated : libc.malloc call.output.mallocs
      (call.startPos + 2 * (libc.render call.fmt branch.arg).length) with
  | none =>
      rw [allocated] at allocation
      rw [retryNonString_fails free printed long allocated]
      exact .left (Call.keeps_of_refused allocation) nonString ⟨rfl, .inl rfl⟩
  | some buffer =>
      rw [allocated] at allocation
      have served : call.unserved libc = false := by
        rw [Call.unserved, nonString]
        rfl
      have grownFits := fits_grown free printed (List.length_pos_iff.mpr nonempty) buffer
      have grownLength : (call.output.grown libc call.startPos call.fmt branch buffer).length =
          call.startPos + 2 * (libc.render call.fmt branch.arg).length :=
        nonStringGrowth free printed
      have needed := libc.fmtLen_of_succeeds printed
      have fits := grownFits
      rw [← needed] at fits
      rw [retryNonString_again free printed long allocated,
        retryNonString_prints libc more _ _ _ _ fits, needed, toInt_of_lt (by omega)]
      rw [← text] at nonempty long grownFits ⊢
      apply Call.Outcome.replaced nonempty succeeds long
      · simp only [Call.replacement, grows, served, allocation, Bool.not_false,
          Bool.and_self, if_true]
        rfl
      · exact (newLength_of_nonString nonString selected).symm
      · have freeGrown : call.startPos +
            (call.output.grown libc call.startPos call.fmt branch buffer).reserved =
            (call.output.grown libc call.startPos call.fmt branch buffer).length := by
          rw [grownLength, grown_reserved free printed]
        exact freeGrown
      · exact grownFits
      · have twice := Nat.le_of_eq (grown_reserved free printed buffer)
        rw [← text] at twice
        exact twice

/-- A handled conversion: it fits, the buffer is replaced once, or there is no end. -/
theorem run_outcome_of_branch (free : call.output.FreeFrom call.startPos)
    (enough : 2 ≤ passes) : call.Outcome libc (call.run libc passes) := by
  have bounded := libc.render_fits call.fmt branch.arg
  simp only [Format.intMax] at bounded
  have text : call.text libc = libc.render call.fmt branch.arg :=
    text_of_nonString nonString selected
  cases snprintfFails : call.snprintfFails libc with
  | true =>
      exact run_outcome_of_failedBranch nonString selected free enough snprintfFails
  | false =>
      have needed := Call.fmtLen_of_succeeds snprintfFails
      rcases Nat.lt_or_ge (call.text libc).length call.output.reserved with fits | long
      · have grows : call.grows libc = false := by
          rw [grows_of_nonString nonString selected, needed, snprintfFails, Bool.false_or]
          exact decide_eq_false (Nat.not_le.mpr fits)
        obtain ⟨more, rfl⟩ : ∃ more, passes = more + 1 := ⟨passes - 1, by omega⟩
        rw [fmtLen_of_nonString nonString selected] at needed
        have fitsBranch := fits
        rw [← needed] at fitsBranch
        rw [run_of_branch nonString selected,
          retryNonString_prints libc more _ _ _ _ fitsBranch, needed,
          toInt_of_lt (by rw [text]; omega)]
        exact .kept (Call.keeps_of_not_grows grows) (Call.fails_of_nonString nonString)
          snprintfFails ⟨rfl, rfl, rfl⟩ (Nat.le_of_lt fits)
      · by_cases empty : call.text libc = []
        · exact run_outcome_of_emptyText nonString selected free snprintfFails empty long
        · exact run_outcome_of_longText nonString selected free enough snprintfFails empty
            long

end NonStrings

/-- What a call can come to when its position is where the free space begins. -/
theorem run_outcome (free : call.output.FreeFrom call.startPos) (enough : 2 ≤ passes) :
    call.Outcome libc (call.run libc passes) := by
  cases isString : call.isString with
  | true => exact run_outcome_of_string isString free
  | false =>
      cases selected : selectBranch call.value.length (call.fmt.getLastD 0) call.value with
      | none =>
          have run : call.run libc passes = (call.output, some 0) := by
            simp only [Call.run, isString, Bool.false_eq_true, if_false, selected]
          have fits : call.grows libc = false := by
            simp only [Call.grows, isString, Bool.false_eq_true, if_false, selected,
              Option.isSome_none, Bool.false_and]
          have succeeds : call.snprintfFails libc = false := by
            simp only [Call.snprintfFails, isString, Bool.false_eq_true, if_false, selected]
          have kept : call.Outcome libc (call.output, some (0 : Nat)) :=
            .kept (Call.keeps_of_not_grows fits) (Call.fails_of_nonString isString) succeeds
              ⟨rfl, rfl, rfl⟩ (Nat.zero_le _)
          rw [run]
          exact kept
      | some branch => exact run_outcome_of_branch isString selected free enough

end StaticLog.Decoding
