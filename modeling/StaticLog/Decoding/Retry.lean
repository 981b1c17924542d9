import StaticLog.Decoding.Cursor

/-! # When formatting a conversion returns

The retry loop of `decodeNonStringFmt` returns a length in at most three runs, unless
`malloc` refuses a larger buffer, `snprintf` fails, or an empty text is met when the
buffer is exactly full. In the last two cases the buffer is replaced by another one that
is too small, over and over. -/

namespace StaticLog

/-- `malloc` does not fail. -/
def Libc.Allocates (libc : Libc) : Prop := ∀ count size, libc.malloc count size ≠ none

namespace Decoding

variable {libc : Libc} {startPos passes : Nat} {fmt : List UInt8} {branch : Branch}
  {output : Output}

/-- The variables have values of their types. -/
structure Output.InRange (output : Output) : Prop where
  length : output.length < 2 ^ 64
  reserved : output.reserved < 2 ^ 64

/-- The length that is asked for when a text does not fit. -/
def grownLength (fmtLen length reserved : Nat) : Nat :=
  wrappingSub ((2 * fmtLen + length) % 2 ^ 64) reserved

theorem grownLength_lt (fmtLen length reserved : Nat) :
    grownLength fmtLen length reserved < 2 ^ 64 :=
  wrappingSub_lt (Nat.mod_lt _ (by decide))

/-- The variables behind a growth. -/
def Output.grown (libc : Libc) (startPos : Nat) (fmt : List UInt8) (branch : Branch)
    (buffer : Nat) (output : Output) : Output :=
  let newSize := grownLength (libc.fmtLen fmt branch.arg) output.length output.reserved
  { heap := memcpy (output.printed libc startPos fmt branch).heap buffer output.logBuffer
      output.length
    logBuffer := buffer
    length := newSize
    reserved := wrappingSub newSize startPos
    mallocs := output.mallocs + 1 }

/-- A text that does not fit makes the loop start again with a larger buffer. -/
theorem retryNonString_grows (long : output.reserved ≤ libc.fmtLen fmt branch.arg)
    {buffer : Nat}
    (allocated : libc.malloc output.mallocs (grownLength (libc.fmtLen fmt branch.arg)
      output.length output.reserved) = some buffer) (startPos passes : Nat) :
    retryNonString libc startPos fmt branch (passes + 1) output =
      retryNonString libc startPos fmt branch passes
        (output.grown libc startPos fmt branch buffer) := by
  have printed : (snprintf libc output.heap (pointerAdd output.logBuffer startPos)
    (if branch.boundIsReserved then output.reserved else output.length) fmt
    branch.arg).2 = libc.fmtLen fmt branch.arg := rfl
  rw [grownLength] at allocated
  rw [retryNonString]
  simp only [printed, if_pos long, resizeLogBuffer, allocated]
  rfl

theorem retryNonString_refused (long : output.reserved ≤ libc.fmtLen fmt branch.arg)
    (refused : libc.malloc output.mallocs (grownLength (libc.fmtLen fmt branch.arg)
      output.length output.reserved) = none) (startPos passes : Nat) :
    retryNonString libc startPos fmt branch (passes + 1) output =
      ({ output.printed libc startPos fmt branch with mallocs := output.mallocs + 1 },
        some (-1)) := by
  have printed : (snprintf libc output.heap (pointerAdd output.logBuffer startPos)
    (if branch.boundIsReserved then output.reserved else output.length) fmt
    branch.arg).2 = libc.fmtLen fmt branch.arg := rfl
  rw [grownLength] at refused
  rw [retryNonString]
  simp only [printed, if_pos long, resizeLogBuffer, refused]
  rfl

/-! ## Loops that come to no length -/

/-- No length is returned: there is no end, or the result is -1. -/
def Fruitless (result : Option Int) : Prop := result = none ∨ result = some (-1)

/-- A failure of `snprintf` is taken for a text that is longer than any buffer. -/
theorem retryNonString_of_fails (fails : libc.fails fmt branch.arg = true)
    (inRange : output.InRange) (startPos passes : Nat) :
    Fruitless (retryNonString libc startPos fmt branch passes output).2 := by
  induction passes generalizing output with
  | zero => exact .inl rfl
  | succ passes induction =>
      have long : output.reserved ≤ libc.fmtLen fmt branch.arg := by
        have reservedFits := inRange.reserved
        rw [libc.fmtLen_of_fails fails]
        omega
      cases allocated : libc.malloc output.mallocs
          (grownLength (libc.fmtLen fmt branch.arg) output.length output.reserved) with
      | none =>
          rw [retryNonString_refused long allocated]
          exact .inr rfl
      | some buffer =>
          rw [retryNonString_grows long allocated]
          exact induction ⟨grownLength_lt _ _ _, wrappingSub_lt (grownLength_lt _ _ _)⟩

/-- For an empty text in a full buffer the new length is the old one. -/
theorem emptyGrowth {length : Nat} (fits : length < 2 ^ 64) :
    grownLength 0 length 0 = length := by
  rw [grownLength, wrappingSub_zero, Nat.mul_zero, Nat.zero_add, Nat.mod_eq_of_lt fits]

/-- An empty text and no room at all: growing the buffer gains nothing. -/
def Stuck (libc : Libc) (startPos : Nat) (fmt : List UInt8) (branch : Branch)
    (output : Output) : Prop :=
  libc.fmtLen fmt branch.arg = 0 ∧ output.reserved = 0 ∧ output.length = startPos

theorem Stuck.long (stuck : Stuck libc startPos fmt branch output) :
    output.reserved ≤ libc.fmtLen fmt branch.arg := by
  rw [stuck.2.1]
  exact Nat.zero_le _

/-- Stuck before a growth, stuck behind it. -/
theorem Stuck.grown (stuck : Stuck libc startPos fmt branch output)
    (startFits : startPos < 2 ^ 64) (buffer : Nat) :
    Stuck libc startPos fmt branch (output.grown libc startPos fmt branch buffer) := by
  rcases stuck with ⟨empty, full, atEnd⟩
  have sameLength : grownLength (libc.fmtLen fmt branch.arg) output.length
      output.reserved = startPos := by
    rw [empty, full, atEnd, emptyGrowth startFits]
  refine ⟨empty, ?_, sameLength⟩
  simp only [Output.grown, sameLength]
  exact wrappingSub_self startPos

/-- A log buffer of the same length, the same one or one that `malloc` has given. -/
structure SameLength (libc : Libc) (before after : Output) : Prop where
  length : after.length = before.length
  logBuffer : after.logBuffer = before.logBuffer ∨
    ∃ count, libc.malloc count after.length = some after.logBuffer

/-- An empty text for which there is no space at all is never returned, and the length
of the buffer stays what it is. -/
theorem retryNonString_of_stuck (startFits : startPos < 2 ^ 64)
    (stuck : Stuck libc startPos fmt branch output) (passes : Nat) :
    let retried := retryNonString libc startPos fmt branch passes output
    Fruitless retried.2 ∧ SameLength libc output retried.1 := by
  induction passes generalizing output with
  | zero => exact ⟨.inl rfl, rfl, .inl rfl⟩
  | succ passes induction =>
      cases allocated : libc.malloc output.mallocs
          (grownLength (libc.fmtLen fmt branch.arg) output.length output.reserved) with
      | none =>
          rw [retryNonString_refused stuck.long allocated]
          exact ⟨.inr rfl, rfl, .inl rfl⟩
      | some buffer =>
          have again := stuck.grown startFits buffer
          have grownLength : (output.grown libc startPos fmt branch buffer).length =
              output.length := again.2.2.trans stuck.2.2.symm
          rw [retryNonString_grows stuck.long allocated]
          rcases induction again with ⟨fruitless, same⟩
          refine ⟨fruitless, same.length.trans grownLength, .inr ?_⟩
          rcases same.logBuffer with logBuffer | later
          · refine ⟨output.mallocs, ?_⟩
            rw [same.length, logBuffer]
            exact allocated
          · exact later

theorem retryNonString_stuck (allocates : libc.Allocates) (startFits : startPos < 2 ^ 64)
    (stuck : Stuck libc startPos fmt branch output) (passes : Nat) :
    (retryNonString libc startPos fmt branch passes output).2 = none := by
  induction passes generalizing output with
  | zero => rfl
  | succ passes induction =>
      rcases Option.ne_none_iff_exists'.mp (allocates output.mallocs
        (grownLength (libc.fmtLen fmt branch.arg) output.length output.reserved)) with
        ⟨buffer, allocated⟩
      rw [retryNonString_grows stuck.long allocated]
      exact induction (stuck.grown startFits buffer)

/-! ## Loops that return a length -/

/-- `malloc` gives the larger buffers that are asked for: a first one when the text does
not fit, and a second one when it still does not. -/
def Granted (libc : Libc) (startPos fmtLen : Nat) (output : Output) : Prop :=
  output.reserved ≤ fmtLen →
    let first := grownLength fmtLen output.length output.reserved
    let space := wrappingSub first startPos
    libc.malloc output.mallocs first ≠ none ∧
      (space ≤ fmtLen →
        libc.malloc (output.mallocs + 1) (grownLength fmtLen first space) ≠ none)

/-- What the retry loop needs for its return: `snprintf` does not fail, there is a text or
some room, and no memory is refused. -/
structure Returns (libc : Libc) (startPos : Nat) (fmt : List UInt8) (branch : Branch)
    (output : Output) : Prop where
  succeeds : libc.fails fmt branch.arg = false
  free : ¬Stuck libc startPos fmt branch output
  granted : Granted libc startPos (libc.fmtLen fmt branch.arg) output

/-- In the third pass there is room for the text twice: what was free before has
cancelled out. -/
theorem thirdPass_room {text length start secondReserved : Nat}
    (bounded : text ≤ 2 ^ 31 - 1) (startFits : start < 2 ^ 64)
    (lengthFits : length < 2 ^ 64)
    (second : wrappingSub length start = secondReserved)
    (secondFull : secondReserved ≤ text) (positive : 0 < text) :
    text < wrappingSub (grownLength text length secondReserved) start := by
  have room : wrappingSub (grownLength text length secondReserved) start = 2 * text := by
    subst second
    simp only [grownLength, wrappingSub]
    split <;> split <;> split <;> omega
  omega

theorem Returns.bounded (returns : Returns libc startPos fmt branch output) :
    libc.fmtLen fmt branch.arg ≤ 2 ^ 31 - 1 := by
  have bounded := libc.render_fits fmt branch.arg
  rw [libc.fmtLen_of_succeeds returns.succeeds]
  exact bounded

/-- Three runs are enough. -/
theorem Returns.retryNonString (returns : Returns libc startPos fmt branch output)
    (startFits : startPos < 2 ^ 64) (inRange : output.InRange) (enough : 3 ≤ passes) :
    (retryNonString libc startPos fmt branch passes output).2 =
      some (toInt (libc.fmtLen fmt branch.arg)) := by
  have bounded := returns.bounded
  have fitting {output : Output} {passes : Nat}
      (fits : libc.fmtLen fmt branch.arg < output.reserved) :
      (Decoding.retryNonString libc startPos fmt branch (passes + 1) output).2 =
        some (toInt (libc.fmtLen fmt branch.arg)) :=
    (retryNonString_fits libc (passes + 1) startPos fmt branch output fits).2 (by omega)
  obtain ⟨more, rfl⟩ : ∃ more, passes = more + 3 := ⟨passes - 3, by omega⟩
  by_cases fits : libc.fmtLen fmt branch.arg < output.reserved
  · exact fitting fits
  have long := Nat.not_lt.mp fits
  rcases returns.granted long with ⟨given, givenAgain⟩
  rcases Option.ne_none_iff_exists'.mp given with ⟨buffer, allocated⟩
  rw [retryNonString_grows long allocated]
  by_cases secondFits : libc.fmtLen fmt branch.arg <
      (output.grown libc startPos fmt branch buffer).reserved
  · exact fitting secondFits
  have secondLong := Nat.not_lt.mp secondFits
  rcases Option.ne_none_iff_exists'.mp (givenAgain secondLong) with ⟨again, allocatedAgain⟩
  rw [retryNonString_grows secondLong allocatedAgain]
  apply fitting
  apply thirdPass_room bounded startFits (grownLength_lt _ _ _) rfl secondLong
  -- An empty text that did not fit twice has found the buffer full twice.
  by_contra nothing
  have empty : libc.fmtLen fmt branch.arg = 0 := by omega
  have full : output.reserved = 0 := by omega
  have atEnd : wrappingSub output.length startPos = 0 := by
    simp only [Output.grown, empty, full, emptyGrowth inRange.length] at secondLong
    omega
  exact returns.free ⟨empty, full, eq_of_wrappingSub startFits atEnd⟩

/-- The retry loop returns a length just if it has what it needs. -/
theorem retryNonString_returns_iff (startFits : startPos < 2 ^ 64)
    (inRange : output.InRange) (enough : 3 ≤ passes) :
    ¬Fruitless (retryNonString libc startPos fmt branch passes output).2 ↔
      Returns libc startPos fmt branch output := by
  constructor
  · intro returns
    obtain ⟨more, rfl⟩ : ∃ more, passes = more + 2 := ⟨passes - 2, by omega⟩
    refine ⟨?_, ?_, ?_⟩
    · cases fails : libc.fails fmt branch.arg with
      | false => rfl
      | true => exact absurd (retryNonString_of_fails fails inRange startPos _) returns
    · exact fun stuck => returns (retryNonString_of_stuck startFits stuck _).1
    · intro long
      cases allocated : libc.malloc output.mallocs
          (grownLength (libc.fmtLen fmt branch.arg) output.length output.reserved) with
      | none =>
          rw [retryNonString_refused long allocated] at returns
          exact absurd (.inr rfl) returns
      | some buffer =>
          refine ⟨by simp [allocated], ?_⟩
          intro secondLong refused
          have secondRefused := retryNonString_refused
            (show (output.grown libc startPos fmt branch buffer).reserved ≤
              libc.fmtLen fmt branch.arg from secondLong) refused startPos more
          rw [retryNonString_grows long allocated, secondRefused] at returns
          exact returns (.inr rfl)
  · intro returns
    have bounded := returns.bounded
    rw [returns.retryNonString startFits inRange enough, toInt_of_lt (by omega)]
    rintro (none | failed)
    · cases none
    · have negative := Option.some.inj failed
      omega

/-! ## The variables stay in range -/

theorem resizeLogBuffer_inRange (libc : Libc) {newSize : Nat} {output : Output}
    (inRange : output.InRange) (newFits : newSize < 2 ^ 64) :
    (resizeLogBuffer libc newSize output).1.InRange := by
  rw [resizeLogBuffer]
  cases libc.malloc output.mallocs newSize with
  | none => exact ⟨inRange.length, inRange.reserved⟩
  | some buffer => exact ⟨newFits, inRange.reserved⟩

theorem retryNonString_inRange (libc : Libc) (startPos : Nat) (fmt : List UInt8)
    (branch : Branch) (passes : Nat) {output : Output} (inRange : output.InRange) :
    (retryNonString libc startPos fmt branch passes output).1.InRange := by
  induction passes generalizing output with
  | zero => exact inRange
  | succ passes induction =>
      simp only [retryNonString]
      generalize snprintf libc output.heap _ _ fmt branch.arg = printed
      have stored : { output with heap := printed.1 }.InRange :=
        ⟨inRange.length, inRange.reserved⟩
      split
      · have newFits : wrappingSub ((2 * printed.2 + output.length) % 2 ^ 64)
            output.reserved < 2 ^ 64 := wrappingSub_lt (Nat.mod_lt _ (by decide))
        have resized := resizeLogBuffer_inRange libc stored newFits
        split
        · rename_i grown failed
          rw [failed] at resized
          exact resized
        · rename_i grown succeeded
          rw [succeeded] at resized
          exact induction ⟨resized.length, wrappingSub_lt resized.length⟩
      · exact stored

theorem printString_inRange (libc : Libc) (startPos : Nat) (fmt : List UInt8) (arg : VarArg)
    {output : Output} (inRange : output.InRange) :
    (printString libc startPos fmt arg output).1.InRange := by
  simp only [printString]
  split
  · split
    · exact ⟨inRange.length, inRange.reserved⟩
    · exact ⟨wrappingSub_lt (Nat.mod_lt _ (by decide)), Nat.mod_lt _ (by decide)⟩
  · exact ⟨inRange.length, inRange.reserved⟩

end Decoding

end StaticLog
