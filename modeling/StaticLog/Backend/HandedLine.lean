import StaticLog.Backend.ProcessLogBuffer
import StaticLog.Decoding.Cursor

/-! # What is handed to `write`

`process_fmt` returns where the line ends, prefixes included; `processLogBuffer`
adds the length of the prefixes once more. -/

namespace StaticLog.Backend

open LinePrefix Decoding

/-- The parts that the line for the first entry is made of, and the run of
`process_fmt` that formats its message. -/
structure Line where
  timePrefix : List UInt8
  callInfoPrefix : List UInt8
  formatted : FmtState × Progress

namespace Line

def compose (env : Environment) (passes nanotime : Nat)
    (stagingBuffer : StagingBuffer) (output : Output) : Line :=
  let stamped := stampEntry nanotime stagingBuffer.peek.1
  { timePrefix := generateTimePrefix env.localtime (frontEntry stamped).timestamp
    callInfoPrefix := generateCallInfoPrefix (env.staticInfo (frontEntry stamped).staticInfo)
    formatted := formatEntry env passes stamped output }

/-- Where the message starts. -/
def start (line : Line) : Nat := line.timePrefix.length + line.callInfoPrefix.length

/-- What `process_fmt` has written behind the prefixes. -/
def message (line : Line) : List UInt8 :=
  let final := line.formatted.1
  let first := pointerAdd final.output.logBuffer line.start
  Memory.slice final.output.heap first (wrappingSub final.logPos first)

/-- The two prefixes, the message and a newline. -/
def text (line : Line) : List UInt8 :=
  line.timePrefix ++ line.callInfoPrefix ++ line.message ++ ['\n'.toUInt8]

/-- The line, as far as it is formatted, needs no larger buffer. -/
structure Fits (libc : Libc) (output : Output) (line : Line) : Prop where
  length : line.text.length ≤ output.length
  calls : ∀ call ∈ line.formatted.1.calls, call.grows libc = false

end Line

/-- The bytes handed to `write` are the line for the entry. -/
def HandsLine (env : Environment) (passes nanotime : Nat) (outfd : Int)
    (stagingBuffer : StagingBuffer) (output : Output) : Prop :=
  ∃ processed,
    processLogBuffer env passes nanotime outfd stagingBuffer output = some processed ∧
    processed.written = some (Line.compose env passes nanotime stagingBuffer output).text

/-- The number of bytes between two positions of a buffer, up to whole turns. -/
theorem message_length_eq (base start offset : Nat) :
    ∃ turns : Int,
      (wrappingSub (pointerAdd base offset) (pointerAdd base start) : Int) =
        offset - start + turns * 2 ^ 64 := by
  rcases wrappingSub_spec (pointerAdd base offset) (pointerAdd base start) with
    ⟨ordered, equal⟩ | ⟨ordered, equal⟩ <;> rw [equal]
  all_goals simp only [pointerAdd] at ordered ⊢
  · exact ⟨(base + start : Int) / 2 ^ 64 - (base + offset : Int) / 2 ^ 64, by omega⟩
  · exact ⟨1 + (base + start : Int) / 2 ^ 64 - (base + offset : Int) / 2 ^ 64, by omega⟩

/-- The byte count that is handed to `write` counts the prefixes twice, which no
wrap-around of an `int` can make up for. -/
theorem count_ne {infoLen base offset start : Nat}
    (starts : start = timestampPrefixLen + infoLen)
    (inMemory : start +
      wrappingSub (pointerAdd base offset) (pointerAdd base start) + 1 < 2 ^ 63) :
    ofInt (wrapInt (wrapInt (timestampPrefixLen + toInt infoLen) + toInt offset + 1)) ≠
      start + wrappingSub (pointerAdd base offset) (pointerAdd base start) + 1 := by
  intro equal
  rcases message_length_eq base start offset with ⟨around, message⟩
  have info := wrapInt_spec infoLen
  have ends := wrapInt_spec offset
  have first := wrapInt_spec (timestampPrefixLen + toInt infoLen)
  have whole := wrapInt_spec (wrapInt (timestampPrefixLen + toInt infoLen) + toInt offset + 1)
  rw [← toInt] at info ends
  rcases info with ⟨infoTurns, info, _⟩
  rcases ends with ⟨endTurns, ends, _⟩
  rcases first with ⟨firstTurns, first, _⟩
  rcases whole with ⟨wholeTurns, whole, lower, upper⟩
  have counted := ofInt_spec lower upper
  rw [equal] at counted
  simp only [timestampPrefixLen] at *
  omega

namespace Line

theorem text_length (line : Line) :
    line.text.length = line.start + line.message.length + 1 := by
  simp only [text, start, List.length_append, List.length_singleton]

theorem message_length {line : Line} {output : Output}
    (steady : Steady output line.formatted.1) :
    line.message.length =
      wrappingSub
        (pointerAdd output.logBuffer
          (wrappingSub output.length line.formatted.1.output.reserved))
        (pointerAdd output.logBuffer line.start) := by
  rw [message, Memory.slice_length, steady.logBuffer, steady.cursor]

end Line

/-- A value that is not -1 is returned at the end of the format only. -/
theorem returned_eq {state : FmtState} {progress : Progress} {len : Int}
    (given : returned state progress = some len) (accepted : len ≠ -1) :
    len = toInt (wrappingSub state.output.length state.output.reserved) := by
  cases progress with
  | finished => exact (Option.some.inj given).symm
  | failed => exact absurd (Option.some.inj given).symm accepted
  | running => cases given
  | retrying => cases given
  | crashed => cases given

theorem formatEntry_steady (env : Environment) (passes : Nat)
    (stagingBuffer : StagingBuffer) {output : Output}
    (inMemory : output.length < 2 ^ 63)
    (fits : ∀ call ∈ (formatEntry env passes stagingBuffer output).1.calls,
      call.grows env.libc = false) :
    Steady output (formatEntry env passes stagingBuffer output).1 := by
  have lengthFits : output.length < 2 ^ 64 := by omega
  simp only [formatEntry] at fits ⊢
  generalize Memory.overwrite _ (pointerAdd output.logBuffer _) _ = heap at fits ⊢
  have steady := processFmt_steady _ _ _ _ _ { output with heap := heap } _ lengthFits
    (ofInt_lt _) fits
  exact steady.of_start rfl rfl

/-- The static data of the entry in front. -/
def frontInfo (env : Environment) (stagingBuffer : StagingBuffer) : StaticInfo :=
  env.staticInfo (frontEntry stagingBuffer).staticInfo

/-- How many bytes are handed to `write`, if any. -/
theorem written_length {env : Environment} {passes nanotime : Nat} {outfd : Int}
    {stagingBuffer : StagingBuffer} {output : Output} {processed : Processed}
    {written : List UInt8}
    (ran : processLogBuffer env passes nanotime outfd stagingBuffer output =
      some processed) (handed : processed.written = some written) :
    let stamped := stampEntry nanotime stagingBuffer.peek.1
    let final := (formatEntry env passes stamped output).1.output
    written.length =
      ofInt (wrapInt (prefixLen (frontInfo env stamped) +
        toInt (wrappingSub final.length final.reserved) + 1)) := by
  simp only [processLogBuffer] at ran
  split at ran
  · split at ran
    · cases ran
    · rename_i len given
      split at ran
      · rename_i accepted
        rw [← Option.some.inj ran] at handed
        rw [← Option.some.inj handed, Memory.slice_length, returned_eq given accepted.1]
        simp only [frontInfo]
      · cases ran
        cases handed
  · cases ran
    cases handed

theorem Line.start_compose (env : Environment) (passes nanotime : Nat)
    (stagingBuffer : StagingBuffer) (output : Output) :
    (Line.compose env passes nanotime stagingBuffer output).start =
      timestampPrefixLen + (generateCallInfoPrefix
        (frontInfo env (stampEntry nanotime stagingBuffer.peek.1))).length := by
  simp only [Line.start, Line.compose, generateTimePrefix_length, frontInfo]

/-! ## Two entries to try -/

namespace Example

/-- The call `STATIC_LOG(kDEBUG, "hi")`. -/
def hi : StaticInfo where
  numParams := 0
  paramTypes := []
  format := ascii "hi"
  logLevel := .debug
  functionName := ascii "main"
  line := 7

/-- The call `STATIC_LOG(kERROR, "n=%d", 5)`. -/
def five : StaticInfo where
  numParams := 1
  paramTypes := [.nonString]
  format := ascii "n=%d"
  logLevel := .error
  functionName := ascii "main"
  line := 8

def env (staticInfo : StaticInfo) : Environment where
  libc := .sample
  localtime _ := { sec := 3, min := 2, hour := 1, mday := 5, mon := 10, year := 123 }
  staticInfo _ := staticInfo
  paramSize _ := [4, 0]

/-- A staging buffer that holds one entry with its encoded parameters. -/
def staged (params : List UInt8) : StagingBuffer :=
  let logEntry : LogEntry :=
    { timestamp := 1000, entrySize := LogEntry.size + params.length,
      staticInfo := 4096, paramSize := 8192 }
  ((StagingBuffer.create 0).store (logEntry.object ++ params)).finishReservation
    (LogEntry.size + params.length)

def nanotime : Nat := 1700000000000000000

def output : Output where
  heap _ := 0
  logBuffer := 2 ^ 20
  length := 2 ^ 20
  reserved := 0
  mallocs := 0

end Example

/-- Where the line ends is counted twice: the lengths of the prefixes are in what
`process_fmt` returns already. -/
theorem not_handsLine (env : Environment) (passes nanotime : Nat) (outfd : Int)
    (stagingBuffer : StagingBuffer) (output : Output)
    (inMemory : output.length < 2 ^ 63)
    (fits : (Line.compose env passes nanotime stagingBuffer output).Fits env.libc output) :
    ¬HandsLine env passes nanotime outfd stagingBuffer output := by
  rintro ⟨processed, ran, handed⟩
  have steady := formatEntry_steady env passes _ inMemory fits.calls
  have starts := Line.start_compose env passes nanotime stagingBuffer output
  have written := written_length ran handed
  have whole := Line.text_length (Line.compose env passes nanotime stagingBuffer output)
  have message : (Line.compose env passes nanotime stagingBuffer
      output).message.length = _ := Line.message_length steady
  have fitting := fits.length
  simp only [steady.length, prefixLen] at written
  rw [message] at whole
  rw [whole] at fitting written
  have inBounds := fitting.trans_lt inMemory
  exact count_ne starts inBounds written.symm

theorem not_handsLine_five :
    ¬HandsLine (Example.env Example.five) 3 Example.nanotime 4
      (Example.staged [5, 0, 0, 0]) Example.output := by
  apply not_handsLine
  · decide
  · constructor
    · decide +kernel
    · decide +kernel

/-- For the message `hi` 97 bytes are handed to `write`, while its line has 50. -/
theorem hi_not_handsLine :
    (Line.compose (Example.env Example.hi) 3 Example.nanotime (Example.staged [])
      Example.output).Fits .sample Example.output ∧
    ¬HandsLine (Example.env Example.hi) 3 Example.nanotime 4 (Example.staged [])
      Example.output := by
  constructor
  · constructor
    · decide +kernel
    · decide +kernel
  · rintro ⟨processed, ran, handed⟩
    have written := written_length ran handed
    revert written
    decide +kernel

end StaticLog.Backend
