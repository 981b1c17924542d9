import StaticLog.Backend.LinePrefix
import StaticLog.Decoding.ProcessFmt
import StaticLog.StagingBuffer.StagingBuffer

/-! # Writing out one log entry

`processLogBuffer`: the line for the first entry of a staging buffer is composed
in the log buffer, handed to `write`, and the entry is consumed. -/

namespace StaticLog.Backend

open LinePrefix Decoding

/-- What the pointers of log entries point to, and what the C library does. -/
structure Environment where
  libc : Libc
  localtime : Nat → Tm
  staticInfo : Nat → StaticInfo
  paramSize : Nat → List Nat

/-- `log_entry->timestamp = get_nanotime()`, for the entry in front. -/
def stampEntry (nanotime : Nat) (stagingBuffer : StagingBuffer) : StagingBuffer :=
  { stagingBuffer with
    storage :=
      LogEntry.storeTimestamp nanotime stagingBuffer.storage stagingBuffer.consumerPos }

def frontEntry (stagingBuffer : StagingBuffer) : LogEntry :=
  LogEntry.load stagingBuffer.storage stagingBuffer.consumerPos

/-- `prefix_callinfo_len`. -/
def callInfoLen (staticInfo : StaticInfo) : Int :=
  toInt (generateCallInfoPrefix staticInfo).length

/-- `prefix_ts_len + prefix_callinfo_len`. -/
def prefixLen (staticInfo : StaticInfo) : Int :=
  wrapInt (timestampPrefixLen + callInfoLen staticInfo)

/-- `log_buffer_ + prefix_ts_len + prefix_callinfo_len + len`: the pointer is moved by one
length after the other. -/
def newlinePos (staticInfo : StaticInfo) (len : Int) (logBuffer : Nat) : Nat :=
  pointerAdd
    (pointerAdd (pointerAdd logBuffer timestampPrefixLen) (ofInt (callInfoLen staticInfo)))
    (ofInt len)

/-- The two prefixes and the call of `process_fmt`, for the stamped entry in front
of the staging buffer. -/
def formatEntry (env : Environment) (passes : Nat) (stagingBuffer : StagingBuffer)
    (output : Output) : FmtState × Progress :=
  let logEntry := frontEntry stagingBuffer
  let staticInfo := env.staticInfo logEntry.staticInfo
  let heap := Memory.overwrite output.heap output.logBuffer
    (generateTimePrefix env.localtime logEntry.timestamp)
  let heap := Memory.overwrite heap (pointerAdd output.logBuffer timestampPrefixLen)
    (generateCallInfoPrefix staticInfo)
  processFmt env.libc passes staticInfo.format
    { numParams := staticInfo.numParams
      paramTypes := staticInfo.paramTypes
      paramSizes := env.paramSize logEntry.paramSize
      params := stagingBuffer.storage }
    (stagingBuffer.consumerPos + LogEntry.size) { output with heap := heap }
    (ofInt (prefixLen staticInfo))

/-- What `processLogBuffer` leaves behind, and the bytes handed to `write`. -/
structure Processed where
  stagingBuffer : StagingBuffer
  output : Output
  written : Option (List UInt8)

/-- `processLogBuffer`. There is no result if `process_fmt` does not return. -/
def processLogBuffer (env : Environment) (passes nanotime : Nat) (outfd : Int)
    (stagingBuffer : StagingBuffer) (output : Output) : Option Processed :=
  let peeked := stagingBuffer.peek
  if 0 < peeked.2 then
    let stagingBuffer := stampEntry nanotime peeked.1
    let logEntry := frontEntry stagingBuffer
    let staticInfo := env.staticInfo logEntry.staticInfo
    let formatted := formatEntry env passes stagingBuffer output
    match returned formatted.1 formatted.2 with
    | none => none
    | some len =>
        let output := formatted.1.output
        let log := newlinePos staticInfo len output.logBuffer
        let output :=
          { output with heap := Memory.overwrite output.heap log ['\n'.toUInt8] }
        if len ≠ -1 ∧ outfd ≠ -1 then
          let count := ofInt (wrapInt (prefixLen staticInfo + len + 1))
          some
            { stagingBuffer := stagingBuffer.consume logEntry.entrySize
              output := output
              written := some (Memory.slice output.heap output.logBuffer count) }
        else
          some { stagingBuffer := stagingBuffer, output := output, written := none }
  else some { stagingBuffer := peeked.1, output := output, written := none }

end StaticLog.Backend
