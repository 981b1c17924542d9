import StaticLog.Foundation.LittleEndian
import StaticLog.Foundation.Memory
import StaticLog.Format.ParamInfo

/-! # Log entries

The record that a log call puts in front of its encoded arguments, and the
static data that the record points to. -/

namespace StaticLog

/-- `enum LogLevel`, without the number of levels at its end. -/
inductive LogLevel
  | silent
  | error
  | warning
  | notice
  | debug
  deriving DecidableEq, Repr

/-- `log_level_str`. -/
def LogLevel.str : LogLevel → String
  | .silent => "non"
  | .error => "error"
  | .warning => "warn"
  | .notice => "notice"
  | .debug => "debug"

/-- `struct StaticInfo`, with what its pointers point to. -/
structure StaticInfo where
  numParams : Nat
  paramTypes : List ParamType
  format : List UInt8
  logLevel : LogLevel
  functionName : List UInt8
  line : Nat

/-- `struct LogEntry`; the pointers are kept as addresses. -/
structure LogEntry where
  timestamp : Nat
  entrySize : Nat
  staticInfo : Nat
  paramSize : Nat
  deriving DecidableEq

namespace LogEntry

/-- `sizeof(LogEntry)`. -/
def size : Nat := 32

/-- The bytes of the record. -/
def object (entry : LogEntry) : List UInt8 :=
  LittleEndian.bytes 8 entry.timestamp ++ LittleEndian.bytes 8 entry.entrySize ++
    LittleEndian.bytes 8 entry.staticInfo ++ LittleEndian.bytes 8 entry.paramSize

def readField (memory : Memory UInt8) (position : Nat) : Nat :=
  LittleEndian.value (Memory.slice memory position 8)

/-- The record that lies at a position of the memory. -/
def load (memory : Memory UInt8) (position : Nat) : LogEntry where
  timestamp := readField memory position
  entrySize := readField memory (position + 8)
  staticInfo := readField memory (position + 16)
  paramSize := readField memory (position + 24)

/-- `log_entry->timestamp = timestamp`. -/
def storeTimestamp (timestamp : Nat) (memory : Memory UInt8) (position : Nat) :
    Memory UInt8 :=
  Memory.overwrite memory position (LittleEndian.bytes 8 timestamp)

@[simp] theorem object_length (entry : LogEntry) : entry.object.length = size := by
  simp [object, size]

end LogEntry

end StaticLog
