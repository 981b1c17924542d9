import StaticLog.Backend.PrintedLine
import StaticLog.Backend.TimePrefix

/-! # The header of a line

`generateCallInfoPrefix` as it moves its cursor, and what the bytes in front of a message
are good for: time, level, function and line number of the call can be read from them,
whatever the message is, and their number tells where the message ends. -/

namespace StaticLog

open LinePrefix Memory Decimal

namespace LinePrefix

/-- `memcpy(raw, text, len); raw += len; prefix_len += len`. -/
def Prefix.copy (text : List UInt8) (written : Prefix) : Prefix :=
  ((written.memcpy text.length text).advance text.length).count text.length

/-- `*raw++ = letter; prefix_len++`. -/
def Prefix.store (letter : Char) (written : Prefix) : Prefix := (written.put letter).count 1

/-- `generateCallInfoPrefix`, which writes from `raw` on. -/
def runCallInfoPrefix (staticInfo : StaticInfo) (heap : Memory UInt8) (raw : Nat) : Prefix :=
  let start : Prefix := { heap := heap, rawData := raw, prefixLen := 0 }
  let level := ((start.store '[').copy (ascii staticInfo.logLevel.str)).store ']'
  let function := ((level.store '[').copy staticInfo.functionName).store ']'
  ((function.store '[').copy (decimal staticInfo.line)).store ']'

theorem Prefix.store_wrote (heap : Memory UInt8) (start : Nat) (text : List UInt8)
    (letter : Char) :
    (wrote heap start text text.length).store letter =
      wrote heap start (text ++ [letter.toUInt8]) (text ++ [letter.toUInt8]).length := by
  rw [store, put_wrote, count_wrote, List.length_append, List.length_singleton]

theorem Prefix.copy_wrote (heap : Memory UInt8) (start : Nat) (text source : List UInt8) :
    (wrote heap start text text.length).copy source =
      wrote heap start (text ++ source) (text ++ source).length := by
  have whole : copied source.length source = source := by
    rw [copied, List.take_left' rfl]
  rw [copy, memcpy_wrote, count_wrote, whole, List.length_append]

/-- The function writes its text, no byte in front of it and none behind, and returns
the length. -/
theorem runCallInfoPrefix_eq (staticInfo : StaticInfo) (heap : Memory UInt8) (raw : Nat) :
    runCallInfoPrefix staticInfo heap raw =
      .wrote heap raw (generateCallInfoPrefix staticInfo)
        (generateCallInfoPrefix staticInfo).length := by
  have starts : ({ heap := heap, rawData := raw, prefixLen := 0 } : Prefix) =
      .wrote heap raw [] ([] : List UInt8).length := by
    simp [Prefix.wrote]
  simp only [runCallInfoPrefix, starts, Prefix.store_wrote, Prefix.copy_wrote]
  rfl

/-! ## Reading a header -/

/-- The text between a pair of brackets at the start, and what stands behind them. -/
def readField : List UInt8 → Option (List UInt8 × List UInt8)
  | [] => none
  | first :: text =>
      if first = '['.toUInt8 then
        match text.dropWhile (· ≠ ']'.toUInt8) with
        | [] => none
        | _ :: behind => some (text.takeWhile (· ≠ ']'.toUInt8), behind)
      else none

theorem readField_bracketed {text : List UInt8} (closed : ']'.toUInt8 ∉ text)
    (behind : List UInt8) :
    readField (ascii "[" ++ text ++ ascii "]" ++ behind) = some (text, behind) := by
  have inside : ∀ byte ∈ text, decide (byte ≠ ']'.toUInt8) = true := by
    intro byte member
    rw [decide_eq_true_eq]
    rintro rfl
    exact closed member
  have opened : ascii "[" ++ text ++ ascii "]" ++ behind =
      '['.toUInt8 :: (text ++ ']'.toUInt8 :: behind) := by
    simp [ascii]
  rw [opened, readField, if_pos rfl, List.dropWhile_append_of_pos inside,
    List.takeWhile_append_of_pos inside]
  simp

/-- The level of that name. -/
def readLevel (name : List UInt8) : Option LogLevel :=
  [LogLevel.silent, .error, .warning, .notice, .debug].find? (fun level => ascii level.str = name)

theorem readLevel_str (level : LogLevel) : readLevel (ascii level.str) = some level := by
  cases level <;> decide

theorem value_decimal (number : Nat) : value (decimal number) = number := by
  induction number using Nat.strongRecOn with
  | _ number induction =>
      rw [decimal_eq]
      split
      · rename_i single
        rw [value_snoc]
        simp only [value, List.foldl_nil]
        omega
      · rename_i more
        rw [value_snoc, induction (number / 10) (by omega)]
        omega

theorem isDigit_of_mem_decimal {number : Nat} {byte : UInt8}
    (member : byte ∈ decimal number) : isDigit byte = true := by
  induction number using Nat.strongRecOn with
  | _ number induction =>
      rw [decimal_eq, List.mem_append, List.mem_singleton] at member
      rcases member with member | rfl
      · split at member
        · cases member
        · exact induction (number / 10) (by omega) member
      · exact isDigit_digit number

theorem closed_decimal (number : Nat) : ']'.toUInt8 ∉ decimal number := by
  intro member
  have digit := isDigit_of_mem_decimal member
  revert digit
  decide

theorem closed_str (level : LogLevel) : ']'.toUInt8 ∉ ascii level.str := by
  cases level <;> decide

/-- What a header tells about the call. -/
structure Header where
  now : Tm
  nano : Nat
  logLevel : LogLevel
  functionName : List UInt8
  line : Nat

/-- The header of a line, and what stands behind it. -/
def parseHeader (text : List UInt8) : Option (Header × List UInt8) := do
  let (now, nano) ← parseTimePrefix (text.take timestampPrefixLen)
  let (level, text) ← readField (text.drop timestampPrefixLen)
  let (functionName, text) ← readField text
  let (line, behind) ← readField text
  let logLevel ← readLevel level
  if line.all isDigit then
    some ({ now := now, nano := nano, logLevel := logLevel, functionName := functionName,
            line := value line }, behind)
  else none

/-- The header of a call at a time. -/
def Header.of (localtime : Nat → Tm) (timestamp : Nat) (staticInfo : StaticInfo) : Header where
  now := localtime (timestamp / 1000000000)
  nano := timestamp % 1000000000
  logLevel := staticInfo.logLevel
  functionName := staticInfo.functionName
  line := staticInfo.line

/-- The two prefixes tell the header, whatever stands behind them. -/
theorem parseHeader_prefixes {localtime : Nat → Tm} {timestamp : Nat} {staticInfo : StaticInfo}
    (inRange : (localtime (timestamp / 1000000000)).InRange)
    (named : ']'.toUInt8 ∉ staticInfo.functionName) (behind : List UInt8) :
    parseHeader (generateTimePrefix localtime timestamp ++
        generateCallInfoPrefix staticInfo ++ behind) =
      some (Header.of localtime timestamp staticInfo, behind) := by
  have timeLength := generateTimePrefix_length localtime timestamp
  have fields : generateCallInfoPrefix staticInfo ++ behind =
      ascii "[" ++ ascii staticInfo.logLevel.str ++ ascii "]" ++
        (ascii "[" ++ staticInfo.functionName ++ ascii "]" ++
          (ascii "[" ++ decimal staticInfo.line ++ ascii "]" ++ behind)) := by
    simp [generateCallInfoPrefix]
  have digits : (decimal staticInfo.line).all isDigit = true := by
    rw [List.all_eq_true]
    exact fun _ member => isDigit_of_mem_decimal member
  rw [List.append_assoc, parseHeader, List.take_left' timeLength, List.drop_left' timeLength,
    parseTimePrefix_eq inRange, fields]
  simp only [Option.bind_eq_bind, Option.bind_some, readField_bracketed (closed_str _),
    readField_bracketed named, readField_bracketed (closed_decimal _), readLevel_str, digits,
    if_true, value_decimal]
  rfl

/-- The header of a line and the text of its message: between the text and the newline
stand as many bytes as the header has. -/
def parseLine (line : List UInt8) : Option (Header × List UInt8) := do
  let (header, behind) ← parseHeader line
  let headerLen := line.length - behind.length
  some (header, behind.take (behind.length - (headerLen + 1)))

end LinePrefix

/-- From the line of a call its header and its text can be read, whatever the log buffer
held before. -/
theorem PrintfCall.IsLine.parses {call : PrintfCall} {env : Backend.Environment}
    {nanotime : Nat} {held : Memory UInt8} {line : List UInt8}
    (isLine : call.IsLine env nanotime held line)
    (inRange : (env.localtime (nanotime % 2 ^ 64 / 1000000000)).InRange)
    (named : ']'.toUInt8 ∉ call.statement.functionName) :
    parseLine line =
      some (Header.of env.localtime (nanotime % 2 ^ 64) call.info, call.text env.libc) := by
  rcases isLine with ⟨rest, leftOver, rfl⟩
  have header : parseHeader (call.prefixes env nanotime ++
        (call.text env.libc ++ (rest ++ ['\n'.toUInt8]))) =
      some (Header.of env.localtime (nanotime % 2 ^ 64) call.info,
        call.text env.libc ++ (rest ++ ['\n'.toUInt8])) := by
    rw [PrintfCall.prefixes]
    exact parseHeader_prefixes inRange named _
  have sized := leftOver.length_eq
  rw [List.append_assoc, List.append_assoc, parseLine, header]
  simp only [Option.bind_eq_bind, Option.bind_some, List.length_append,
    PrintfCall.prefixes_length, sized, Nat.add_sub_cancel, List.length_singleton]
  rw [List.take_left' rfl]

end StaticLog
