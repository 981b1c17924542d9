import StaticLog.Backend.LogEntry

/-! # The prefixes of a line

`generateTimePrefix` and `generateCallInfoPrefix`. Each writes its bytes one
behind the other; they are given as the list of these bytes. -/

namespace StaticLog

/-- The fields of `struct tm` that are read. -/
structure Tm where
  sec : Int
  min : Int
  hour : Int
  mday : Int
  mon : Int
  year : Int

namespace LinePrefix

/-- `std::to_string`. -/
def decimal (number : Int) : List UInt8 := ascii (toString number)

/-- The characters that `memcpy` takes from `c_str()`: behind the text there is
a NUL. -/
def copied (count : Nat) (text : List UInt8) : List UInt8 :=
  (text ++ List.replicate count 0).take count

@[simp] theorem copied_length (count : Nat) (text : List UInt8) :
    (copied count text).length = count := by
  simp [copied]

/-- `convertInt2Str`. -/
def convertInt2Str (ts : Int) : List UInt8 :=
  if ts < 10 then '0'.toUInt8 :: copied 1 (decimal ts) else copied 2 (decimal ts)

@[simp] theorem convertInt2Str_length (ts : Int) : (convertInt2Str ts).length = 2 := by
  rw [convertInt2Str]
  split <;> simp

/-- The nine digits behind the point, with zeros in front. -/
def nanoseconds (nano : Nat) : List UInt8 :=
  let digits := decimal nano
  List.replicate (9 - digits.length) '0'.toUInt8 ++ digits

/-- `generateTimePrefix`. -/
def generateTimePrefix (localtime : Nat → Tm) (timestamp : Nat) : List UInt8 :=
  let nano := timestamp % 1000000000
  let now := localtime (timestamp / 1000000000)
  ascii "[" ++ copied 4 (decimal (now.year + 1900)) ++
    ascii "-" ++ convertInt2Str (now.mon + 1) ++
    ascii "-" ++ convertInt2Str now.mday ++
    ascii "-" ++ convertInt2Str now.hour ++
    ascii ":" ++ convertInt2Str now.min ++
    ascii ":" ++ convertInt2Str now.sec ++
    ascii "." ++ nanoseconds nano ++ ascii "]"

/-- `TIEMSTAMP_PREFIX_LEN`. -/
def timestampPrefixLen : Nat := 31

theorem decimal_length_le {number digits : Nat} (positive : 0 < digits)
    (small : number < 10 ^ digits) : (decimal number).length ≤ digits := by
  have spelled : decimal number = (Nat.toDigits 10 number).map Char.toUInt8 := by
    change List.map Char.toUInt8 (Nat.repr number).toList = _
    rw [Nat.toList_repr]
  rw [spelled, List.length_map, Nat.length_toDigits_le_iff (by decide) positive]
  exact small

theorem nanoseconds_length {nano : Nat} (small : nano < 10 ^ 9) :
    (nanoseconds nano).length = 9 := by
  have digits := decimal_length_le (by decide) small
  simp only [nanoseconds, List.length_append, List.length_replicate]
  omega

/-- Whatever `localtime` says, the time prefix has the length that is asserted. -/
theorem generateTimePrefix_length (localtime : Nat → Tm) (timestamp : Nat) :
    (generateTimePrefix localtime timestamp).length = timestampPrefixLen := by
  have nano : (nanoseconds (timestamp % 1000000000)).length = 9 :=
    nanoseconds_length (Nat.mod_lt _ (by decide))
  have single (text : String) (one : text.toList.length = 1) :
      (ascii text).length = 1 := by
    simpa [ascii] using one
  simp only [generateTimePrefix, List.length_append, nano, copied_length,
    convertInt2Str_length, single "[" rfl, single "-" rfl, single ":" rfl,
    single "." rfl, single "]" rfl, timestampPrefixLen]

/-- `generateCallInfoPrefix`. -/
def generateCallInfoPrefix (staticInfo : StaticInfo) : List UInt8 :=
  ascii "[" ++ ascii staticInfo.logLevel.str ++ ascii "]" ++
    ascii "[" ++ staticInfo.functionName ++ ascii "]" ++
    ascii "[" ++ decimal staticInfo.line ++ ascii "]"

end LinePrefix

end StaticLog
