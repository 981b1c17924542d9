import StaticLog.Backend.LinePrefix
import StaticLog.Foundation.Decimal

/-! # The time in front of a line

`generateTimePrefix` as it moves its cursor, and what the text that it leaves in memory
is good for: the time can be read from it, and the texts are ordered as the times. -/

namespace StaticLog

/-- The calendar fields are in their ranges. -/
structure Tm.InRange (tm : Tm) : Prop where
  year : 1000 ≤ tm.year + 1900 ∧ tm.year + 1900 ≤ 9999
  mon : 0 ≤ tm.mon ∧ tm.mon ≤ 11
  mday : 1 ≤ tm.mday ∧ tm.mday ≤ 31
  hour : 0 ≤ tm.hour ∧ tm.hour ≤ 23
  min : 0 ≤ tm.min ∧ tm.min ≤ 59
  sec : 0 ≤ tm.sec ∧ tm.sec ≤ 60

namespace LinePrefix

open Memory Decimal

/-- The memory, the pointer `raw_data` into it and `prefix_len`. -/
structure Prefix where
  heap : Memory UInt8
  rawData : Nat
  prefixLen : Nat

namespace Prefix

/-- `*raw_data = letter`. -/
def set (letter : Char) (written : Prefix) : Prefix :=
  { written with heap := overwrite written.heap written.rawData [letter.toUInt8] }

/-- `raw_data += count`. -/
def advance (count : Nat) (written : Prefix) : Prefix :=
  { written with rawData := written.rawData + count }

/-- `*raw_data++ = letter`. -/
def put (letter : Char) (written : Prefix) : Prefix := (written.set letter).advance 1

/-- `memcpy(raw_data, text.c_str(), count)`. -/
def memcpy (count : Nat) (text : List UInt8) (written : Prefix) : Prefix :=
  { written with heap := overwrite written.heap written.rawData (copied count text) }

/-- `prefix_len += count`. -/
def count (count : Nat) (written : Prefix) : Prefix :=
  { written with prefixLen := written.prefixLen + count }

/-- `convertInt2Str`. -/
def convertInt2Str (ts : Int) (written : Prefix) : Prefix :=
  if ts < 10 then ((written.put '0').memcpy 1 (decimal ts)).advance 1
  else (written.memcpy 2 (decimal ts)).advance 2

/-- The `for` loop that pads with zeros. -/
def pad : Nat → Prefix → Prefix
  | 0, written => written
  | bits + 1, written => pad bits (written.put '0')

/-- The digits of the nanoseconds are copied to the right end of their field before the
zeros are written. -/
def nanoseconds (nano : Nat) (written : Prefix) : Prefix :=
  let nanolen := (decimal nano).length
  let copied :=
    { written with
      heap := overwrite written.heap (written.rawData + 9 - nanolen) (decimal nano) }
  let padded :=
    if nanolen < 9 then (copied.pad (9 - nanolen)).advance nanolen else copied.advance 9
  padded.count 9

end Prefix

/-- `generateTimePrefix`, which writes to `rawData` on. -/
def runTimePrefix (localtime : Nat → Tm) (timestamp : Nat) (heap : Memory UInt8)
    (rawData : Nat) : Prefix :=
  let nano := timestamp % 1000000000
  let now := localtime (timestamp / 1000000000)
  let start : Prefix := { heap := heap, rawData := rawData, prefixLen := 0 }
  let year := ((start.put '[').count 1).memcpy 4 (decimal (now.year + 1900))
  let month := (((year.advance 4).count 4).put '-').count 1
  let day := (((month.convertInt2Str (now.mon + 1)).count 2).put '-').count 1
  let hour := (((day.convertInt2Str now.mday).count 2).put '-').count 1
  let minute := (((hour.convertInt2Str now.hour).count 2).put ':').count 1
  let second := (((minute.convertInt2Str now.min).count 2).put ':').count 1
  let point := (((second.convertInt2Str now.sec).count 2).put '.').count 1
  ((point.nanoseconds nano).set ']').count 1

/-! ## What is in memory -/

namespace Prefix

/-- `text` was written from `start` on and `len` was counted. -/
def wrote (heap : Memory UInt8) (start : Nat) (text : List UInt8) (len : Nat) : Prefix where
  heap := overwrite heap start text
  rawData := start + text.length
  prefixLen := len

/-- The loop stores a block of zeros. -/
theorem pad_eq (bits : Nat) (written : Prefix) :
    written.pad bits =
      ({ written with
          heap := overwrite written.heap written.rawData
            (List.replicate bits '0'.toUInt8) } : Prefix).advance bits := by
  induction bits generalizing written with
  | zero => simp [pad, advance]
  | succ bits induction =>
      have first := overwrite_append written.heap written.rawData ['0'.toUInt8]
        (List.replicate bits '0'.toUInt8)
      rw [pad, induction]
      simp only [put, set, advance, List.replicate_succ, Prefix.mk.injEq, and_true]
      exact ⟨first, Nat.add_right_comm _ 1 bits⟩

section Wrote

variable (heap : Memory UInt8) (start : Nat) (text : List UInt8) (len : Nat)

theorem append_wrote (behind : List UInt8) :
    ({ wrote heap start text len with
        heap := overwrite (wrote heap start text len).heap
          (wrote heap start text len).rawData behind } : Prefix).advance behind.length =
      wrote heap start (text ++ behind) len := by
  simp only [advance, wrote, overwrite_append, List.length_append, Nat.add_assoc]

theorem count_wrote (more : Nat) :
    (wrote heap start text len).count more = wrote heap start text (len + more) := rfl

theorem put_wrote (letter : Char) :
    (wrote heap start text len).put letter =
      wrote heap start (text ++ [letter.toUInt8]) len :=
  append_wrote heap start text len [letter.toUInt8]

theorem memcpy_wrote (count : Nat) (source : List UInt8) :
    ((wrote heap start text len).memcpy count source).advance count =
      wrote heap start (text ++ copied count source) len := by
  have appended := append_wrote heap start text len (copied count source)
  rw [copied_length] at appended
  exact appended

theorem convertInt2Str_wrote (ts : Int) :
    (wrote heap start text len).convertInt2Str ts =
      wrote heap start (text ++ LinePrefix.convertInt2Str ts) len := by
  rw [convertInt2Str, LinePrefix.convertInt2Str]
  split
  · rw [put_wrote, memcpy_wrote, List.append_assoc, List.singleton_append]
  · rw [memcpy_wrote]

/-- The digits stand behind the zeros, although they were written first. -/
theorem nanoseconds_wrote {nano : Nat} (small : nano < 10 ^ 9) :
    (wrote heap start text len).nanoseconds nano =
      wrote heap start (text ++ LinePrefix.nanoseconds nano) (len + 9) := by
  have short := decimal_length_le (by decide) small
  have width := nanoseconds_length small
  have appended := append_wrote heap start text len (LinePrefix.nanoseconds nano)
  have filled (memory : Memory UInt8) (target : Nat) :
      overwrite (overwrite memory (target + 9 - (decimal nano).length) (decimal nano))
          target (List.replicate (9 - (decimal nano).length) '0'.toUInt8) =
        overwrite memory target (LinePrefix.nanoseconds nano) := by
    have behind : target + 9 - (decimal nano).length =
        target + (List.replicate (9 - (decimal nano).length) '0'.toUInt8).length := by
      rw [List.length_replicate]
      omega
    rw [behind, overwrite_append_reverse]
    rfl
  rw [width] at appended
  rw [← count_wrote, ← appended]
  simp only [nanoseconds]
  split
  · rename_i shorter
    rw [pad_eq]
    simp only [advance, filled, Nat.add_assoc]
    rw [Nat.sub_add_cancel short]
  · rename_i full
    have none : 9 - (decimal nano).length = 0 := by omega
    rw [← filled, none]
    simp

end Wrote

end Prefix

/-- The function writes its text, no byte in front of it and none behind, and returns
the length. -/
theorem runTimePrefix_eq (localtime : Nat → Tm) (timestamp : Nat) (heap : Memory UInt8)
    (rawData : Nat) :
    (runTimePrefix localtime timestamp heap rawData).heap =
        overwrite heap rawData (generateTimePrefix localtime timestamp) ∧
      (runTimePrefix localtime timestamp heap rawData).prefixLen = timestampPrefixLen := by
  have small : timestamp % 1000000000 < 10 ^ 9 := Nat.mod_lt _ (by decide)
  have starts : ({ heap := heap, rawData := rawData, prefixLen := 0 } : Prefix) =
      .wrote heap rawData [] 0 := by
    simp [Prefix.wrote]
  simp only [runTimePrefix, starts, Prefix.put_wrote, Prefix.count_wrote,
    Prefix.memcpy_wrote, Prefix.convertInt2Str_wrote, Prefix.nanoseconds_wrote _ _ _ _ small]
  simp only [Prefix.set, Prefix.wrote, Prefix.count, overwrite_append, List.nil_append]
  exact ⟨rfl, rfl⟩

/-! ## Reading the time -/

/-- Four digits for the year and so on, with what stands in front of each. -/
def layout : List Field :=
  [⟨ascii "[", 4⟩, ⟨ascii "-", 2⟩, ⟨ascii "-", 2⟩, ⟨ascii "-", 2⟩, ⟨ascii ":", 2⟩,
    ⟨ascii ":", 2⟩, ⟨ascii ".", 9⟩]

/-- Year, month, day, hour, minute, second and nanosecond. -/
def calendar (now : Tm) (nano : Nat) : List Int :=
  [now.year + 1900, now.mon + 1, now.mday, now.hour, now.min, now.sec, nano]

/-- The fields and the nanoseconds that a prefix tells. -/
def parseTimePrefix (text : List UInt8) : Option (Tm × Nat) :=
  match parse layout text with
  | some ([year, mon, mday, hour, min, sec, nano], rest) =>
      if rest = ascii "]" then
        some ({ sec := sec, min := min, hour := hour, mday := mday, mon := mon - 1,
                year := year - 1900 }, nano)
      else none
  | _ => none

/-- `[YYYY-MM-DD-hh:mm:ss.nnnnnnnnn]`, where `d` stands for a digit. -/
def timeShape : List (Option UInt8) :=
  (ascii "[dddd-dd-dd-dd:dd:dd.ddddddddd]").map
    (fun letter => if letter = 'd'.toUInt8 then none else some letter)

theorem decimal_natCast (number : Nat) :
    decimal number = (Nat.toDigits 10 number).map Char.toUInt8 := by
  change List.map Char.toUInt8 (Nat.repr number).toList = _
  rw [Nat.toList_repr]

theorem digitChar_toUInt8 : ∀ number < 10,
    (Nat.digitChar number).toUInt8 = digit number := by
  decide

theorem digit_mod (number : Nat) : digit (number % 10) = digit number := by
  rw [digit, digit, Nat.mod_mod]

/-- The last digit comes off the end. -/
theorem decimal_eq (number : Nat) :
    decimal number =
      (if number < 10 then [] else decimal ↑(number / 10)) ++ [digit number] := by
  rw [decimal_natCast, Nat.toDigits_eq_if (by decide)]
  split
  · rename_i single
    rw [List.map_singleton, digitChar_toUInt8 number single, List.nil_append]
  · rw [List.map_append, List.map_singleton,
      digitChar_toUInt8 _ (Nat.mod_lt number (by decide)), digit_mod, decimal_natCast]

/-- With zeros in front a number fills its field. -/
theorem padded_decimal {width number : Nat} (positive : 0 < width)
    (small : number < 10 ^ width) :
    List.replicate (width - (decimal number).length) '0'.toUInt8 ++ decimal number =
      fixed width number := by
  induction width generalizing number with
  | zero => cases positive
  | succ width induction =>
      have last := decimal_eq number
      rw [Nat.pow_succ] at small
      split at last
      · rename_i single
        rw [last, fixed, Nat.div_eq_of_lt single, fixed_zero]
        rfl
      · rename_i longer
        have shorter : number / 10 < 10 ^ width := Nat.div_lt_of_lt_mul (by omega)
        have wide : 0 < width := by
          rcases Nat.eq_zero_or_pos width with rfl | wide
          · omega
          · exact wide
        rw [last, fixed, ← induction wide shorter, List.length_append,
          List.length_singleton, Nat.add_sub_add_right, List.append_assoc]

/-- A number that has just the digits of its field needs no zeros. -/
theorem decimal_eq_fixed {width number : Nat} (positive : 0 < width)
    (large : 10 ^ width ≤ number) (small : number < 10 ^ (width + 1)) :
    decimal number = fixed (width + 1) number := by
  have atMost := decimal_length_le (Nat.succ_pos width) small
  have atLeast : ¬(decimal number).length ≤ width := by
    rw [decimal_natCast, List.length_map, Nat.length_toDigits_le_iff (by decide) positive]
    exact Nat.not_lt.mpr large
  have padded := padded_decimal (Nat.succ_pos width) small
  have none : width + 1 - (decimal number).length = 0 := by omega
  rw [← padded, none]
  rfl

theorem copied_decimal {width number : Nat} (positive : 0 < width)
    (large : 10 ^ width ≤ number) (small : number < 10 ^ (width + 1)) :
    copied (width + 1) (decimal number) = fixed (width + 1) number := by
  rw [decimal_eq_fixed positive large small, copied, List.take_left' (fixed_length _ _)]

theorem convertInt2Str_eq {number : Nat} (small : number < 100) :
    convertInt2Str number = fixed 2 number := by
  rw [convertInt2Str]
  split
  · rename_i single
    have last := decimal_eq number
    rw [if_pos (by omega)] at last
    rw [last, fixed, fixed, fixed, Nat.div_eq_of_lt (by omega)]
    rfl
  · exact copied_decimal (by decide) (by omega) (by omega)

theorem nanoseconds_eq {nano : Nat} (small : nano < 10 ^ 9) :
    nanoseconds nano = fixed 9 nano :=
  padded_decimal (by decide) small

/-! ## Fields in their ranges -/

section InRange

variable {now : Tm} {nano : Nat}

theorem fits_calendar (inRange : now.InRange) (small : nano < 10 ^ 9) :
    Fits layout ((calendar now nano).map Int.toNat) := by
  rcases inRange with ⟨year, mon, mday, hour, min, sec⟩
  simp only [layout, calendar, List.map_cons, List.map_nil, List.forall₂_cons,
    List.Forall₂.nil, and_true]
  omega

/-- The text of a time whose fields are in their ranges. -/
theorem generateTimePrefix_eq {localtime : Nat → Tm} {timestamp : Nat}
    (inRange : (localtime (timestamp / 1000000000)).InRange) :
    generateTimePrefix localtime timestamp =
      spell layout ((calendar (localtime (timestamp / 1000000000))
        (timestamp % 1000000000)).map Int.toNat) ++ ascii "]" := by
  simp only [generateTimePrefix]
  generalize localtime (timestamp / 1000000000) = now at inRange ⊢
  rcases inRange with ⟨year, mon, mday, hour, min, sec⟩
  have two {field : Int} (positive : 0 ≤ field) (small : field < 100) :
      convertInt2Str field = fixed 2 field.toNat := by
    rcases Int.eq_ofNat_of_zero_le positive with ⟨number, rfl⟩
    exact convertInt2Str_eq (Int.ofNat_lt.mp small)
  have four : copied 4 (decimal (now.year + 1900)) = fixed 4 (now.year + 1900).toNat := by
    rcases Int.eq_ofNat_of_zero_le (by omega : 0 ≤ now.year + 1900) with ⟨number, equal⟩
    rw [equal]
    exact copied_decimal (by decide) (by omega) (by omega)
  rw [four, two (by omega : 0 ≤ now.mon + 1) (by omega),
    two (by omega : 0 ≤ now.mday) (by omega), two (by omega : 0 ≤ now.hour) (by omega),
    two (by omega : 0 ≤ now.min) (by omega), two (by omega : 0 ≤ now.sec) (by omega),
    nanoseconds_eq (by omega : timestamp % 1000000000 < 10 ^ 9)]
  simp only [layout, calendar, List.map_cons, List.map_nil, spell, List.append_assoc,
    List.nil_append]
  rfl

/-- Lists of numbers that are not negative are ordered as natural numbers. -/
theorem map_toNat_lt_iff {left right : List Int} (leftPos : ∀ number ∈ left, 0 ≤ number)
    (rightPos : ∀ number ∈ right, 0 ≤ number) :
    left.map Int.toNat < right.map Int.toNat ↔ left < right := by
  induction left generalizing right with
  | nil => cases right <;> simp
  | cons first left induction =>
      cases right with
      | nil => simp
      | cons second right =>
          rw [List.forall_mem_cons] at leftPos rightPos
          have smaller : first.toNat < second.toNat ↔ first < second := by omega
          have same : first.toNat = second.toNat ↔ first = second := by omega
          rw [List.map_cons, List.map_cons, List.cons_lt_cons_iff, List.cons_lt_cons_iff,
            induction leftPos.2 rightPos.2, smaller, same]

theorem calendar_pos (inRange : now.InRange) : ∀ field ∈ calendar now nano, 0 ≤ field := by
  rcases inRange with ⟨year, mon, mday, hour, min, sec⟩
  simp only [calendar, List.forall_mem_cons]
  refine ⟨by omega, by omega, by omega, by omega, by omega, by omega, by omega, ?_⟩
  intro field none
  cases none

/-- The time can be read from the text. -/
theorem parseTimePrefix_eq {localtime : Nat → Tm} {timestamp : Nat}
    (inRange : (localtime (timestamp / 1000000000)).InRange) :
    parseTimePrefix (generateTimePrefix localtime timestamp) =
      some (localtime (timestamp / 1000000000), timestamp % 1000000000) := by
  have small : timestamp % 1000000000 < 10 ^ 9 := Nat.mod_lt _ (by decide)
  rw [generateTimePrefix_eq inRange, parseTimePrefix,
    parse_spell (fits_calendar inRange small)]
  generalize localtime (timestamp / 1000000000) = now at inRange ⊢
  rcases now with ⟨sec, min, hour, mday, mon, year⟩
  rcases inRange with ⟨yearRange, monRange, mdayRange, hourRange, minRange, secRange⟩
  simp only [calendar, List.map_cons, List.map_nil, if_true, Option.some.injEq,
    Prod.mk.injEq, Tm.mk.injEq]
  simp only at yearRange monRange mdayRange hourRange minRange secRange
  omega

/-- What a prefix is good for: its length and shape, and the time that it tells. -/
structure TellsTime (localtime : Nat → Tm) (timestamp : Nat) : Prop where
  written : ∀ heap rawData,
    (runTimePrefix localtime timestamp heap rawData).heap =
        overwrite heap rawData (generateTimePrefix localtime timestamp) ∧
      (runTimePrefix localtime timestamp heap rawData).prefixLen = 31
  length : (generateTimePrefix localtime timestamp).length = 31
  shape : HasShape timeShape (generateTimePrefix localtime timestamp)
  parses : parseTimePrefix (generateTimePrefix localtime timestamp) =
    some (localtime (timestamp / 1000000000), timestamp % 1000000000)

theorem tellsTime {localtime : Nat → Tm} {timestamp : Nat}
    (inRange : (localtime (timestamp / 1000000000)).InRange) :
    TellsTime localtime timestamp where
  written := runTimePrefix_eq localtime timestamp
  length := generateTimePrefix_length localtime timestamp
  shape := by
    have fits := fits_calendar inRange (Nat.mod_lt timestamp (by decide))
    rw [generateTimePrefix_eq inRange]
    exact List.rel_append (spell_hasShape fits) (hasShape_lead (ascii "]"))
  parses := parseTimePrefix_eq inRange

end InRange

/-- The text that `generateTimePrefix` writes tells the time, and texts are ordered
as the times that they tell. -/
theorem generateTimePrefix_sorts (localtime : Nat → Tm) (timestamp other : Nat)
    (inRange : (localtime (timestamp / 1000000000)).InRange)
    (otherInRange : (localtime (other / 1000000000)).InRange) :
    let text := generateTimePrefix localtime timestamp
    let otherText := generateTimePrefix localtime other
    let time := calendar (localtime (timestamp / 1000000000)) (timestamp % 1000000000)
    let otherTime := calendar (localtime (other / 1000000000)) (other % 1000000000)
    TellsTime localtime timestamp ∧ (text < otherText ↔ time < otherTime) ∧
      (text = otherText ↔ time = otherTime) := by
  have small (word : Nat) : word % 1000000000 < 10 ^ 9 := Nat.mod_lt _ (by decide)
  refine ⟨tellsTime inRange, ?_, ?_⟩
  · rw [generateTimePrefix_eq inRange, generateTimePrefix_eq otherInRange,
      spell_lt_iff (fits_calendar inRange (small _)) (fits_calendar otherInRange (small _)),
      map_toNat_lt_iff (calendar_pos inRange) (calendar_pos otherInRange)]
  · constructor
    · intro same
      have parsed := parseTimePrefix_eq inRange
      rw [same, parseTimePrefix_eq otherInRange, Option.some.injEq, Prod.mk.injEq]
        at parsed
      rw [parsed.1, parsed.2]
    · intro same
      rw [generateTimePrefix_eq inRange, generateTimePrefix_eq otherInRange, same]

namespace Example

/-- The first day of the epoch. -/
def firstDay (seconds : Nat) : Tm where
  sec := seconds % 60
  min := seconds / 60 % 60
  hour := seconds / 3600 % 24
  mday := 1
  mon := 0
  year := 70

end Example

open Example in
theorem generateTimePrefix_sorts_firstDay :
    TellsTime firstDay 59000000007 ∧
      (generateTimePrefix firstDay 59000000007 < generateTimePrefix firstDay 61000000000 ↔
        calendar (firstDay 59) 7 < calendar (firstDay 61) 0) ∧
      (generateTimePrefix firstDay 59000000007 = generateTimePrefix firstDay 61000000000 ↔
        calendar (firstDay 59) 7 = calendar (firstDay 61) 0) :=
  generateTimePrefix_sorts firstDay 59000000007 61000000000
    (by constructor <;> decide) (by constructor <;> decide)

open Example in
example : generateTimePrefix firstDay 59000000007 =
    ascii "[1970-01-01-00:00:59.000000007]" := by
  decide +kernel

end LinePrefix

end StaticLog
