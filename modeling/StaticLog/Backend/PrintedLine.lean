import StaticLog.Backend.HandedLine
import StaticLog.Frontend.Statement

/-! # The line of a log statement

What `processLogBuffer` hands to `write` for an entry that a log statement has stored:
the prefixes, the text of the direct call of `printf` and a newline. As the length of
the prefixes is counted twice, as many bytes of what the log buffer held before stand
in front of the newline, and `snprintf` may have made the first of them a NUL. -/

namespace StaticLog

open Backend Decoding LinePrefix Memory

theorem ofInt_wrapInt_natCast {word : Nat} (small : word < 2 ^ 31) :
    ofInt (wrapInt word) = word := by
  have wrapped : wrapInt word = word := toInt_of_lt small
  rw [wrapped]
  exact ofInt_natCast (by omega)

/-- Apart from its time, an entry is told by its body. -/
theorem Entry.eq_of_body {entry other : Entry} (same : entry.body = other.body) :
    entry.record = { other.record with timestamp := entry.record.timestamp } ∧
      entry.params = other.params := by
  have fits (entry : Entry) : entry.record.entrySize < 256 ^ 8 := by
    have small := entry.small
    rw [stagingBufferSize] at small
    omega
  have timeless (entry : Entry) : entry.body =
      LittleEndian.bytes 8 entry.record.entrySize ++
        (LittleEndian.bytes 8 entry.record.staticInfo ++
          (LittleEndian.bytes 8 entry.record.paramSize ++ entry.params)) := by
    simp [Entry.body, Entry.block, LogEntry.object]
  rw [timeless entry, timeless other] at same
  rcases List.append_inj same (by simp) with ⟨entrySize, same⟩
  rcases List.append_inj same (by simp) with ⟨staticInfo, same⟩
  rcases List.append_inj same (by simp) with ⟨paramSize, params⟩
  refine ⟨?_, params⟩
  dsimp only
  rw [← LittleEndian.bytes_injective (fits entry) (fits other) entrySize,
    ← LittleEndian.bytes_injective entry.pointersFit.1 other.pointersFit.1 staticInfo,
    ← LittleEndian.bytes_injective entry.pointersFit.2 other.pointersFit.2 paramSize]

/-- What the log buffer holds, counted from its start. -/
def Decoding.Output.held (output : Output) : Memory UInt8 :=
  output.heap.relativeTo output.logBuffer

namespace PrintfCall

/-- The static variables of the statement as the poll thread finds them. In the size
array the entries of strings may be those of another call. -/
structure KnownTo (call : PrintfCall) (env : Environment) : Prop where
  info : env.staticInfo call.statement.staticInfo = call.info
  sizes : ∀ index,
    (call.types.getD index .invalid).value ≤ ParamType.nonString.value →
    (env.paramSize call.statement.paramSize).getD index 0 = call.sizes.getD index 0

/-- What `process_fmt` is told about the arguments. -/
def message (call : PrintfCall) (env : Environment) (params : Memory UInt8) : Message where
  numParams := call.types.length
  paramTypes := call.types
  paramSizes := env.paramSize call.statement.paramSize
  params := params

theorem KnownTo.agrees {call : PrintfCall} {env : Environment} (known : call.KnownTo env)
    (params : Memory UInt8) :
    (call.message env params).Agrees (encodedMessage call.types call.args params) := by
  refine ⟨rfl, rfl, rfl, ?_⟩
  intro index nonString
  exact known.sizes index (Int.not_lt.mp (of_decide_eq_false nonString))

/-- Where the message starts. -/
def start (call : PrintfCall) : Nat :=
  timestampPrefixLen + (generateCallInfoPrefix call.info).length

/-- The prefixes of the line. -/
def prefixes (call : PrintfCall) (env : Environment) (nanotime : Nat) : List UInt8 :=
  generateTimePrefix env.localtime (nanotime % 2 ^ 64) ++ generateCallInfoPrefix call.info

@[simp] theorem prefixes_length (call : PrintfCall) (env : Environment) (nanotime : Nat) :
    (call.prefixes env nanotime).length = call.start := by
  rw [prefixes, List.length_append, generateTimePrefix_length, start]

/-- There is room for the line and for the prefixes once more, and `snprintf` does not
fail for the call. -/
structure PrintsIn (length : Nat) (call : PrintfCall) (libc : Libc) : Prop where
  room : 2 * call.start + (call.text libc).length < length
  small : length < 2 ^ 31
  succeeds : ∀ print ∈ call.prints, print.Succeeds libc

/-- What a log buffer that held these bytes holds behind the text of the call: they have
stayed, or the first is the NUL behind the text. -/
def LeftOver (call : PrintfCall) (libc : Libc) (held : Memory UInt8) (rest : List UInt8) :
    Prop :=
  let before := slice held (call.start + (call.text libc).length) call.start
  rest = before ∨ rest = before.set 0 0

/-- The line of the call at a time, composed in a log buffer that held these bytes. -/
def IsLine (call : PrintfCall) (env : Environment) (nanotime : Nat) (held : Memory UInt8)
    (line : List UInt8) : Prop :=
  ∃ rest, call.LeftOver env.libc held rest ∧
    line = call.prefixes env nanotime ++ call.text env.libc ++ rest ++ ['\n'.toUInt8]

theorem LeftOver.length_eq {call : PrintfCall} {libc : Libc} {held : Memory UInt8}
    {rest : List UInt8} (leftOver : call.LeftOver libc held rest) :
    rest.length = call.start := by
  rcases leftOver with rfl | rfl <;> simp

theorem PrintsIn.prefixLen_eq {length : Nat} {call : PrintfCall} {libc : Libc}
    (fits : call.PrintsIn length libc) : prefixLen call.info = call.start := by
  have room := fits.room
  have small := fits.small
  rw [start] at room ⊢
  rw [prefixLen, callInfoLen, toInt_of_lt (by omega)]
  exact toInt_of_lt (by omega)

/-- What `process_fmt` returns for the call, and what `processLogBuffer` adds to it. -/
theorem PrintsIn.counts {length : Nat} {call : PrintfCall} {libc : Libc}
    (fits : call.PrintsIn length libc) :
    let line := call.start + (call.text libc).length
    toInt line ≠ -1 ∧
      (∀ logBuffer, logBuffer + length < 2 ^ 64 →
        newlinePos call.info (toInt line) logBuffer = logBuffer + (line + call.start)) ∧
      ofInt (wrapInt (prefixLen call.info + toInt line + 1)) = line + call.start + 1 := by
  intro line
  have room := fits.room
  have small := fits.small
  have returned : toInt line = line := toInt_of_lt (by omega)
  have whole : (call.start : Int) + line = (line + call.start : Nat) := by omega
  have counted : ((line + call.start : Nat) : Int) + 1 = (line + call.start + 1 : Nat) := by omega
  rw [fits.prefixLen_eq, returned, whole, counted]
  refine ⟨by omega, ?_, ofInt_wrapInt_natCast (by omega)⟩
  intro logBuffer inSpace
  have starts : call.start =
      timestampPrefixLen + (generateCallInfoPrefix call.info).length := rfl
  rw [newlinePos, callInfoLen, toInt_of_lt (by omega), ofInt_natCast (by omega),
    ofInt_natCast (by omega)]
  simp only [pointerAdd]
  omega

/-- An entry with another time is stored by the same call. -/
theorem Stores.of_body {call : PrintfCall} {entry other : Entry} (stores : call.Stores entry)
    (body : other.body = entry.body) : call.Stores other := by
  rcases stores with ⟨timestamp, stores⟩
  rcases Entry.eq_of_body body with ⟨record, params⟩
  refine ⟨other.record.timestamp, ?_⟩
  simp only [Statement.store] at stores ⊢
  split at stores
  · cases stores
  · split at stores
    · cases stores
    · rcases Prod.mk.inj (Except.ok.inj stores) with ⟨stored, written⟩
      rw [← stored] at record
      rw [params, written, record]

theorem Stores.stamp {call : PrintfCall} {entry : Entry} (stores : call.Stores entry)
    (nanotime : Nat) : call.Stores (entry.stamp nanotime) :=
  stores.of_body (entry.stamp_body nanotime)

end PrintfCall

namespace Backend

section Line

variable {env : Environment} {passes : Nat} {call : PrintfCall} {ring : StagingBuffer}
  {entry : Entry} {later : List Entry} {output : Output}

/-- The arguments lie behind the record. -/
theorem Offers.slice_params (offers : Offers ring entry later) :
    slice ring.storage (ring.consumerPos + LogEntry.size) entry.params.length =
      entry.params := by
  have whole := offers.slice_eq
  rw [offers.frontEntry_eq, entry.sized, slice_add, Entry.block] at whole
  exact (List.append_inj whole (by simp)).2

/-- `process_fmt` is given the entry in front of the buffer and puts its text behind the
prefixes. -/
theorem formatEntry_formats (allocates : env.libc.Allocates) (enough : 0 < passes)
    (known : call.KnownTo env) (offers : Offers ring entry later) (stores : call.Stores entry)
    (placed : output.Placed) (fits : call.PrintsIn output.length env.libc) :
    Formats (call.text env.libc) call.start
      { output with
        heap := overwrite output.heap output.logBuffer
          (generateTimePrefix env.localtime entry.record.timestamp ++
            generateCallInfoPrefix call.info) }
      (formatEntry env passes ring output) := by
  rcases stores.params with ⟨stored, staticInfo, paramSize⟩
  have room := fits.room
  have small := fits.small
  have starts : prefixLen call.info = call.start := fits.prefixLen_eq
  have start : ofInt (prefixLen call.info) = call.start := by
    rw [starts]
    exact ofInt_natCast (by omega)
  have timeLength := generateTimePrefix_length env.localtime entry.record.timestamp
  have pointer : pointerAdd output.logBuffer timestampPrefixLen =
      output.logBuffer + timestampPrefixLen := by
    have inSpace := placed.placed
    rw [PrintfCall.start] at room
    exact pointerAdd_of_lt (by omega)
  obtain ⟨heap, composed⟩ : ∃ heap, heap = overwrite output.heap output.logBuffer
      (generateTimePrefix env.localtime entry.record.timestamp ++
        generateCallInfoPrefix call.info) := ⟨_, rfl⟩
  have called : formatEntry env passes ring output =
      processFmt env.libc passes call.statement.format (call.message env ring.storage)
        (ring.consumerPos + LogEntry.size) { output with heap := heap } call.start := by
    rw [composed, ← overwrite_append, timeLength]
    simp only [formatEntry, offers.frontEntry_eq, staticInfo, paramSize, known.info, start,
      pointer]
    rfl
  have placed' : Output.Placed { output with heap := heap } := ⟨placed.small, placed.placed⟩
  have shorter : call.start + (printfText env.libc (visible call.pieces) call.args).length <
      output.length := by
    rw [PrintfCall.text] at room
    omega
  rw [called, ← composed]
  exact processFmt_prints allocates enough call.spells call.starFree call.short call.reads
    stored (known.agrees ring.storage) offers.slice_params placed' fits.succeeds shorter

/-- The first entry of a staging buffer can be formatted. -/
theorem formatted_prints (allocates : env.libc.Allocates) (enough : 0 < passes)
    (nanotime : Nat) (known : call.KnownTo env) (holds : Holds ring (entry :: later))
    (stores : call.Stores entry) (placed : output.Placed)
    (fits : call.PrintsIn output.length env.libc) :
    ∃ len, formatted env passes nanotime ring output = some len ∧ len ≠ -1 := by
  have stamped := holds.peek_cons.2.stamp nanotime
  have formats := formatEntry_formats allocates enough known stamped (stores.stamp nanotime)
    placed fits
  exact ⟨_, formats.returned, fits.counts.1⟩

/-- The bytes up to a newline that is put behind others. -/
theorem slice_newline (heap : Memory UInt8) (base first second : Nat) :
    slice (overwrite heap (base + (first + second)) ['\n'.toUInt8]) base
        (first + second + 1) =
      slice heap base first ++ slice heap (base + first) second ++ ['\n'.toUInt8] := by
  rw [slice_add, slice_overwrite_of_disjoint _ _ (.inl (Nat.le_refl _)), slice_add]
  congr 1
  exact slice_overwrite_self _ _ _

/-- The stretch behind a text that was stored: it is what it was, but for its first byte,
which may be the NUL of `snprintf`. -/
theorem slice_behind_text {target : Nat} {text : List UInt8} (length : Nat)
    {before after : Memory UInt8} (frame : OnlyText target text before after) :
    slice after (target + text.length) length = slice before (target + text.length) length ∨
      slice after (target + text.length) length =
        (slice before (target + text.length) length).set 0 0 := by
  cases length with
  | zero => exact .inl rfl
  | succ length =>
      have others : slice after (target + text.length + 1) length =
          slice before (target + text.length + 1) length :=
        slice_congr fun address lower _ => frame.outside address (.inr lower)
      rw [slice_succ, slice_succ, others]
      rcases frame.behind with kept | nul
      · exact .inl (by rw [kept])
      · exact .inr (by rw [nul, List.set_cons_zero])

/-- The line that is in the log buffer when the newline has been put behind it. Nothing
else has changed. -/
theorem formats_line {text front : List UInt8} {ended : FmtState × Progress}
    (formats : Formats text front.length
      { output with heap := overwrite output.heap output.logBuffer front } ended) :
    let count := front.length + text.length + front.length
    let after := overwrite ended.1.output.heap (output.logBuffer + count) ['\n'.toUInt8]
    let line := slice after output.logBuffer (count + 1)
    let before := slice output.held (front.length + text.length) front.length
    (∃ rest, (rest = before ∨ rest = before.set 0 0) ∧
      line = front ++ text ++ rest ++ ['\n'.toUInt8]) ∧
    after = overwrite output.heap output.logBuffer line := by
  intro count after line before
  have composed : slice ended.1.output.heap output.logBuffer (front.length + text.length) =
      front ++ text := by
    rw [formats.line]
    exact congrArg (· ++ text) (slice_overwrite_self _ _ _)
  have frame : OnlyText (output.logBuffer + front.length) text
      (overwrite output.heap output.logBuffer front) ended.1.output.heap := formats.frame
  constructor
  · refine ⟨slice ended.1.output.heap (output.logBuffer + (front.length + text.length))
      front.length, ?_, ?_⟩
    · have behind : slice (overwrite output.heap output.logBuffer front)
          (output.logBuffer + (front.length + text.length)) front.length = before := by
        rw [slice_overwrite_of_disjoint _ _ (.inr (by omega))]
        exact (slice_relativeTo _ _ _ _).symm
      have kept := slice_behind_text front.length frame
      rw [Nat.add_assoc, behind] at kept
      exact kept
    · rw [← composed]
      exact slice_newline _ _ _ _
  · apply eq_overwrite_slice
    intro address outside
    have newline : after address = ended.1.output.heap address := by
      rcases outside with below | above
      · exact overwrite_of_lt _ _ (by omega)
      · exact overwrite_of_ge _ _ (by simpa [Nat.add_assoc] using above)
    rw [newline, frame.outside address (by omega)]
    rcases outside with below | above
    · exact overwrite_of_lt _ _ below
    · exact overwrite_of_ge _ _ (by omega)

/-- The first entry of a staging buffer, stored by a call that fits, is handed to `write`
as the line of the call and consumed. The line stays in the log buffer. -/
theorem processLogBuffer_prints (allocates : env.libc.Allocates) (enough : 0 < passes)
    (nanotime : Nat) {outfd : Int} (opened : outfd ≠ -1) (known : call.KnownTo env)
    (holds : Holds ring (entry :: later)) (stores : call.Stores entry)
    (placed : output.Placed) (fits : call.PrintsIn output.length env.libc) :
    ∃ processed line,
      processLogBuffer env passes nanotime outfd ring output = some processed ∧
      processed.output.logBuffer = output.logBuffer ∧
      processed.output.length = output.length ∧
      processed.written = some line ∧ call.IsLine env nanotime output.held line ∧
      processed.output.held = overwrite output.held 0 line ∧
      Holds processed.stagingBuffer later := by
  rcases holds.peek_cons with ⟨available, offers⟩
  have stamped := offers.stamp nanotime
  have stamps := stores.stamp nanotime
  have formats := formatEntry_formats allocates enough known stamped stamps placed fits
  have front : frontEntry (stampEntry nanotime ring.peek.1) =
      (entry.stamp nanotime).record := stamped.frontEntry_eq
  have info : env.staticInfo (entry.stamp nanotime).record.staticInfo = call.info := by
    rw [stamps.params.2.1, known.info]
  rcases fits.counts with ⟨accepted, whole, counted⟩
  have pointer := whole output.logBuffer placed.placed
  have sized : (call.prefixes env nanotime).length = call.start := by simp
  rw [← sized] at formats
  rcases formats_line formats with ⟨⟨rest, leftOver, line⟩, heap⟩
  rw [sized] at formats leftOver line heap
  have sameBuffer : (formatEntry env passes (stampEntry nanotime ring.peek.1)
      output).1.output.logBuffer = output.logBuffer := formats.logBuffer
  have returned := formats.returned
  simp only [processLogBuffer, if_pos available, front, info, returned,
    if_pos (And.intro accepted opened), counted, sameBuffer, pointer]
  refine ⟨_, _, rfl, rfl, formats.length, rfl, ⟨rest, leftOver, line⟩, ?_, stamped.consume⟩
  exact (congrArg (relativeTo · output.logBuffer) heap).trans
    (relativeTo_overwrite output.heap output.logBuffer 0 _)

end Line

namespace Example

/-- The call `STATIC_LOG(kDEBUG, "%s %d", "hi", 7)`. -/
def stringCall : PrintfCall where
  statement :=
    { severity := .debug, format := ascii "%s %d", functionName := ascii "main", line := 9,
      staticInfo := 4096, paramSize := 8192 }
  pieces := Decoding.Example.stringPieces
  args := [Decoding.Example.hi, Decoding.Example.seven]
  spells := ⟨by decide, by decide⟩
  starFree := by decide
  short := by decide
  reads := .cons ⟨rfl, by decide⟩ (.cons (.inl ⟨.inl rfl, .inl (by decide)⟩) .nil)

/-- Another thread has logged a string of 99 characters. The time is that of `nanotime` in
UTC. -/
def stringEnv : Environment :=
  { env stringCall.info with
    localtime := fun _ =>
      { sec := 20, min := 13, hour := 22, mday := 14, mon := 10, year := 123 }
    paramSize := fun _ => [99, 4, 0] }

theorem knownTo_stringEnv : stringCall.KnownTo stringEnv := by
  refine ⟨rfl, ?_⟩
  intro index nonString
  cases index with
  | zero => exact absurd nonString (by decide)
  | succ index => rfl

def stringEntry : Entry where
  record := { timestamp := 1000, entrySize := 42, staticInfo := 4096, paramSize := 8192 }
  params := Decoding.Example.stringBytes
  sized := by decide
  small := by decide
  timestampFits := by decide
  pointersFit := by decide

theorem stores_stringEntry : stringCall.Stores stringEntry := ⟨1000, by decide +kernel⟩

end Example

example :
    ∃ processed line,
      processLogBuffer Example.stringEnv 1 Example.nanotime 4
        (((StagingBuffer.create 0).store Example.stringEntry.block).finishReservation 42)
        Backend.Example.output = some processed ∧
      processed.output.logBuffer = 2 ^ 20 ∧ processed.output.length = 2 ^ 20 ∧
      processed.written = some line ∧
      Example.stringCall.IsLine Example.stringEnv Example.nanotime Example.output.held line ∧
      processed.output.held = overwrite Example.output.held 0 line ∧
      Holds processed.stagingBuffer [] := by
  have holds := (holds_create 0).commit (StagingBuffer.FreeSpaceSound.create 0)
    Example.stringEntry (by decide)
  exact processLogBuffer_prints Decoding.Example.sample_allocates (Nat.le_refl 1) _
    (by decide) Example.knownTo_stringEnv holds Example.stores_stringEntry
    ⟨by decide, by decide⟩
    ⟨by decide +kernel, by decide, fun print _ => Decoding.Example.succeeds_sample print⟩

end Backend

end StaticLog
