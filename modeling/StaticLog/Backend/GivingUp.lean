import StaticLog.Backend.Entries
import StaticLog.Backend.HandedLine

/-! # When an entry is given up

`processLogBuffer` stamps the entry in front before it knows whether the line can
be written, and consumes the entry without a look at what `write` returned. -/

namespace StaticLog.Backend

open Memory StagingBuffer LinePrefix Decoding

/-- `write` returned the number of bytes of the line that it was handed. -/
def Accepted (processed : Processed) (wrote : Int) : Prop :=
  ∃ line, processed.written = some line ∧ wrote = line.length

/-- The consumer passes the entry in front only if `write` accepted its line;
otherwise the staging buffer is as before. -/
structure GivesUpOnlyWritten (ring : StagingBuffer) (processed : Processed) (wrote : Int) :
    Prop where
  consumes : processed.stagingBuffer.consumerPos ≠ ring.peek.1.consumerPos →
    Accepted processed wrote
  spares : ¬Accepted processed wrote → processed.stagingBuffer = ring

/-- The number of bytes in the call of `write`, for what `process_fmt` returned. -/
def writeCount (env : Environment) (nanotime : Nat) (ring : StagingBuffer) (len : Int) :
    Nat :=
  ofInt (wrapInt (prefixLen (frontInfo env (stampEntry nanotime ring.peek.1)) + len + 1))

/-- `write` is called for so many bytes. -/
def Hands (env : Environment) (passes nanotime : Nat) (outfd : Int) (ring : StagingBuffer)
    (output : Output) (count : Nat) : Prop :=
  0 < ring.peek.2 ∧ outfd ≠ -1 ∧
    ∃ len, formatted env passes nanotime ring output = some len ∧ len ≠ -1 ∧
      count = writeCount env nanotime ring len

/-- There is nothing in the staging buffer that the call could spoil: `peek` does not
roll over, the entry in front already has the time of the call, and one that is handed
to `write` has no size. -/
structure Unspoiled (env : Environment) (passes nanotime : Nat) (outfd : Int)
    (ring : StagingBuffer) (output : Output) : Prop where
  peeked : ring.peek.1 = ring
  timestamp : 0 < ring.peek.2 → (frontEntry ring).timestamp = nanotime % 2 ^ 64
  entrySize : ∀ count, Hands env passes nanotime outfd ring output count →
    (frontEntry ring).entrySize = 0

variable {env : Environment} {passes nanotime : Nat} {outfd : Int} {ring : StagingBuffer}
  {output : Output} {processed : Processed} {wrote : Int}

/-! ## What is done to the entry in front -/

theorem stampEntry_eq_self_iff (nanotime : Nat) (ring : StagingBuffer) :
    stampEntry nanotime ring = ring ↔ (frontEntry ring).timestamp = nanotime % 2 ^ 64 := by
  have storage : stampEntry nanotime ring = ring ↔
      overwrite ring.storage ring.consumerPos (LittleEndian.bytes 8 nanotime) =
        ring.storage := by
    constructor
    · exact congrArg StagingBuffer.storage
    · intro same
      simp only [stampEntry, LogEntry.storeTimestamp, same]
  rw [storage, overwrite_eq_self_iff, LittleEndian.bytes_length]
  simp only [frontEntry, LogEntry.load, LogEntry.readField]
  constructor
  · intro stored
    rw [stored, LittleEndian.value_bytes, ← Nat.pow_mul 2 8 8]
  · intro value
    have bytes := LittleEndian.bytes_value (slice ring.storage ring.consumerPos 8)
    rw [slice_length, value, Entry.bytes_mod] at bytes
    exact bytes.symm

/-- The time lies in front of the size of the entry. -/
theorem frontEntry_stampEntry_entrySize (nanotime : Nat) (ring : StagingBuffer) :
    (frontEntry (stampEntry nanotime ring)).entrySize = (frontEntry ring).entrySize := by
  have apart : ring.consumerPos + 8 + 8 ≤ ring.consumerPos ∨
      ring.consumerPos + (LittleEndian.bytes 8 nanotime).length ≤ ring.consumerPos + 8 :=
    .inr (by rw [LittleEndian.bytes_length])
  simp only [frontEntry, stampEntry, LogEntry.load, LogEntry.readField,
    LogEntry.storeTimestamp]
  rw [slice_overwrite_of_disjoint _ _ apart]

/-- `peek` changes the consumer position only. -/
theorem peek_eq_self (same : ring.peek.1.consumerPos = ring.consumerPos) :
    ring.peek.1 = ring := by
  have cases : ring.peek.1 = ring ∨ ring.peek.1 = ring.rollOver := by
    simp only [peek]
    split_ifs <;> simp
  rcases cases with stands | rolled
  · exact stands
  · rw [rolled] at same ⊢
    simp only [rollOver] at same ⊢
    rw [same]

theorem stampEntry_peek_eq_iff :
    stampEntry nanotime ring.peek.1 = ring ↔
      ring.peek.1 = ring ∧ (frontEntry ring).timestamp = nanotime % 2 ^ 64 := by
  constructor
  · intro same
    have peeked : ring.peek.1 = ring :=
      peek_eq_self (congrArg StagingBuffer.consumerPos same :)
    rw [peeked, stampEntry_eq_self_iff] at same
    exact ⟨peeked, same⟩
  · rintro ⟨peeked, timestamp⟩
    rw [peeked, stampEntry_eq_self_iff]
    exact timestamp

/-! ## The three outcomes -/

theorem hands_unique {left right : Nat} (one : Hands env passes nanotime outfd ring output left)
    (other : Hands env passes nanotime outfd ring output right) : left = right := by
  rcases one with ⟨_, _, len, formats, _, leftCount⟩
  rcases other with ⟨_, _, other, again, _, rightCount⟩
  have same : len = other := Option.some.inj (formats.symm.trans again)
  rw [leftCount, rightCount, same]

/-- The outcomes of `processLogBuffer`, told by what `process_fmt` returns. -/
theorem processLogBuffer_outcomes
    (ran : processLogBuffer env passes nanotime outfd ring output = some processed) :
    (ring.peek.2 = 0 ∧ processed.written = none ∧
        processed.stagingBuffer = ring.peek.1) ∨
      (0 < ring.peek.2 ∧ (∀ count, ¬Hands env passes nanotime outfd ring output count) ∧
        processed.written = none ∧
        processed.stagingBuffer = stampEntry nanotime ring.peek.1) ∨
      (∃ line, Hands env passes nanotime outfd ring output line.length ∧
        processed.written = some line ∧
        processed.stagingBuffer = (stampEntry nanotime ring.peek.1).consume
          (frontEntry ring.peek.1).entrySize) := by
  simp only [processLogBuffer] at ran
  split at ran
  · rename_i available
    split at ran
    · cases ran
    · rename_i len given
      have formats : formatted env passes nanotime ring output = some len := given
      split at ran
      · rename_i accepted
        rw [← Option.some.inj ran, frontEntry_stampEntry_entrySize]
        refine .inr (.inr ⟨_, ⟨available, accepted.2, len, formats, accepted.1, ?_⟩,
          rfl, rfl⟩)
        rw [slice_length, writeCount, frontInfo]
      · rename_i refused
        rw [← Option.some.inj ran]
        refine .inr (.inl ⟨available, ?_, rfl, rfl⟩)
        rintro count ⟨_, valid, other, again, accepted, _⟩
        have same : len = other := Option.some.inj (formats.symm.trans again)
        exact refused ⟨same ▸ accepted, valid⟩
  · rename_i none
    rw [← Option.some.inj ran]
    exact .inl ⟨Nat.eq_zero_of_not_pos none, rfl, rfl⟩

theorem accepted_iff
    (ran : processLogBuffer env passes nanotime outfd ring output = some processed) :
    Accepted processed wrote ↔
      ∃ count : Nat, Hands env passes nanotime outfd ring output count ∧ wrote = count := by
  rcases processLogBuffer_outcomes ran with ⟨none, written, _⟩ | ⟨_, silent, written, _⟩ |
      ⟨line, hands, written, _⟩ <;> simp only [Accepted, written]
  · simp [Hands, none]
  · simp [silent]
  · constructor
    · rintro ⟨_, same, count⟩
      cases same
      exact ⟨_, hands, count⟩
    · rintro ⟨count, again, wrote⟩
      rw [hands_unique again hands] at wrote
      exact ⟨line, rfl, wrote⟩

/-- The staging buffer is as before just if there was nothing to spoil. -/
theorem spared_iff
    (ran : processLogBuffer env passes nanotime outfd ring output = some processed) :
    (processed.stagingBuffer.consumerPos = ring.peek.1.consumerPos ∧
        processed.stagingBuffer = ring) ↔
      Unspoiled env passes nanotime outfd ring output := by
  rcases processLogBuffer_outcomes ran with ⟨none, _, after⟩ |
      ⟨available, silent, _, after⟩ | ⟨line, hands, _, after⟩ <;> rw [after]
  · constructor
    · rintro ⟨_, peeked⟩
      exact ⟨peeked, fun available => absurd none (Nat.ne_of_gt available),
        fun _ hands => absurd none (Nat.ne_of_gt hands.1)⟩
    · intro unspoiled
      exact ⟨rfl, unspoiled.peeked⟩
  · rw [stampEntry_peek_eq_iff]
    constructor
    · rintro ⟨_, peeked, timestamp⟩
      exact ⟨peeked, fun _ => timestamp, fun count hands => absurd hands (silent count)⟩
    · intro unspoiled
      exact ⟨rfl, unspoiled.peeked, unspoiled.timestamp available⟩
  · have nothing : ∀ buffer : StagingBuffer, buffer.consume 0 = buffer := fun _ => rfl
    constructor
    · rintro ⟨stands, same⟩
      have size : (frontEntry ring.peek.1).entrySize = 0 := Nat.add_eq_left.mp stands
      rw [size, nothing, stampEntry_peek_eq_iff] at same
      rw [same.1] at size
      exact ⟨same.1, fun _ => same.2, fun _ _ => size⟩
    · intro unspoiled
      have size := unspoiled.entrySize _ hands
      rw [← unspoiled.peeked] at size
      rw [size, nothing, stampEntry_peek_eq_iff]
      exact ⟨rfl, unspoiled.peeked, unspoiled.timestamp hands.1⟩

/-- An entry is given up for its line, and left alone otherwise, just if `write` takes
all that it is handed, or if there is nothing to spoil. -/
theorem givesUpOnlyWritten_iff
    (ran : processLogBuffer env passes nanotime outfd ring output = some processed) :
    GivesUpOnlyWritten ring processed wrote ↔
      (∃ count : Nat, Hands env passes nanotime outfd ring output count ∧ wrote = count) ∨
        Unspoiled env passes nanotime outfd ring output := by
  rw [← accepted_iff ran, ← spared_iff ran]
  constructor
  · intro gives
    by_cases accepted : Accepted processed wrote
    · exact .inl accepted
    · refine .inr ⟨?_, gives.spares accepted⟩
      by_contra moved
      exact accepted (gives.consumes moved)
  · rintro (accepted | ⟨stands, same⟩)
    · exact ⟨fun _ => accepted, fun refused => absurd accepted refused⟩
    · exact ⟨fun moved => absurd stands moved, fun _ => same⟩

/-- `write` takes the 97 bytes that it is handed for the message `hi`. -/
theorem givesUpOnlyWritten_hi :
    ∃ processed,
      processLogBuffer (Example.env Example.hi) 3 Example.nanotime 4 (Example.staged [])
        Example.output = some processed ∧
      (GivesUpOnlyWritten (Example.staged []) processed 97 ↔
        (∃ count : Nat, Hands (Example.env Example.hi) 3 Example.nanotime 4
          (Example.staged []) Example.output count ∧ (97 : Int) = count) ∨
        Unspoiled (Example.env Example.hi) 3 Example.nanotime 4 (Example.staged [])
          Example.output) := by
  have returns : (processLogBuffer (Example.env Example.hi) 3 Example.nanotime 4
      (Example.staged []) Example.output).isSome = true := by decide +kernel
  rcases Option.isSome_iff_exists.mp returns with ⟨processed, ran⟩
  exact ⟨processed, ran, givesUpOnlyWritten_iff ran⟩

/-- The entry is consumed although `write` failed. -/
theorem not_givesUpOnlyWritten_hi :
    ∃ processed,
      processLogBuffer (Example.env Example.hi) 3 Example.nanotime 4 (Example.staged [])
        Example.output = some processed ∧
      ¬GivesUpOnlyWritten (Example.staged []) processed (-1) := by
  have consumes : (processLogBuffer (Example.env Example.hi) 3 Example.nanotime 4
      (Example.staged []) Example.output).map (·.stagingBuffer.consumerPos) = some 32 := by
    decide +kernel
  rcases Option.map_eq_some_iff.mp consumes with ⟨processed, ran, consumerPos⟩
  refine ⟨processed, ran, ?_⟩
  intro gives
  have refused : ¬Accepted processed (-1) := by
    rintro ⟨line, _, count⟩
    omega
  rw [gives.spares refused] at consumerPos
  exact absurd consumerPos (by decide)

end StaticLog.Backend
