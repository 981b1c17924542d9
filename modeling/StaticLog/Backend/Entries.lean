import StaticLog.Backend.ProcessLogBuffer
import StaticLog.StagingBuffer.Layout

/-! # The entries that a staging buffer holds

The blocks in a staging buffer are the entries that log calls have committed.
What the operations of the logging thread and of the poll thread do to the buffer
is said here in terms of the list of its entries. -/

namespace StaticLog.Backend

open Memory StagingBuffer Decoding

/-- What a log call puts into a staging buffer: a record with the size of the
whole, and the encoded arguments. -/
structure Entry where
  record : LogEntry
  params : List UInt8
  sized : record.entrySize = LogEntry.size + params.length
  small : record.entrySize < stagingBufferSize
  timestampFits : record.timestamp < 2 ^ 64
  pointersFit : record.staticInfo < 2 ^ 64 ∧ record.paramSize < 2 ^ 64

namespace Entry

def block (entry : Entry) : Block := entry.record.object ++ entry.params

/-- What the entry says apart from its time. -/
def body (entry : Entry) : List UInt8 := entry.block.drop 8

/-- The entry with the time at which it is processed. -/
def stamp (nanotime : Nat) (entry : Entry) : Entry where
  record := { entry.record with timestamp := nanotime % 2 ^ 64 }
  params := entry.params
  sized := entry.sized
  small := entry.small
  timestampFits := Nat.mod_lt _ (by decide)
  pointersFit := entry.pointersFit

@[simp] theorem block_length (entry : Entry) :
    entry.block.length = entry.record.entrySize := by
  simp [block, entry.sized]

theorem block_ne_nil (entry : Entry) : entry.block ≠ [] := by
  rw [← List.length_pos_iff, block_length, entry.sized, LogEntry.size]
  omega

theorem block_eq (entry : Entry) :
    entry.block = LittleEndian.bytes 8 entry.record.timestamp ++ entry.body := by
  simp [body, block, LogEntry.object]

@[simp] theorem stamp_body (nanotime : Nat) (entry : Entry) :
    (entry.stamp nanotime).body = entry.body := by
  simp [body, block, LogEntry.object, stamp]

theorem bytes_mod (nanotime : Nat) :
    LittleEndian.bytes 8 (nanotime % 2 ^ 64) = LittleEndian.bytes 8 nanotime := by
  have same := LittleEndian.bytes_value (LittleEndian.bytes 8 nanotime)
  rw [LittleEndian.bytes_length, LittleEndian.value_bytes] at same
  exact same

theorem stamp_block (nanotime : Nat) (entry : Entry) :
    (entry.stamp nanotime).block =
      LittleEndian.bytes 8 nanotime ++ entry.block.drop 8 := by
  rw [block_eq, stamp_body, body, stamp, bytes_mod]

end Entry

/-- The record is read back from where its bytes lie. -/
theorem load_eq {memory : Memory UInt8} {position : Nat} {entry : Entry}
    (stored : slice memory position entry.block.length = entry.block) :
    LogEntry.load memory position = entry.record := by
  let fields := [LittleEndian.bytes 8 entry.record.timestamp,
    LittleEndian.bytes 8 entry.record.entrySize,
    LittleEndian.bytes 8 entry.record.staticInfo,
    LittleEndian.bytes 8 entry.record.paramSize, entry.params]
  have flat : fields.flatten = entry.block := by
    simp [fields, Entry.block, LogEntry.object]
  have laid : Laid memory position fields (position + fields.flatten.length) := by
    apply Laid.of_slice
    rw [flat]
    exact stored
  simp only [fields, Laid.cons_iff, LittleEndian.bytes_length] at laid
  rcases laid with ⟨timestamp, entrySize, staticInfo, paramSize, _⟩
  have sizeFits : entry.record.entrySize < 256 ^ 8 := by
    have small := entry.small
    rw [stagingBufferSize] at small
    omega
  simp only [LogEntry.load, LogEntry.readField, timestamp, entrySize]
  rw [staticInfo, paramSize, LittleEndian.value_bytes_of_lt entry.timestampFits,
    LittleEndian.value_bytes_of_lt sizeFits,
    LittleEndian.value_bytes_of_lt entry.pointersFit.1,
    LittleEndian.value_bytes_of_lt entry.pointersFit.2]

/-- The staging buffer holds these entries, oldest first. -/
def Holds (ring : StagingBuffer) (entries : List Entry) : Prop :=
  ∃ back front, Layout ring back front ∧ back ++ front = entries.map Entry.block

/-- The consumer stands at an entry; others are behind it. -/
def Offers (ring : StagingBuffer) (entry : Entry) (later : List Entry) : Prop :=
  ∃ back front, Layout ring (entry.block :: back) front ∧
    back ++ front = later.map Entry.block

variable {ring : StagingBuffer} {entries later : List Entry} {entry : Entry}

/-! ## The logging thread -/

theorem holds_create (bufferId : Nat) : Holds (create bufferId) [] :=
  ⟨[], [], Layout.create bufferId, rfl⟩

theorem Holds.congr {changed : StagingBuffer} (holds : Holds ring entries)
    (producerPos : changed.producerPos = ring.producerPos)
    (consumerPos : changed.consumerPos = ring.consumerPos)
    (endOfRecordedSpace : changed.endOfRecordedSpace = ring.endOfRecordedSpace)
    (storage : changed.storage = ring.storage) : Holds changed entries := by
  rcases holds with ⟨back, front, layout, blocks⟩
  exact ⟨back, front,
    layout.congr producerPos consumerPos (fun _ => endOfRecordedSpace) storage, blocks⟩

theorem Holds.reservePass (holds : Holds ring entries) (nbytes : Nat) :
    Holds (ring.reservePass nbytes) entries := by
  rcases holds with ⟨back, front, layout, blocks⟩
  exact ⟨back, front, layout.reservePass nbytes, blocks⟩

theorem Holds.freeSpaceSound (holds : Holds ring entries) (nbytes : Nat) :
    FreeSpaceSound (ring.reservePass nbytes) := by
  rcases holds with ⟨back, front, layout, _⟩
  exact FreeSpaceSound.reservePass layout nbytes

/-- A log call commits its entry behind all others. -/
theorem Holds.commit (holds : Holds ring entries) (sound : FreeSpaceSound ring)
    (entry : Entry) (granted : entry.record.entrySize < ring.minFreeSpace) :
    Holds ((ring.store entry.block).finishReservation entry.record.entrySize)
      (entries ++ [entry]) := by
  rcases holds with ⟨back, front, layout, blocks⟩
  rw [← entry.block_length] at granted ⊢
  have stored := layout.store sound granted
  have soundStored : FreeSpaceSound (ring.store entry.block) :=
    sound.congr rfl rfl rfl
  rcases stored.finishReservation soundStored granted entry.block_ne_nil
      (Layout.slice_store ring entry.block) with ⟨ahead, finished⟩ | ⟨_, finished⟩
  · have empty := (layout.flat ahead).2
    refine ⟨_, _, finished, ?_⟩
    rw [List.map_append, ← blocks, empty]
    simp
  · refine ⟨_, _, finished, ?_⟩
    rw [List.map_append, ← blocks]
    simp

/-! ## The poll thread -/

theorem Offers.holds (offers : Offers ring entry later) :
    Holds ring (entry :: later) := by
  rcases offers with ⟨back, front, layout, blocks⟩
  exact ⟨_, front, layout, by simp [blocks]⟩

theorem Holds.peek_nil (holds : Holds ring []) :
    ring.peek.2 = 0 ∧ Holds ring.peek.1 [] ∧
      ring.peek.1.consumerPos = ring.peek.1.producerPos := by
  rcases holds with ⟨back, front, layout, blocks⟩
  rcases layout.peek with ⟨none, _, after, meet⟩ | ⟨_, block, _, _, split, _⟩
  · exact ⟨none, ⟨[], [], after, rfl⟩, meet⟩
  · rw [split] at blocks
    cases blocks

theorem Holds.peek_cons (holds : Holds ring (entry :: later)) :
    0 < ring.peek.2 ∧ Offers ring.peek.1 entry later := by
  rcases holds with ⟨back, front, layout, blocks⟩
  rcases layout.peek with ⟨_, empty, _⟩ | ⟨some, block, rest, behind, split, after⟩
  · rw [empty] at blocks
    cases blocks
  · rw [split, List.map_cons, List.cons_append] at blocks
    rcases List.cons.inj blocks with ⟨rfl, rest⟩
    exact ⟨some, _, _, after, rest⟩

theorem Holds.peek (holds : Holds ring entries) : Holds ring.peek.1 entries := by
  cases entries with
  | nil => exact holds.peek_nil.2.1
  | cons entry later => exact holds.peek_cons.2.holds

theorem Offers.frontEntry_eq (offers : Offers ring entry later) :
    frontEntry ring = entry.record := by
  rcases offers with ⟨_, _, layout, _⟩
  exact load_eq layout.slice_head

/-- The bytes of the entry in front. -/
theorem Offers.slice_eq (offers : Offers ring entry later) :
    slice ring.storage ring.consumerPos (frontEntry ring).entrySize = entry.block := by
  rw [offers.frontEntry_eq, ← entry.block_length]
  rcases offers with ⟨_, _, layout, _⟩
  exact layout.slice_head

theorem Offers.stamp (offers : Offers ring entry later) (nanotime : Nat) :
    Offers (stampEntry nanotime ring) (entry.stamp nanotime) later := by
  rcases offers with ⟨back, front, layout, blocks⟩
  have within : (LittleEndian.bytes 8 nanotime).length ≤ entry.block.length := by
    rw [LittleEndian.bytes_length, entry.block_length, entry.sized, LogEntry.size]
    omega
  have stamped := layout.overwriteHead within
  rw [LittleEndian.bytes_length, ← entry.stamp_block] at stamped
  exact ⟨back, front, stamped, blocks⟩

theorem Offers.consume (offers : Offers ring entry later) :
    Holds (ring.consume entry.record.entrySize) later := by
  rcases offers with ⟨back, front, layout, blocks⟩
  have consumed := layout.consume
  rw [entry.block_length] at consumed
  exact ⟨back, front, consumed, blocks⟩

/-- The three outcomes of `processLogBuffer`: nothing to do, an entry that stays, and
an entry that was handed to `write` and consumed. -/
theorem processLogBuffer_cases {env : Environment} {passes nanotime : Nat} {outfd : Int}
    {output : Output} {processed : Processed}
    (ran : processLogBuffer env passes nanotime outfd ring output = some processed) :
    (ring.peek.2 = 0 ∧ processed.written = none ∧
        processed.stagingBuffer = ring.peek.1) ∨
      (0 < ring.peek.2 ∧ processed.written = none ∧
        processed.stagingBuffer = stampEntry nanotime ring.peek.1) ∨
      (0 < ring.peek.2 ∧ outfd ≠ -1 ∧ (∃ line, processed.written = some line) ∧
        processed.stagingBuffer = (stampEntry nanotime ring.peek.1).consume
          (frontEntry (stampEntry nanotime ring.peek.1)).entrySize) := by
  simp only [processLogBuffer] at ran
  split at ran
  · rename_i some
    split at ran
    · cases ran
    · split at ran
      · rename_i accepted
        rw [← Option.some.inj ran]
        exact .inr (.inr ⟨some, accepted.2, ⟨_, rfl⟩, rfl⟩)
      · rw [← Option.some.inj ran]
        exact .inr (.inl ⟨some, rfl, rfl⟩)
  · rename_i none
    rw [← Option.some.inj ran]
    exact .inl ⟨Nat.eq_zero_of_not_pos none, rfl, rfl⟩

/-- The poll thread leaves the producer's part of the buffer as it is. -/
theorem processed_frame {env : Environment} {passes nanotime : Nat} {outfd : Int}
    {output : Output} {processed : Processed}
    (ran : processLogBuffer env passes nanotime outfd ring output = some processed) :
    processed.stagingBuffer.shouldDeallocate = ring.shouldDeallocate ∧
      processed.stagingBuffer.minFreeSpace = ring.minFreeSpace := by
  rcases processLogBuffer_cases ran with ⟨_, _, same⟩ | ⟨_, _, same⟩ | ⟨_, _, _, same⟩
  all_goals
    rw [same]
    constructor <;>
      simp only [stampEntry, StagingBuffer.consume, peek_shouldDeallocate,
        peek_minFreeSpace]

/-- What `process_fmt` returns for the first entry. -/
def formatted (env : Environment) (passes nanotime : Nat) (ring : StagingBuffer)
    (output : Output) : Option Int :=
  let result := formatEntry env passes (stampEntry nanotime ring.peek.1) output
  returned result.1 result.2

/-- An entry that can be formatted is handed to `write`. -/
theorem processLogBuffer_of_formatted {env : Environment} {passes nanotime : Nat}
    {outfd : Int} {output : Output} {len : Int} (available : 0 < ring.peek.2)
    (formats : formatted env passes nanotime ring output = some len)
    (accepted : len ≠ -1) (valid : outfd ≠ -1) :
    ∃ processed line,
      processLogBuffer env passes nanotime outfd ring output = some processed ∧
      processed.written = some line := by
  simp only [formatted] at formats
  simp only [processLogBuffer, if_pos available, formats, if_pos (And.intro accepted valid)]
  exact ⟨_, _, rfl, rfl⟩

/-- The entry in front is still there, with another time, or it was written and
consumed. -/
theorem Holds.processed {env : Environment} {passes nanotime : Nat} {outfd : Int}
    {output : Output} {processed : Processed} (holds : Holds ring (entry :: later))
    (ran : processLogBuffer env passes nanotime outfd ring output = some processed) :
    (processed.written = none ∧
        Holds processed.stagingBuffer (entry.stamp nanotime :: later)) ∨
      ((∃ line, processed.written = some line) ∧
        Holds processed.stagingBuffer later) := by
  rcases holds.peek_cons with ⟨available, offers⟩
  have stamped := offers.stamp nanotime
  rcases processLogBuffer_cases ran with ⟨none, _⟩ | ⟨_, written, stays⟩ |
      ⟨_, _, written, consumed⟩
  · exact absurd none (Nat.ne_of_gt available)
  · rw [stays]
    exact .inl ⟨written, stamped.holds⟩
  · rw [consumed, stamped.frontEntry_eq]
    exact .inr ⟨written, stamped.consume⟩

theorem Offers.consume_space (offers : Offers ring entry later)
    (sound : FreeSpaceSound ring) :
    FreeSpaceSound (ring.consume entry.record.entrySize) := by
  rcases offers with ⟨back, front, layout, _⟩
  rw [← entry.block_length]
  exact FreeSpaceSound.consume sound layout

/-- The poll thread leaves the free-space bound of the producer sound. -/
theorem Holds.processed_space {env : Environment} {passes nanotime : Nat} {outfd : Int}
    {output : Output} {processed : Processed} (holds : Holds ring entries)
    (sound : FreeSpaceSound ring)
    (ran : processLogBuffer env passes nanotime outfd ring output = some processed) :
    FreeSpaceSound processed.stagingBuffer := by
  have stamped : FreeSpaceSound (stampEntry nanotime ring.peek.1) :=
    sound.peek.congr rfl rfl rfl
  rcases processLogBuffer_cases ran with ⟨_, _, same⟩ | ⟨_, _, same⟩ |
      ⟨available, _, _, same⟩
  · rw [same]
    exact sound.peek
  · rw [same]
    exact stamped
  · cases entries with
    | nil => exact absurd holds.peek_nil.1 (Nat.ne_of_gt available)
    | cons entry later =>
        have offers := holds.peek_cons.2.stamp nanotime
        rw [same, offers.frontEntry_eq]
        exact offers.consume_space stamped

/-- A buffer holds one list of blocks only. -/
theorem Holds.unique {others : List Entry} (holds : Holds ring entries)
    (also : Holds ring others) : others.map Entry.block = entries.map Entry.block := by
  induction entries generalizing ring others with
  | nil =>
      cases others with
      | nil => rfl
      | cons other rest => exact absurd holds.peek_nil.1 (Nat.ne_of_gt also.peek_cons.1)
  | cons entry later induction =>
      cases others with
      | nil => exact absurd also.peek_nil.1 (Nat.ne_of_gt holds.peek_cons.1)
      | cons other rest =>
          have offers := holds.peek_cons.2
          have offersAlso := also.peek_cons.2
          have same : other.block = entry.block :=
            offersAlso.slice_eq.symm.trans offers.slice_eq
          have consumed := offersAlso.consume
          rw [← other.block_length, same, entry.block_length] at consumed
          rw [List.map_cons, List.map_cons, same, induction offers.consume consumed]

/-- A buffer that may be deleted holds no entry. -/
theorem Holds.eq_nil_of_checkCanDelete (holds : Holds ring entries)
    (deletable : ring.checkCanDelete = true) : entries = [] := by
  rcases holds with ⟨back, front, layout, blocks⟩
  simp only [checkCanDelete, Bool.and_eq_true, beq_iff_eq] at deletable
  have region := layout.flat deletable.2.le
  have nothing : back = [] := by
    apply Laid.eq_nil_of_start_eq (deletable.2 ▸ region.1)
    intro block member
    exact layout.solid block (by simp [member])
  rw [nothing, region.2] at blocks
  exact List.map_eq_nil_iff.mp blocks.symm

end StaticLog.Backend
