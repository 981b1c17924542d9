import Mathlib.Logic.Function.Basic
import StaticLog.Backend.Entries

/-! # The poll thread

`ioPoll`, one step at a time: the loop condition, the scan over the registered
staging buffers, which deletes those that are done with, and the entry that is
written out. -/

namespace StaticLog.Backend

open Memory StagingBuffer Decoding

/-- A path, as it is given to `open`. -/
abbrev File := List UInt8

/-- A call of `write`: the staging buffer whose first entry it is for, the bytes of
that entry before `processLogBuffer` stamped it, the file and the bytes handed over. -/
structure Write where
  ring : Nat
  entry : Block
  file : Option File
  line : List UInt8

/-- The members of `StaticLogBackend` that the poll thread uses, the staging buffers,
which are numbered in the order of their allocation, and the open files. The buffers
that were deleted and the calls of `write` are recorded. -/
structure Logger where
  rings : Nat → StagingBuffer
  threadBuffers : List Nat
  deleted : List Nat
  isStop : Bool
  isExit : Bool
  outfd : Int
  files : Int → Option File
  output : Output
  writes : List Write

/-- `earliest_thead_buffer`. -/
structure Earliest where
  timestamp : Nat
  ring : Option Nat
  deriving DecidableEq

/-- `UINT64_MAX`. -/
def uint64Max : Nat := 2 ^ 64 - 1

/-- Where the poll thread is in `ioPoll`. -/
inductive PollPhase
  /-- `buffer_mutex_` has not been locked yet. -/
  | starting
  /-- At the loop condition. -/
  | guard
  /-- Between `unlock` and `lock`. -/
  | unlocked
  | scanning (i : Nat) (earliest : Earliest)
  | scanned (earliest : Earliest)
  /-- In `wait_for`. -/
  | waiting
  | exited
  deriving DecidableEq

/-- Whether the poll thread holds `buffer_mutex_`. -/
def PollPhase.locks : PollPhase → Bool
  | .guard => true
  | .scanning _ _ => true
  | .scanned _ => true
  | _ => false

structure Poll where
  phase : PollPhase
  logger : Logger

namespace Logger

def setRing (ring : Nat) (stagingBuffer : StagingBuffer) (logger : Logger) : Logger :=
  { logger with rings := Function.update logger.rings ring stagingBuffer }

/-- `delete thread_buffer; thread_buffers_.erase(thread_buffers_.begin() + i)`. -/
def deleteBuffer (i ring : Nat) (logger : Logger) : Logger :=
  { logger with
    threadBuffers := logger.threadBuffers.eraseIdx i
    deleted := logger.deleted ++ [ring] }

/-- `processLogBuffer` has returned. -/
def finish (ring : Nat) (processed : Processed) (logger : Logger) : Logger :=
  let peeked := (logger.rings ring).peek.1
  let write (line : List UInt8) : Write :=
    { ring := ring
      entry := slice peeked.storage peeked.consumerPos (frontEntry peeked).entrySize
      file := logger.files logger.outfd
      line := line }
  { logger with
    rings := Function.update logger.rings ring processed.stagingBuffer
    output := processed.output
    writes := logger.writes ++ (processed.written.map write).toList }

end Logger

/-- What a buffer with a first entry makes of the earliest one so far. -/
def Earliest.compare (ring : Nat) (peeked : StagingBuffer × Nat) (earliest : Earliest) :
    Earliest :=
  if 0 < peeked.2 ∧ (frontEntry peeked.1).timestamp < earliest.timestamp then
    { timestamp := (frontEntry peeked.1).timestamp, ring := some ring }
  else earliest

/-- One pass of the scan. When a buffer was erased, `--i` makes up for the `++i` of
the loop. -/
def scanPass (i : Nat) (earliest : Earliest) (logger : Logger) : Poll :=
  match logger.threadBuffers[i]? with
  | none => { phase := .scanned earliest, logger := logger }
  | some ring =>
      let threadBuffer := logger.rings ring
      if threadBuffer.checkCanDelete then
        let logger := logger.deleteBuffer i ring
        if logger.threadBuffers.isEmpty then
          { phase := .scanned earliest, logger := logger }
        else { phase := .scanning i earliest, logger := logger }
      else
        let peeked := threadBuffer.peek
        { phase := .scanning (i + 1) (earliest.compare ring peeked)
          logger := logger.setRing ring peeked.1 }

/-- `processLogBuffer(earliest_thead_buffer.second)`. Where it does not return, the
poll thread stays in it. -/
def processEarliest (env : Environment) (passes nanotime : Nat) (earliest : Earliest)
    (logger : Logger) : Poll :=
  match earliest.ring with
  | none => { phase := .scanned earliest, logger := logger }
  | some ring =>
      match processLogBuffer env passes nanotime logger.outfd (logger.rings ring)
          logger.output with
      | none => { phase := .scanned earliest, logger := logger }
      | some processed => { phase := .guard, logger := logger.finish ring processed }

/-- One step of `ioPoll`; `nanotime` is what the clock shows in it. -/
def Poll.step (env : Environment) (passes nanotime : Nat) (poll : Poll) : Poll :=
  let logger := poll.logger
  match poll.phase with
  | .starting => { poll with phase := .guard }
  | .guard =>
      if !logger.isStop || !logger.threadBuffers.isEmpty then
        if logger.isExit then { poll with phase := .exited }
        else { poll with phase := .unlocked }
      else { poll with phase := .exited }
  | .unlocked =>
      { poll with phase := .scanning 0 { timestamp := uint64Max, ring := none } }
  | .scanning i earliest => scanPass i earliest logger
  | .scanned earliest =>
      if earliest.timestamp ≠ uint64Max then
        processEarliest env passes nanotime earliest logger
      else { poll with phase := .waiting }
  | .waiting => { poll with phase := .guard }
  | .exited => poll

/-- The owners of some buffers exit: `~StagingBufferDestroyer` sets
`should_deallocate_`. -/
def Poll.exitOwners (exits : Nat → Bool) (poll : Poll) : Poll :=
  { poll with
    logger :=
      { poll.logger with
        rings := fun ring =>
          if exits ring then { poll.logger.rings ring with shouldDeallocate := true }
          else poll.logger.rings ring } }

/-- `ioPoll` from a state on while no thread logs. Behind each step some threads may
exit. -/
def ioPoll (env : Environment) (passes : Nat) (clock : Nat → Nat)
    (exits : Nat → Nat → Bool) (start : Poll) : Nat → Poll
  | 0 => start
  | count + 1 =>
      ((ioPoll env passes clock exits start count).step env passes
        (clock count)).exitOwners (exits count)

/-! ## What a pass of the scan can do -/

/-- The three outcomes of a pass: the end of the vector, a buffer that is deleted, a
buffer that is looked into. -/
theorem scanPass_cases (i : Nat) (earliest : Earliest) (logger : Logger) :
    (logger.threadBuffers.length ≤ i ∧
        scanPass i earliest logger = { phase := .scanned earliest, logger := logger }) ∨
      (∃ ring, logger.threadBuffers[i]? = some ring ∧
        (((logger.rings ring).checkCanDelete = true ∧
            (scanPass i earliest logger).logger = logger.deleteBuffer i ring ∧
            ((scanPass i earliest logger).phase = .scanning i earliest ∨
              (scanPass i earliest logger).phase = .scanned earliest ∧
                (logger.deleteBuffer i ring).threadBuffers = [])) ∨
          ((logger.rings ring).checkCanDelete = false ∧
            scanPass i earliest logger =
              { phase := .scanning (i + 1)
                  (earliest.compare ring (logger.rings ring).peek)
                logger := logger.setRing ring (logger.rings ring).peek.1 }))) := by
  simp only [scanPass]
  cases found : logger.threadBuffers[i]? with
  | none => exact .inl ⟨List.getElem?_eq_none_iff.mp found, rfl⟩
  | some ring =>
      refine .inr ⟨ring, rfl, ?_⟩
      cases deletable : (logger.rings ring).checkCanDelete with
      | true =>
          refine .inl ⟨rfl, ?_⟩
          simp only [deletable, if_true]
          split
          · rename_i empty
            exact ⟨rfl, .inr ⟨rfl, List.isEmpty_iff.mp empty⟩⟩
          · exact ⟨rfl, .inl rfl⟩
      | false => exact .inr ⟨rfl, by simp [deletable]⟩

/-- What a step of the poll thread can do to the rest of the program: nothing, delete
a buffer, look into one, or process the first entry of one. -/
theorem Poll.step_logger (env : Environment) (passes nanotime : Nat) (poll : Poll) :
    (poll.step env passes nanotime).logger = poll.logger ∨
      (∃ i earliest ring, poll.phase = .scanning i earliest ∧
        poll.logger.threadBuffers[i]? = some ring ∧
        (((poll.logger.rings ring).checkCanDelete = true ∧
            (poll.step env passes nanotime).logger = poll.logger.deleteBuffer i ring) ∨
          (poll.step env passes nanotime).logger =
            poll.logger.setRing ring (poll.logger.rings ring).peek.1)) ∨
      (∃ earliest ring processed, poll.phase = .scanned earliest ∧
        earliest.ring = some ring ∧
        processLogBuffer env passes nanotime poll.logger.outfd (poll.logger.rings ring)
          poll.logger.output = some processed ∧
        (poll.step env passes nanotime).logger = poll.logger.finish ring processed) := by
  rcases poll with ⟨phase, logger⟩
  cases phase with
  | guard =>
      left
      simp only [step]
      split
      · split <;> rfl
      · rfl
  | scanning i earliest =>
      rcases scanPass_cases i earliest logger with ⟨_, pass⟩ | ⟨ring, found, pass⟩
      · left
        simp only [step, pass]
      · right
        left
        refine ⟨i, earliest, ring, rfl, found, ?_⟩
        rcases pass with ⟨deletable, same, _⟩ | ⟨_, pass⟩
        · exact .inl ⟨deletable, same⟩
        · right
          simp only [step, pass]
  | scanned earliest =>
      simp only [step]
      split
      · simp only [processEarliest]
        split
        · exact .inl rfl
        · rename_i ring isRing
          split
          · exact .inl rfl
          · rename_i processed ran
            exact .inr (.inr ⟨earliest, ring, processed, rfl, isRing, ran, rfl⟩)
      · exact .inl rfl
  | starting => exact .inl rfl
  | unlocked => exact .inl rfl
  | waiting => exact .inl rfl
  | exited => exact .inl rfl

/-- Calls of `write` are not undone. -/
theorem Poll.step_writes (env : Environment) (passes nanotime : Nat) (poll : Poll) :
    poll.logger.writes <+: (poll.step env passes nanotime).logger.writes := by
  rcases poll.step_logger env passes nanotime with same |
      ⟨_, _, _, _, _, ⟨_, same⟩ | same⟩ | ⟨_, _, _, _, _, _, same⟩
  · exact same ▸ List.prefix_refl _
  · exact same ▸ List.prefix_refl _
  · exact same ▸ List.prefix_refl _
  · exact same ▸ List.prefix_append _ _

end StaticLog.Backend
