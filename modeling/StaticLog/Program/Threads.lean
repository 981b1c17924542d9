import StaticLog.Backend.Poll
import StaticLog.Foundation.Execution

/-! # A program that logs

Any number of threads, each with its staging buffer, the poll thread, and the thread
that calls `setLogFile` and in the end runs the destructor of the logger. Their steps
interleave in any order that `buffer_mutex_` and `join` allow; an operation on one
staging buffer is one step, and so is each critical section of a logging thread. -/

namespace StaticLog.Program

open Backend StagingBuffer Execution

/-- Where a thread is in its calls of the logger. -/
inductive ThreadPhase
  | idle
  /-- `ensureStagingBufferAllocated` has taken a buffer id. A log call goes on with a
  reservation of `nbytes`, `preallocate` does not. -/
  | numbered (bufferId : Nat) (nbytes : Option Nat)
  /-- `staging_buffer_` has been set and is not registered yet. -/
  | created (nbytes : Option Nat)
  /-- At the call of `reserveProducerSpace`. -/
  | entering (nbytes : Nat)
  /-- At the head of the loop of `reserveSpaceInternal`. -/
  | blocked (nbytes : Nat)
  /-- `reserveAlloc` has returned. -/
  | reserved (nbytes : Nat)
  deriving DecidableEq

/-- A thread, with its thread-local variables. -/
structure Thread where
  phase : ThreadPhase
  stagingBuffer : Option Nat
  destroyerRun : Bool

/-- Where the thread is that calls `setLogFile` and the destructor. -/
inductive Control
  | idle
  /-- In `setLogFile`, at `fdflush_.join()`. -/
  | joining
  /-- `setLogFile` has returned without a file; `fdflush_` is not joinable any more. -/
  | failed
  /-- In the destructor, at `fdflush_.join()`. -/
  | stopping
  | destroyed
  deriving DecidableEq

/-- An entry that was made visible in a staging buffer, and whether that buffer was in
`thread_buffers_` then. -/
structure Commit where
  ring : Nat
  entry : Entry
  registered : Bool

structure State where
  logger : Logger
  poll : PollPhase
  control : Control
  threads : Nat → Thread
  nextBufferId : Nat
  allocations : Nat
  commits : List Commit

namespace State

/-- No thread is between two steps of a critical section. -/
def lockFree (state : State) : Bool := !state.poll.locks

def enter (thread : Nat) (phase : ThreadPhase) (state : State) : State :=
  { state with
    threads := Function.update state.threads thread
      { state.threads thread with phase := phase } }

def setRing (ring : Nat) (stagingBuffer : StagingBuffer) (state : State) : State :=
  { state with logger := state.logger.setRing ring stagingBuffer }

/-! ## What the logging threads do -/

/-- `next_buffer_id_++`. -/
def number (thread : Nat) (nbytes : Option Nat) (state : State) : State :=
  { state.enter thread (.numbered state.nextBufferId nbytes) with
    nextBufferId := (state.nextBufferId + 1) % 2 ^ 32 }

/-- `staging_buffer_ = new StagingBuffer(bufferId)`. -/
def create (thread bufferId : Nat) (nbytes : Option Nat) (state : State) : State :=
  { state with
    logger := state.logger.setRing state.allocations (StagingBuffer.create bufferId)
    threads := Function.update state.threads thread
      { state.threads thread with
        phase := .created nbytes
        stagingBuffer := some state.allocations }
    allocations := state.allocations + 1 }

/-- `thread_buffers_.push_back(staging_buffer_)`. -/
def register (thread ring : Nat) (nbytes : Option Nat) (state : State) : State :=
  let state := state.enter thread (nbytes.elim .idle .entering)
  { state with
    logger :=
      { state.logger with threadBuffers := state.logger.threadBuffers ++ [ring] } }

/-- Whether the reservation was granted. -/
def granted (nbytes : Nat) (stagingBuffer : StagingBuffer) : ThreadPhase :=
  if nbytes < stagingBuffer.minFreeSpace then .reserved nbytes else .blocked nbytes

/-- The fast path of `reserveProducerSpace`. -/
def reserve (thread ring nbytes : Nat) (state : State) : State :=
  let stagingBuffer := (state.logger.rings ring).countAllocation
  (state.enter thread (granted nbytes stagingBuffer)).setRing ring stagingBuffer

/-- A pass of the loop of `reserveSpaceInternal`. -/
def retry (thread ring nbytes : Nat) (state : State) : State :=
  let stagingBuffer := (state.logger.rings ring).reservePass nbytes
  (state.enter thread (granted nbytes stagingBuffer)).setRing ring stagingBuffer

/-- The entry is stored in the reserved space, and `finishAlloc` makes it visible. -/
def commit (thread ring : Nat) (entry : Entry) (state : State) : State :=
  let stagingBuffer := ((state.logger.rings ring).store entry.block).finishReservation
    entry.record.entrySize
  { (state.enter thread .idle).setRing ring stagingBuffer with
    commits := state.commits ++
      [{ ring := ring, entry := entry,
         registered := decide (ring ∈ state.logger.threadBuffers) }] }

/-- `~StagingBufferDestroyer`. -/
def destroy (thread ring : Nat) (state : State) : State :=
  { state.setRing ring { state.logger.rings ring with shouldDeallocate := true } with
    threads := Function.update state.threads thread
      { state.threads thread with destroyerRun := true } }

/-! ## What the other threads do -/

def pollStep (env : Environment) (passes nanotime : Nat) (state : State) : State :=
  let poll : Poll := { phase := state.poll, logger := state.logger }
  { state with
    poll := (poll.step env passes nanotime).phase
    logger := (poll.step env passes nanotime).logger }

/-- `is_stop_ = true; is_exit_ = true`. -/
def raiseFlags (control : Control) (state : State) : State :=
  { state with
    control := control
    logger := { state.logger with isStop := true, isExit := true } }

/-- The files that are open once `outfd_` is closed. -/
def closedFiles (logger : Logger) : Int → Option File :=
  if logger.outfd ≠ -1 then Function.update logger.files logger.outfd none
  else logger.files

/-- `setLogFile` behind `join`, when `open` has returned `fd`. -/
def openFile (path : File) (fd : Int) (state : State) : State :=
  if fd = -1 then
    { state with
      control := .failed
      logger :=
        { state.logger with
          isExit := false, outfd := fd, files := closedFiles state.logger } }
  else
    { state with
      control := .idle
      poll := .starting
      logger :=
        { state.logger with
          isExit := false, outfd := fd
          files := Function.update (closedFiles state.logger) fd (some path) } }

/-- The destructor up to `join`. -/
def stop (state : State) : State :=
  { state with control := .stopping, logger := { state.logger with isStop := true } }

/-- The destructor behind `join`. -/
def close (state : State) : State :=
  { state with
    control := .destroyed
    logger := { state.logger with files := closedFiles state.logger } }

end State

inductive Label
  | preallocate (thread : Nat)
  | log (thread nbytes : Nat)
  | create (thread : Nat)
  | register (thread : Nat)
  | reserve (thread : Nat)
  | retry (thread : Nat)
  | commit (thread : Nat) (entry : Entry)
  | destroy (thread : Nat)
  | poll (nanotime : Nat)
  | setLogFile
  | openFile (path : File) (fd : Int)
  | stop
  | close

/-- The thread is in this phase, and this is its staging buffer. -/
def State.At (state : State) (thread : Nat) (phase : ThreadPhase)
    (stagingBuffer : Option Nat) : Prop :=
  (state.threads thread).phase = phase ∧
    (state.threads thread).stagingBuffer = stagingBuffer

/-- The steps of all threads. A thread that has a staging buffer does nothing in
`preallocate`. -/
inductive Step (env : Environment) (passes : Nat) : State → Label → State → Prop
  | preallocate {state : State} {thread : Nat} :
      state.At thread .idle none → state.lockFree = true →
      Step env passes state (.preallocate thread) (state.number thread none)
  | firstLog {state : State} {thread nbytes : Nat} :
      state.At thread .idle none → state.lockFree = true →
      Step env passes state (.log thread nbytes) (state.number thread (some nbytes))
  | log {state : State} {thread nbytes ring : Nat} :
      state.At thread .idle (some ring) →
      Step env passes state (.log thread nbytes) (state.enter thread (.entering nbytes))
  | create {state : State} {thread bufferId : Nat} {nbytes : Option Nat} :
      state.At thread (.numbered bufferId nbytes) none →
      Step env passes state (.create thread) (state.create thread bufferId nbytes)
  | register {state : State} {thread ring : Nat} {nbytes : Option Nat} :
      state.At thread (.created nbytes) (some ring) → state.lockFree = true →
      Step env passes state (.register thread) (state.register thread ring nbytes)
  | reserve {state : State} {thread ring nbytes : Nat} :
      state.At thread (.entering nbytes) (some ring) →
      Step env passes state (.reserve thread) (state.reserve thread ring nbytes)
  | retry {state : State} {thread ring nbytes : Nat} :
      state.At thread (.blocked nbytes) (some ring) →
      Step env passes state (.retry thread) (state.retry thread ring nbytes)
  | commit {state : State} {thread ring nbytes : Nat} (entry : Entry) :
      state.At thread (.reserved nbytes) (some ring) → entry.record.entrySize = nbytes →
      Step env passes state (.commit thread entry) (state.commit thread ring entry)
  | destroy {state : State} {thread ring : Nat} :
      state.At thread .idle (some ring) → (state.threads thread).destroyerRun = false →
      Step env passes state (.destroy thread) (state.destroy thread ring)
  | poll {state : State} (nanotime : Nat) :
      state.poll ≠ .exited →
      Step env passes state (.poll nanotime) (state.pollStep env passes nanotime)
  | setLogFile {state : State} :
      state.control = .idle → state.lockFree = true →
      Step env passes state .setLogFile (state.raiseFlags .joining)
  | setLogFileAgain {state : State} :
      -- `join` throws, since there is no thread to join.
      state.control = .failed → state.lockFree = true →
      Step env passes state .setLogFile (state.raiseFlags .failed)
  | openFile {state : State} (path : File) (fd : Int) :
      state.control = .joining → state.poll = .exited →
      (fd ≠ -1 → State.closedFiles state.logger fd = none) →
      Step env passes state (.openFile path fd) (state.openFile path fd)
  | stop {state : State} :
      state.control = .idle ∨ state.control = .failed →
      Step env passes state .stop state.stop
  | close {state : State} :
      state.control = .stopping → state.poll = .exited →
      Step env passes state .close state.close

/-- The steps of the logging threads and of the poll thread. -/
def Label.OfThreads : Label → Prop
  | .setLogFile => False
  | .openFile _ _ => False
  | .stop => False
  | .close => False
  | _ => True

/-- The program when the logger has been constructed. -/
def initial (files : Int → Option File) (fd : Int) (output : Decoding.Output) : State where
  logger :=
    { rings := fun _ => StagingBuffer.create 0
      threadBuffers := []
      deleted := []
      isStop := false
      isExit := false
      outfd := fd
      files := files
      output := output
      writes := [] }
  poll := .starting
  control := .idle
  threads _ := { phase := .idle, stagingBuffer := none, destroyerRun := false }
  nextBufferId := 0
  allocations := 0
  commits := []

def system (env : Environment) (passes : Nat) : System State Label where
  Initial state := ∃ files fd output, fd ≠ -1 ∧ state = initial files fd output
  Step := Step env passes

/-! ## What steps leave as it is -/

/-- The threads, the staging buffers and the histories are the same. -/
structure State.SameEntries (before after : State) : Prop where
  threads : after.threads = before.threads
  allocations : after.allocations = before.allocations
  commits : after.commits = before.commits
  rings : after.logger.rings = before.logger.rings
  threadBuffers : after.logger.threadBuffers = before.logger.threadBuffers
  deleted : after.logger.deleted = before.logger.deleted
  writes : after.logger.writes = before.logger.writes

/-- What a step of the poll thread does to the rest of the program. -/
inductive Polled (env : Environment) (passes nanotime : Nat) (before after : Logger) :
    Prop where
  | unchanged : after = before → Polled env passes nanotime before after
  | deleted {i ring : Nat} : before.threadBuffers[i]? = some ring →
      (before.rings ring).checkCanDelete = true → after = before.deleteBuffer i ring →
      Polled env passes nanotime before after
  | looked {ring : Nat} : after = before.setRing ring (before.rings ring).peek.1 →
      Polled env passes nanotime before after
  | finished {ring : Nat} {processed : Processed} :
      processLogBuffer env passes nanotime before.outfd (before.rings ring)
        before.output = some processed →
      after = before.finish ring processed → Polled env passes nanotime before after

theorem State.polled (env : Environment) (passes nanotime : Nat) (state : State) :
    Polled env passes nanotime state.logger
      (state.pollStep env passes nanotime).logger := by
  have poll := Poll.step_logger env passes nanotime
    { phase := state.poll, logger := state.logger }
  rcases poll with unchanged |
      ⟨_, _, ring, _, found, ⟨deletable, deleted⟩ | looked⟩ |
      ⟨_, ring, processed, _, _, ran, finished⟩
  · exact .unchanged unchanged
  · exact .deleted found deletable deleted
  · exact .looked looked
  · exact .finished ran finished

/-- `setLogFile` and the destructor change flags and files only. -/
theorem Step.control {env : Environment} {passes : Nat} {before after : State}
    {label : Label} (step : Step env passes before label after)
    (control : ¬label.OfThreads) : before.SameEntries after := by
  cases step with
  | setLogFile _ _ => exact ⟨rfl, rfl, rfl, rfl, rfl, rfl, rfl⟩
  | setLogFileAgain _ _ => exact ⟨rfl, rfl, rfl, rfl, rfl, rfl, rfl⟩
  | openFile path fd _ _ _ =>
      simp only [State.openFile]
      split
      · exact ⟨rfl, rfl, rfl, rfl, rfl, rfl, rfl⟩
      · exact ⟨rfl, rfl, rfl, rfl, rfl, rfl, rfl⟩
  | stop _ => exact ⟨rfl, rfl, rfl, rfl, rfl, rfl, rfl⟩
  | close _ _ => exact ⟨rfl, rfl, rfl, rfl, rfl, rfl, rfl⟩
  | _ => exact absurd trivial control

/-! ## Phases of threads -/

namespace State

variable {state : State} {thread : Nat} {phase : ThreadPhase}

@[simp] theorem enter_stagingBuffer (other : Nat) :
    ((state.enter thread phase).threads other).stagingBuffer =
      (state.threads other).stagingBuffer := by
  by_cases same : other = thread
  · subst same
    simp [enter]
  · simp [enter, Function.update_of_ne same]

@[simp] theorem enter_destroyerRun (other : Nat) :
    ((state.enter thread phase).threads other).destroyerRun =
      (state.threads other).destroyerRun := by
  by_cases same : other = thread
  · subst same
    simp [enter]
  · simp [enter, Function.update_of_ne same]

theorem enter_phase_self : ((state.enter thread phase).threads thread).phase = phase := by
  simp [enter]

theorem enter_phase_of_ne {other : Nat} (different : other ≠ thread) :
    ((state.enter thread phase).threads other).phase = (state.threads other).phase := by
  simp [enter, Function.update_of_ne different]

/-- A thread that has got to a phase by `enter` was there before, or has just come. -/
theorem enter_phase {other : Nat} {reached : ThreadPhase}
    (entered : ((state.enter thread phase).threads other).phase = reached) :
    other = thread ∧ phase = reached ∨
      other ≠ thread ∧ (state.threads other).phase = reached := by
  by_cases same : other = thread
  · rw [same, enter_phase_self] at entered
    exact .inl ⟨same, entered⟩
  · rw [enter_phase_of_ne same] at entered
    exact .inr ⟨same, entered⟩

/-! ### A thread that allocates its buffer, and one that exits -/

theorem create_threads_self (bufferId : Nat) (nbytes : Option Nat) :
    (state.create thread bufferId nbytes).threads thread =
      { state.threads thread with
        phase := .created nbytes, stagingBuffer := some state.allocations } := by
  simp [create]

theorem create_threads_of_ne {other : Nat} (different : other ≠ thread) (bufferId : Nat)
    (nbytes : Option Nat) :
    (state.create thread bufferId nbytes).threads other = state.threads other := by
  simp [create, Function.update_of_ne different]

theorem create_rings_self (bufferId : Nat) (nbytes : Option Nat) :
    (state.create thread bufferId nbytes).logger.rings state.allocations =
      .create bufferId := by
  simp [create, Logger.setRing]

theorem create_rings_of_ne {ring : Nat} (different : ring ≠ state.allocations)
    (bufferId : Nat) (nbytes : Option Nat) :
    (state.create thread bufferId nbytes).logger.rings ring = state.logger.rings ring := by
  simp [create, Logger.setRing, Function.update_of_ne different]

theorem destroy_threads_self (ring : Nat) :
    (state.destroy thread ring).threads thread =
      { state.threads thread with destroyerRun := true } := by
  simp [destroy]

theorem destroy_threads_of_ne {other : Nat} (different : other ≠ thread) (ring : Nat) :
    (state.destroy thread ring).threads other = state.threads other := by
  simp [destroy, setRing, Function.update_of_ne different]

@[simp] theorem destroy_stagingBuffer (ring other : Nat) :
    ((state.destroy thread ring).threads other).stagingBuffer =
      (state.threads other).stagingBuffer := by
  by_cases same : other = thread
  · rw [same, destroy_threads_self]
  · rw [destroy_threads_of_ne same]

@[simp] theorem destroy_phase (ring other : Nat) :
    ((state.destroy thread ring).threads other).phase = (state.threads other).phase := by
  by_cases same : other = thread
  · rw [same, destroy_threads_self]
  · rw [destroy_threads_of_ne same]

/-! ### Reservations -/

theorem granted_cases (nbytes : Nat) (stagingBuffer : StagingBuffer) :
    (nbytes < stagingBuffer.minFreeSpace ∧
        granted nbytes stagingBuffer = .reserved nbytes) ∨
      granted nbytes stagingBuffer = .blocked nbytes := by
  rw [granted]
  split
  · rename_i fits
    exact .inl ⟨fits, rfl⟩
  · exact .inr rfl

theorem granted_ne_created (nbytes : Nat) (stagingBuffer : StagingBuffer)
    (other : Option Nat) : granted nbytes stagingBuffer ≠ .created other := by
  rcases granted_cases nbytes stagingBuffer with ⟨_, granted⟩ | granted <;> simp [granted]

end State

/-! ## Stretches of a run -/

section Run

variable {env : Environment} {passes : Nat}

/-- The poll thread takes some steps. -/
def State.polls (env : Environment) (passes nanotime : Nat) (state : State) : Nat → State
  | 0 => state
  | count + 1 => (state.polls env passes nanotime count).pollStep env passes nanotime

theorem run_polls (nanotime : Nat) (state : State) (count : Nat)
    (running : ∀ earlier < count,
      (state.polls env passes nanotime earlier).poll ≠ .exited) :
    (system env passes).Run state (List.replicate count (.poll nanotime))
      (state.polls env passes nanotime count) := by
  induction count with
  | zero => exact .nil
  | succ count induction =>
      have before := induction fun earlier less => running earlier (by omega)
      rw [List.replicate_succ']
      exact .snoc before (.poll nanotime (running count (Nat.lt_succ_self count)))

theorem step_firstLog {thread : Nat} (entry : Entry) {state : State}
    (here : state.At thread .idle none) (free : state.lockFree = true) :
    Step env passes state (.log thread entry.record.entrySize)
      (state.number thread (some entry.record.entrySize)) :=
  .firstLog here free

/-- A thread logs for the first time. In the run, its buffer id is taken already. -/
def State.firstLog (thread : Nat) (entry : Entry) (state : State) : State :=
  let nbytes := entry.record.entrySize
  let ring := state.allocations
  (((((state.number thread (some nbytes)).create thread state.nextBufferId
    (some nbytes)).register thread ring (some nbytes)).reserve thread ring
    nbytes)).commit thread ring entry

theorem run_firstLog {thread : Nat} (entry : Entry) {state : State}
    (here : state.At thread .idle none) (free : state.lockFree = true) :
    (system env passes).Run (state.number thread (some entry.record.entrySize))
      [.create thread, .register thread, .reserve thread, .commit thread entry]
      (state.firstLog thread entry) := by
  let nbytes := entry.record.entrySize
  let ring := state.allocations
  let numbered := state.number thread (some nbytes)
  let created := numbered.create thread state.nextBufferId (some nbytes)
  let registered := created.register thread ring (some nbytes)
  let reserved := registered.reserve thread ring nbytes
  have atNumbered : numbered.At thread (.numbered state.nextBufferId (some nbytes)) none :=
    ⟨State.enter_phase_self, (State.enter_stagingBuffer thread).trans here.2⟩
  have atCreated : created.At thread (.created (some nbytes)) (some ring) := by
    constructor <;> simp [created, numbered, ring, State.create, State.number, State.enter]
  have atRegistered : registered.At thread (.entering nbytes) (some ring) :=
    ⟨State.enter_phase_self, (State.enter_stagingBuffer thread).trans atCreated.2⟩
  have atReserved : reserved.At thread (.reserved nbytes) (some ring) := by
    have buffer : registered.logger.rings ring = .create state.nextBufferId := by
      simp [registered, created, numbered, ring, State.register, State.create,
        State.number, State.enter, Logger.setRing]
    have granted : State.granted nbytes (registered.logger.rings ring).countAllocation =
        .reserved nbytes := by
      rw [buffer]
      exact if_pos entry.small
    exact ⟨State.enter_phase_self.trans granted,
      (State.enter_stagingBuffer thread).trans atRegistered.2⟩
  have run : (system env passes).Run numbered [.create thread] created :=
    .snoc .nil (.create atNumbered)
  exact ((run.snoc (.register atCreated free)).snoc (.reserve atRegistered)).snoc
    (.commit entry atReserved rfl)

end Run

end StaticLog.Program
