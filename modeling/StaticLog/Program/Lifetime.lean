import StaticLog.Backend.MergeOrder
import StaticLog.Program.Ownership

/-! # The lifetime of staging buffers

The poll thread deletes the buffers of threads whose `StagingBufferDestroyer` has run.
A thread that logs after that uses a buffer that may be gone. -/

namespace StaticLog.Program

open Backend StagingBuffer Execution

section Lifetime

variable {env : Environment} {passes : Nat}

/-- Space that `reserveAlloc` has returned is in a buffer that was not deleted, and all
entries were committed to registered buffers. -/
structure State.Sound (state : State) : Prop where
  reserved : ∀ thread nbytes ring, (state.threads thread).phase = .reserved nbytes →
    state.Owns thread ring → ring ∉ state.logger.deleted
  committed : ∀ commit ∈ state.commits, commit.registered = true

/-- No thread calls `reserveAlloc` when its `StagingBufferDestroyer` has run. -/
def NoLateLog (before : State) : Label → Prop
  | .log thread _ => (before.threads thread).destroyerRun = false
  | _ => True

/-- While a thread may still log, its buffer is neither marked nor deleted. -/
structure Alive (state : State) : Prop where
  unborn : ∀ thread, (state.threads thread).stagingBuffer = none →
    (state.threads thread).destroyerRun = false
  resting : ∀ thread, (state.threads thread).destroyerRun = true →
    (state.threads thread).phase = .idle
  marked : ∀ thread ring, state.Owns thread ring →
    (state.threads thread).destroyerRun = false →
      (state.logger.rings ring).shouldDeallocate = false
  registered : ∀ thread ring, state.Owns thread ring →
    (state.threads thread).destroyerRun = false →
      (∀ nbytes, (state.threads thread).phase ≠ .created nbytes) →
        ring ∈ state.logger.threadBuffers
  committed : ∀ commit ∈ state.commits, commit.registered = true

/-- The marks that the destroyers set are the same in two states. -/
def SameMarks (before after : State) : Prop :=
  ∀ ring, (after.logger.rings ring).shouldDeallocate =
    (before.logger.rings ring).shouldDeallocate

theorem SameMarks.setRing (state : State) {ring : Nat} {stagingBuffer : StagingBuffer}
    (same : stagingBuffer.shouldDeallocate =
      (state.logger.rings ring).shouldDeallocate) :
    SameMarks state (state.setRing ring stagingBuffer) := by
  intro other
  by_cases here : other = ring
  · subst here
    simp [State.setRing, Logger.setRing, same]
  · simp [State.setRing, Logger.setRing, Function.update_of_ne here]

theorem reservePass_shouldDeallocate (nbytes : Nat) (stagingBuffer : StagingBuffer) :
    (stagingBuffer.reservePass nbytes).shouldDeallocate =
      stagingBuffer.shouldDeallocate := by
  rcases stagingBuffer.reservePass_cases nbytes with ⟨_, same⟩ | ⟨_, same | same | ⟨_, same⟩⟩
  all_goals
    rw [same]
    rfl

namespace Alive

variable {before after state : State}

theorem initial (files : Int → Option File) (fd : Int) (output : Decoding.Output) :
    Alive (initial files fd output) where
  unborn := fun _ _ => rfl
  resting := fun _ run => by cases run
  marked := fun _ _ owns => by cases owns
  registered := fun _ _ owns => by cases owns
  committed := by simp [Program.initial]

/-- A thread whose destroyer has not run moves on in its code. -/
theorem enter (alive : Alive before) {thread : Nat} {phase : ThreadPhase}
    (living : (before.threads thread).destroyerRun = false)
    (wasNotCreated : ∀ nbytes, (before.threads thread).phase ≠ .created nbytes)
    (threads : after.threads = (before.enter thread phase).threads)
    (marks : SameMarks before after)
    (threadBuffers : after.logger.threadBuffers = before.logger.threadBuffers)
    (committed : ∀ commit ∈ after.commits, commit.registered = true) : Alive after := by
  refine ⟨?_, ?_, ?_, ?_, committed⟩
  all_goals simp only [State.Owns, threads, State.enter_stagingBuffer,
    State.enter_destroyerRun, threadBuffers]
  · exact alive.unborn
  · intro other run
    by_cases same : other = thread
    · rw [same, living] at run
      cases run
    · rw [State.enter_phase_of_ne same]
      exact alive.resting other run
  · intro other ring owns run
    rw [marks ring]
    exact alive.marked other ring owns run
  · intro other ring owns run notCreated
    by_cases same : other = thread
    · subst same
      exact alive.registered other ring owns run wasNotCreated
    · simp only [State.enter_phase_of_ne same] at notCreated
      exact alive.registered other ring owns run notCreated

/-- A thread that is in a call of the logger has not run its destroyer. -/
theorem living (alive : Alive state) {thread : Nat}
    (busy : (state.threads thread).phase ≠ .idle) :
    (state.threads thread).destroyerRun = false := by
  cases run : (state.threads thread).destroyerRun with
  | false => rfl
  | true => exact absurd (alive.resting thread run) busy

/-- A step inside a call of the logger, which may change the thread's buffer. -/
theorem move (alive : Alive state) {thread ring : Nat} {phase reached : ThreadPhase}
    {stagingBuffer : StagingBuffer} (here : state.At thread phase (some ring))
    (busy : phase ≠ .idle) (notCreated : ∀ nbytes, phase ≠ .created nbytes)
    (same : stagingBuffer.shouldDeallocate =
      (state.logger.rings ring).shouldDeallocate) :
    Alive ((state.enter thread reached).setRing ring stagingBuffer) := by
  have living := alive.living (fun idle => busy (here.1.symm.trans idle))
  refine alive.enter living ?_ rfl ?_ rfl alive.committed
  · intro nbytes created
    exact notCreated nbytes (here.1.symm.trans created)
  · exact SameMarks.setRing (state.enter thread reached) same

theorem create (alive : Alive state) (ownership : Ownership state)
    {thread bufferId : Nat} {nbytes : Option Nat}
    (here : state.At thread (.numbered bufferId nbytes) none) :
    Alive (state.create thread bufferId nbytes) := by
  have living := alive.unborn thread here.2
  have older {other ring : Nat} (owns : state.Owns other ring) :
      (state.create thread bufferId nbytes).logger.rings ring = state.logger.rings ring :=
    State.create_rings_of_ne (Nat.ne_of_lt (ownership.fresh other ring owns)) _ _
  constructor
  · intro other none
    by_cases same : other = thread
    · rw [same, State.create_threads_self] at none
      cases none
    · rw [State.create_threads_of_ne same] at none ⊢
      exact alive.unborn other none
  · intro other run
    by_cases same : other = thread
    · rw [same, State.create_threads_self] at run
      exact absurd (living.symm.trans run) Bool.false_ne_true
    · rw [State.create_threads_of_ne same] at run ⊢
      exact alive.resting other run
  · intro other ring owns run
    by_cases same : other = thread
    · rw [State.Owns, same, State.create_threads_self] at owns
      rw [← Option.some.inj owns, State.create_rings_self]
      rfl
    · rw [State.Owns, State.create_threads_of_ne same] at owns
      rw [State.create_threads_of_ne same] at run
      rw [older owns]
      exact alive.marked other ring owns run
  · intro other ring owns run notCreated
    by_cases same : other = thread
    · rw [same, State.create_threads_self] at notCreated
      exact absurd rfl (notCreated nbytes)
    · rw [State.Owns, State.create_threads_of_ne same] at owns
      rw [State.create_threads_of_ne same] at run notCreated
      exact alive.registered other ring owns run notCreated
  · exact alive.committed

theorem register (alive : Alive state) {thread ring : Nat} {nbytes : Option Nat}
    (here : state.At thread (.created nbytes) (some ring)) :
    Alive (state.register thread ring nbytes) := by
  have threads : (state.register thread ring nbytes).threads =
      (state.enter thread (nbytes.elim .idle .entering)).threads := rfl
  have living : (state.threads thread).destroyerRun = false :=
    alive.living (by simp [here.1])
  refine ⟨?_, ?_, ?_, ?_, alive.committed⟩
  all_goals simp only [State.Owns, threads, State.enter_stagingBuffer,
    State.enter_destroyerRun]
  · exact alive.unborn
  · intro other run
    by_cases same : other = thread
    · rw [same, living] at run
      cases run
    · rw [State.enter_phase_of_ne same]
      exact alive.resting other run
  · exact alive.marked
  · intro other owned owns run notCreated
    simp only [State.register, List.mem_append, List.mem_singleton]
    by_cases same : other = thread
    · subst same
      exact .inr (Option.some.inj (owns.symm.trans here.2))
    · simp only [State.enter_phase_of_ne same] at notCreated
      exact .inl (alive.registered other owned owns run notCreated)

theorem commit (alive : Alive state) {thread ring nbytes : Nat} (entry : Entry)
    (here : state.At thread (.reserved nbytes) (some ring)) :
    Alive (state.commit thread ring entry) := by
  have living : (state.threads thread).destroyerRun = false :=
    alive.living (by simp [here.1])
  have registered : ring ∈ state.logger.threadBuffers :=
    alive.registered thread ring here.2 living (by simp [here.1])
  refine alive.enter living (by simp [here.1]) rfl ?_ rfl ?_
  · exact SameMarks.setRing (state.enter thread .idle) rfl
  · intro commit member
    simp only [State.commit, List.mem_append, List.mem_singleton] at member
    rcases member with member | rfl
    · exact alive.committed commit member
    · exact decide_eq_true registered

theorem destroy (alive : Alive state) (ownership : Ownership state) {thread ring : Nat}
    (here : state.At thread .idle (some ring)) : Alive (state.destroy thread ring) := by
  -- The thread of the buffer has run its destroyer, all others are as they were.
  have different {other : Nat}
      (run : ((state.destroy thread ring).threads other).destroyerRun = false) :
      other ≠ thread := by
    intro same
    rw [same, State.destroy_threads_self] at run
    cases run
  constructor
  · intro other none
    rw [State.destroy_stagingBuffer] at none
    have notHere : other ≠ thread := by
      intro same
      rw [same, here.2] at none
      cases none
    rw [State.destroy_threads_of_ne notHere]
    exact alive.unborn other none
  · intro other run
    rw [State.destroy_phase]
    by_cases same : other = thread
    · rw [same]
      exact here.1
    · rw [State.destroy_threads_of_ne same] at run
      exact alive.resting other run
  · intro other owned owns run
    have notHere := different run
    rw [State.Owns, State.destroy_stagingBuffer] at owns
    rw [State.destroy_threads_of_ne notHere] at run
    have notRing : owned ≠ ring := by
      intro equal
      subst equal
      exact notHere (ownership.unique other thread owned owns here.2)
    simp only [State.destroy, State.setRing, Logger.setRing, Function.update_of_ne notRing]
    exact alive.marked other owned owns run
  · intro other owned owns run notCreated
    rw [State.Owns, State.destroy_stagingBuffer] at owns
    rw [State.destroy_phase] at notCreated
    rw [State.destroy_threads_of_ne (different run)] at run
    exact alive.registered other owned owns run notCreated
  · exact alive.committed

/-- The poll thread deletes marked buffers only. -/
theorem pollStep (alive : Alive state) (nanotime : Nat) :
    Alive (state.pollStep env passes nanotime) := by
  have kept (marks : SameMarks state (state.pollStep env passes nanotime))
      (registered : ∀ ring ∈ state.logger.threadBuffers,
        (state.logger.rings ring).shouldDeallocate = false →
          ring ∈ (state.pollStep env passes nanotime).logger.threadBuffers) :
      Alive (state.pollStep env passes nanotime) := by
    refine ⟨alive.unborn, alive.resting, ?_, ?_, alive.committed⟩
    · intro thread ring owns run
      rw [marks ring]
      exact alive.marked thread ring owns run
    · intro thread ring owns run notCreated
      exact registered ring (alive.registered thread ring owns run notCreated)
        (alive.marked thread ring owns run)
  cases state.polled env passes nanotime with
  | unchanged same =>
      apply kept
      · intro ring
        rw [same]
      · intro ring registered _
        rw [same]
        exact registered
  | @deleted i ring found deletable changed =>
      apply kept
      · intro other
        rw [changed, Logger.deleteBuffer]
      · intro other registered unmarked
        rcases split_at found with ⟨front, behind, split, erased, _⟩
        have different : other ≠ ring := by
          intro same
          subst same
          simp [StagingBuffer.checkCanDelete, unmarked] at deletable
        rw [changed]
        simp only [Logger.deleteBuffer, erased]
        rw [split] at registered
        simp only [List.mem_append, List.mem_cons, different, false_or] at registered ⊢
        exact registered
  | looked changed =>
      apply kept
      · intro other
        rw [changed]
        exact SameMarks.setRing state (peek_shouldDeallocate _) other
      · intro other registered _
        rw [changed]
        exact registered
  | finished ran changed =>
      apply kept
      · intro other
        rw [changed]
        exact SameMarks.setRing state (processed_frame ran).1 other
      · intro other registered _
        rw [changed]
        exact registered

theorem control (alive : Alive before) (same : before.SameEntries after) :
    Alive after := by
  constructor
  all_goals simp only [State.Owns, same.threads, same.rings, same.threadBuffers,
    same.commits]
  · exact alive.unborn
  · exact alive.resting
  · exact alive.marked
  · exact alive.registered
  · exact alive.committed

theorem step (alive : Alive before) (ownership : Ownership before) {label : Label}
    (notLate : NoLateLog before label) (step : Step env passes before label after) :
    Alive after := by
  have control := step.control
  cases step with
  | preallocate here _ =>
      exact alive.enter (alive.unborn _ here.2) (by simp [here.1]) rfl (fun _ => rfl) rfl
        alive.committed
  | firstLog here _ =>
      exact alive.enter notLate (by simp [here.1]) rfl (fun _ => rfl) rfl alive.committed
  | log here =>
      exact alive.enter notLate (by simp [here.1]) rfl (fun _ => rfl) rfl alive.committed
  | create here => exact alive.create ownership here
  | register here _ => exact alive.register here
  | reserve here => exact alive.move here (by simp) (by simp) rfl
  | retry here =>
      exact alive.move here (by simp) (by simp) (reservePass_shouldDeallocate _ _)
  | commit entry here _ => exact alive.commit entry here
  | destroy here _ => exact alive.destroy ownership here
  | poll nanotime _ => exact alive.pollStep nanotime
  | _ => exact alive.control (control id)

theorem sound (alive : Alive state) (ownership : Ownership state) : state.Sound where
  reserved := by
    intro thread nbytes ring reserved owns deleted
    have living : (state.threads thread).destroyerRun = false :=
      alive.living (by simp [reserved])
    have registered : ring ∈ state.logger.threadBuffers :=
      alive.registered thread ring owns living (by simp [reserved])
    exact (ownership.deleted ring deleted).2 registered
  committed := alive.committed

end Alive

/-- The condition is needed: once the buffer of a thread was deleted, any further log
call of the thread that finds room is given space in the deleted buffer. -/
theorem unsound_of_deleted {state : State} {thread ring nbytes : Nat}
    (reachable : (system env passes).Reachable state)
    (here : state.At thread .idle (some ring)) (deleted : ring ∈ state.logger.deleted)
    (room : nbytes < (state.logger.rings ring).minFreeSpace) :
    ∃ final, (system env passes).Reachable final ∧ ¬final.Sound := by
  let entered := state.enter thread (.entering nbytes)
  have atEntry : entered.At thread (.entering nbytes) (some ring) :=
    ⟨State.enter_phase_self, (State.enter_stagingBuffer thread).trans here.2⟩
  have logs : (system env passes).Reachable entered := .step reachable (.log here)
  have reserves : (system env passes).Reachable (entered.reserve thread ring nbytes) :=
    .step logs (.reserve atEntry)
  refine ⟨_, reserves, ?_⟩
  intro sound
  apply sound.reserved thread nbytes ring ?_ ?_ deleted
  · have granted : State.granted nbytes (entered.logger.rings ring).countAllocation =
        .reserved nbytes := if_pos room
    exact State.enter_phase_self.trans granted
  · exact (State.enter_stagingBuffer thread).trans atEntry.2

/-- As long as no thread logs behind its destroyer, no log call uses a buffer that was
deleted or is not registered. -/
theorem sound_of_noLateLog {state : State}
    (reachable : ((system env passes).restrict NoLateLog).Reachable state) :
    state.Sound := by
  have alive : Ownership state ∧ Alive state := by
    apply reachable.invariant (fun state => Ownership state ∧ Alive state)
    · intro state starts
      rcases starts with ⟨files, fd, output, _, rfl⟩
      exact ⟨Ownership.initial files fd output, Alive.initial files fd output⟩
    · intro before label after both step
      exact ⟨both.1.step step.2, both.2.step both.1 step.1 step.2⟩
  exact alive.2.sound alive.1

end Lifetime

/-! ## A thread that logs behind its destroyer -/

namespace Example

open Backend.Example

def started : State :=
  initial (fun fd => if fd = 4 then some (ascii "log.txt") else none) 4 output

/-- While the poll thread does not hold the lock, a thread logs for the first time. -/
def logged : State := (started.polls (env hi) 3 nanotime 2).firstLog 0 late

/-- The thread has exited; the poll thread has written the entry and deleted the
buffer. -/
def deleted : State := (logged.destroy 0 0).polls (env hi) 3 nanotime 8

/-- The poll thread may take steps whatever the logging threads are to avoid. -/
theorem run_polls_noLateLog (state : State) (count : Nat)
    (running : ∀ earlier < count,
      (state.polls (env hi) 3 nanotime earlier).poll ≠ .exited) :
    ((system (env hi) 3).restrict NoLateLog).Run state
      (List.replicate count (.poll nanotime)) (state.polls (env hi) 3 nanotime count) := by
  apply (run_polls nanotime state count running).restrict
  intro label member _
  rw [List.eq_of_mem_replicate member]
  trivial

theorem reachable_unlocked : ((system (env hi) 3).restrict NoLateLog).Reachable
    (started.polls (env hi) 3 nanotime 2) := by
  have starts : ((system (env hi) 3).restrict NoLateLog).Reachable started :=
    .initial ⟨_, 4, output, by decide, rfl⟩
  exact starts.run (run_polls_noLateLog started 2 (by decide +kernel))

theorem reachable_logged : ((system (env hi) 3).restrict NoLateLog).Reachable logged := by
  have here : (started.polls (env hi) 3 nanotime 2).At 0 .idle none := by
    constructor <;> decide +kernel
  have free : (started.polls (env hi) 3 nanotime 2).lockFree = true := by decide +kernel
  have living : NoLateLog (started.polls (env hi) 3 nanotime 2) (.log 0 32) :=
    (by decide +kernel :
      ((started.polls (env hi) 3 nanotime 2).threads 0).destroyerRun = false)
  have numbered := System.Reachable.step reachable_unlocked
    ⟨living, step_firstLog late here free⟩
  apply numbered.run
  apply (run_firstLog late here free).restrict
  intro label member _
  simp only [List.mem_cons, List.not_mem_nil, or_false] at member
  rcases member with rfl | rfl | rfl | rfl <;> trivial

theorem reachable_deleted :
    ((system (env hi) 3).restrict NoLateLog).Reachable deleted := by
  have step : Step (env hi) 3 logged (.destroy 0) (logged.destroy 0 0) := by
    constructor
    · constructor <;> decide +kernel
    · decide +kernel
  have allowed : NoLateLog logged (.destroy 0) := trivial
  have exits := System.Reachable.step reachable_logged ⟨allowed, step⟩
  exact exits.run (run_polls_noLateLog _ 8 (by decide +kernel))

end Example

theorem sound_deleted : Example.deleted.Sound :=
  sound_of_noLateLog Example.reachable_deleted

open Backend.Example in
/-- The thread logs once more. -/
theorem late_log_unsound :
    ∃ state, (system (env hi) 3).Reachable state ∧ ¬state.Sound := by
  have here : Example.deleted.At 0 .idle (some 0) := by
    constructor <;> decide +kernel
  have gone : 0 ∈ Example.deleted.logger.deleted := by decide +kernel
  have room : 32 < (Example.deleted.logger.rings 0).minFreeSpace := by decide +kernel
  exact unsound_of_deleted Example.reachable_deleted.of_restrict here gone room

end StaticLog.Program
