import StaticLog.Program.Fairness
import StaticLog.Program.Progress

/-! # No log call waits for ever

Executions without an end in which the poll thread and a thread that waits for space go
on. The thread gets the space, whatever the other threads do meanwhile. -/

namespace StaticLog.Program

open Backend StagingBuffer Execution

section Service

variable {env : Environment} {passes length : Nat} {before after state : State}
  {label : Label} {thread ring nbytes limit : Nat}

/-! ## A thread that waits -/

theorem State.At.keep {phase : ThreadPhase} {stagingBuffer : Option Nat}
    (here : before.At thread phase stagingBuffer)
    (same : after.threads thread = before.threads thread) :
    after.At thread phase stagingBuffer := by
  constructor
  · rw [same]
    exact here.1
  · rw [same]
    exact here.2

theorem enter_threads_of_ne {other : Nat} (different : thread ≠ other) (phase : ThreadPhase) :
    (state.enter other phase).threads thread = state.threads thread := by
  simp only [State.enter, Function.update_of_ne different]

/-- The thread is not at a step that it could only take in another phase. -/
theorem ne_of_phase {other : Nat} {phase : ThreadPhase} {stagingBuffer owned : Option Nat}
    (here : state.At thread (.blocked nbytes) stagingBuffer)
    (elsewhere : state.At other phase owned) (different : ∀ nbytes, phase ≠ .blocked nbytes) :
    thread ≠ other := by
  rintro rfl
  exact different nbytes (elsewhere.1.symm.trans here.1)

/-- While a thread waits, the other threads leave its buffer as it is. Only the poll thread
comes to it, and the thread itself, which tries again. -/
inductive Waited (env : Environment) (passes thread ring nbytes : Nat) (before : State) :
    Label → State → Prop
  | other {label : Label} {after : State} :
      (∀ nanotime, label ≠ .poll nanotime) → after.threads thread = before.threads thread →
      after.logger.rings ring = before.logger.rings ring →
      after.committedTo ring = before.committedTo ring →
      (ring ∈ before.logger.threadBuffers → ring ∈ after.logger.threadBuffers) →
      Waited env passes thread ring nbytes before label after
  | poll (nanotime : Nat) : before.poll ≠ .exited →
      Waited env passes thread ring nbytes before (.poll nanotime)
        (before.pollStep env passes nanotime)
  | retry : Waited env passes thread ring nbytes before (.retry thread)
      (before.retry thread ring nbytes)

theorem Waited.of_sameEntries (notPoll : ∀ nanotime, label ≠ .poll nanotime)
    (same : before.SameEntries after) :
    Waited env passes thread ring nbytes before label after := by
  refine .other notPoll (by rw [same.threads]) (by rw [same.rings]) ?_ ?_
  · rw [State.committedTo, same.commits, State.committedTo]
  · rw [same.threadBuffers]
    exact id

theorem waited (ownership : Ownership before)
    (here : before.At thread (.blocked nbytes) (some ring))
    (step : Step env passes before label after) :
    Waited env passes thread ring nbytes before label after := by
  have control := step.control
  have own {other owned : Nat} {phase : ThreadPhase} (different : thread ≠ other)
      (elsewhere : before.At other phase (some owned)) : ring ≠ owned := by
    rintro rfl
    exact different (ownership.unique thread other ring here.2 elsewhere.2)
  cases step with
  | preallocate elsewhere _ =>
      have different := ne_of_phase here elsewhere (by simp)
      exact .other (by simp) (enter_threads_of_ne different _) rfl rfl id
  | firstLog elsewhere _ =>
      have different := ne_of_phase here elsewhere (by simp)
      exact .other (by simp) (enter_threads_of_ne different _) rfl rfl id
  | log elsewhere =>
      have different := ne_of_phase here elsewhere (by simp)
      exact .other (by simp) (enter_threads_of_ne different _) rfl rfl id
  | create elsewhere =>
      have different := ne_of_phase here elsewhere (by simp)
      have older : ring ≠ before.allocations :=
        Nat.ne_of_lt (ownership.fresh thread ring here.2)
      exact .other (by simp) (State.create_threads_of_ne different _ _)
        (State.create_rings_of_ne older _ _) rfl id
  | register elsewhere _ =>
      have different := ne_of_phase here elsewhere (by simp)
      exact .other (by simp) (enter_threads_of_ne different _) rfl rfl
        (List.mem_append_left _)
  | reserve elsewhere =>
      have different := ne_of_phase here elsewhere (by simp)
      exact .other (by simp) (enter_threads_of_ne different _)
        (Function.update_of_ne (own different elsewhere) _ _) rfl id
  | @retry other owned asked elsewhere =>
      by_cases same : thread = other
      · subst same
        cases here.1.symm.trans elsewhere.1
        cases here.2.symm.trans elsewhere.2
        exact .retry
      · exact .other (by simp) (enter_threads_of_ne same _)
          (Function.update_of_ne (own same elsewhere) _ _) rfl id
  | @commit other owned _ entry elsewhere _ =>
      have different := ne_of_phase here elsewhere (by simp)
      have others : owned ≠ ring := fun equal => own different elsewhere equal.symm
      refine .other (by simp) (enter_threads_of_ne different _)
        (Function.update_of_ne (own different elsewhere) _ _) ?_ id
      simp [State.committedTo, State.commit, others]
  | destroy elsewhere _ =>
      have different := ne_of_phase here elsewhere (by simp)
      exact .other (by simp) (State.destroy_threads_of_ne different _)
        (Function.update_of_ne (own different elsewhere) _ _) rfl id
  | poll nanotime running => exact .poll nanotime running
  | _ => exact .of_sameEntries (by simp) (control id)

theorem Waited.committedTo (waited : Waited env passes thread ring nbytes before label after) :
    after.committedTo ring = before.committedTo ring := by
  cases waited with
  | other _ _ _ same _ => exact same
  | poll _ _ => rfl
  | retry => rfl

/-! ## Its buffer -/

/-- The poll thread deletes no buffer whose owner has not exited. -/
theorem pollStep_living (registered : ring ∈ state.logger.threadBuffers)
    (living : (state.logger.rings ring).shouldDeallocate = false) (nanotime : Nat) :
    ring ∈ (state.pollStep env passes nanotime).logger.threadBuffers ∧
      ((state.pollStep env passes nanotime).logger.rings ring).shouldDeallocate = false := by
  cases state.polled env passes nanotime with
  | unchanged same =>
      rw [same]
      exact ⟨registered, living⟩
  | deleted found deletable same =>
      rw [same]
      refine ⟨mem_deleteBuffer registered found ?_, living⟩
      rintro rfl
      simp [checkCanDelete, living] at deletable
  | looked same =>
      rw [same]
      exact ⟨registered, (SameMarks.setRing state (peek_shouldDeallocate _) ring).trans living⟩
  | finished ran same =>
      rw [same]
      exact ⟨registered,
        (SameMarks.setRing state (processed_frame ran).1 ring).trans living⟩

/-- An empty buffer is at most looked into. -/
theorem pollStep_empty (empty : Holds (state.logger.rings ring) []) (nanotime : Nat) :
    (state.pollStep env passes nanotime).logger.rings ring = state.logger.rings ring ∨
      (state.pollStep env passes nanotime).logger.rings ring =
        (state.logger.rings ring).peek.1 := by
  cases state.polled env passes nanotime with
  | unchanged same => exact .inl (by rw [same])
  | deleted _ _ same => exact .inl (by rw [same, Logger.deleteBuffer])
  | @looked changed same =>
      rw [same]
      by_cases here : ring = changed
      · subst here
        right
        simp only [Logger.setRing, Function.update_self]
      · left
        simp only [Logger.setRing, Function.update_of_ne here]
  | @finished changed processed ran same =>
      rw [same]
      by_cases here : ring = changed
      · subst here
        right
        simp only [Logger.finish, Function.update_self]
        rcases processLogBuffer_cases ran with ⟨_, _, unchanged⟩ | ⟨some, _⟩ | ⟨some, _⟩
        · exact unchanged
        · exact absurd empty.peek_nil.1 (Nat.ne_of_gt some)
        · exact absurd empty.peek_nil.1 (Nat.ne_of_gt some)
      · left
        simp only [Logger.finish, Function.update_of_ne here]

theorem retry_rings : (state.retry thread ring nbytes).logger.rings ring =
    (state.logger.rings ring).reservePass nbytes := by
  simp [State.retry, State.setRing, Logger.setRing]

/-- The thread has its space, or it still waits. -/
theorem retry_at (here : state.At thread (.blocked nbytes) (some ring)) :
    nbytes < ((state.logger.rings ring).reservePass nbytes).minFreeSpace ∧
        (state.retry thread ring nbytes).At thread (.reserved nbytes) (some ring) ∨
      ¬nbytes < ((state.logger.rings ring).reservePass nbytes).minFreeSpace ∧
        (state.retry thread ring nbytes).At thread (.blocked nbytes) (some ring) := by
  have phase : ((state.retry thread ring nbytes).threads thread).phase =
      State.granted nbytes ((state.logger.rings ring).reservePass nbytes) :=
    State.enter_phase_self
  have owns : ((state.retry thread ring nbytes).threads thread).stagingBuffer = some ring :=
    (State.enter_stagingBuffer thread).trans here.2
  by_cases room : nbytes < ((state.logger.rings ring).reservePass nbytes).minFreeSpace
  · exact .inl ⟨room, phase.trans (if_pos room), owns⟩
  · exact .inr ⟨room, phase.trans (if_neg room), owns⟩

/-- The thread waits for space in its buffer, and it has not exited. -/
structure Stuck (thread ring nbytes : Nat) (state : State) : Prop where
  here : state.At thread (.blocked nbytes) (some ring)
  registered : ring ∈ state.logger.threadBuffers
  living : (state.logger.rings ring).shouldDeallocate = false

/-- The thread has got its space. -/
def Served (thread ring nbytes : Nat) (state : State) : Prop :=
  state.At thread (.reserved nbytes) (some ring)

theorem Stuck.waited (stuck : Stuck thread ring nbytes before)
    (waited : Waited env passes thread ring nbytes before label after) :
    Served thread ring nbytes after ∨ Stuck thread ring nbytes after := by
  cases waited with
  | other _ threads rings _ registered =>
      exact .inr ⟨stuck.here.keep threads, registered stuck.registered, rings ▸ stuck.living⟩
  | poll nanotime _ =>
      rcases pollStep_living stuck.registered stuck.living nanotime with ⟨registered, living⟩
      exact .inr ⟨stuck.here, registered, living⟩
  | retry =>
      rcases retry_at stuck.here with ⟨_, served⟩ | ⟨_, here⟩
      · exact .inl served
      · refine .inr ⟨here, stuck.registered, ?_⟩
        rw [retry_rings, reservePass_shouldDeallocate]
        exact stuck.living

/-! ## Once it is empty -/

/-- The buffer is empty, and the producer goes back to the start of the storage no more than
so often. -/
structure Resting (thread ring nbytes turns : Nat) (state : State) : Prop extends
    Stuck thread ring nbytes state where
  empty : Holds (state.logger.rings ring) []
  start : turns = 0 → (state.logger.rings ring).producerPos = 0

/-- The positions of the buffer meet. -/
def Met (ring : Nat) (state : State) : Prop :=
  (state.logger.rings ring).consumerPos = (state.logger.rings ring).producerPos

theorem reservePass_start {buffer : StagingBuffer} (start : buffer.producerPos = 0) :
    (buffer.reservePass nbytes).producerPos = 0 := by
  rcases buffer.reservePass_cases nbytes with ⟨_, same⟩ | ⟨_, same | same | ⟨_, same⟩⟩
  · rw [same]
    exact start
  · rw [same]
    exact start
  · rw [same]
    exact start
  · rw [same]
    rfl

theorem Resting.waited {turns : Nat} (resting : Resting thread ring nbytes turns before)
    (waited : Waited env passes thread ring nbytes before label after) :
    Served thread ring nbytes after ∨ Resting thread ring nbytes turns after := by
  rcases resting.toStuck.waited waited with served | stuck
  · exact .inl served
  · right
    refine ⟨stuck, ?_, ?_⟩
    · cases waited with
      | other _ _ rings _ _ => exact rings ▸ resting.empty
      | poll nanotime _ =>
          rcases pollStep_empty resting.empty nanotime with same | peeked
          · rw [same]
            exact resting.empty
          · rw [peeked]
            exact resting.empty.peek
      | retry =>
          rw [retry_rings]
          exact resting.empty.reservePass nbytes
    · intro none
      have start := resting.start none
      cases waited with
      | other _ _ rings _ _ => exact rings ▸ start
      | poll nanotime _ => exact (pollStep_producerPos nanotime ring).trans start
      | retry =>
          rw [retry_rings]
          exact reservePass_start start

/-- Positions that meet stay as they are until the thread tries again. -/
theorem Resting.met {turns : Nat} (resting : Resting thread ring nbytes turns before)
    (met : Met ring before) (notRetry : label ≠ .retry thread)
    (waited : Waited env passes thread ring nbytes before label after) : Met ring after := by
  cases waited with
  | other _ _ rings _ _ =>
      rw [Met, rings]
      exact met
  | poll nanotime _ =>
      rcases pollStep_empty resting.empty nanotime with same | peeked
      · rw [Met, same]
        exact met
      · rw [Met, peeked]
        exact resting.empty.peek_nil.2.2
  | retry => exact absurd rfl notRetry

/-- A try when the positions meet. -/
theorem Resting.retry {turns : Nat} (resting : Resting thread ring nbytes turns before)
    (met : Met ring before) (small : nbytes < stagingBufferSize)
    (step : Step env passes before (.retry thread) after) :
    Served thread ring nbytes after ∨
      ∃ fewer < turns, Resting thread ring nbytes fewer after := by
  cases step with
  | retry elsewhere =>
      cases resting.here.1.symm.trans elsewhere.1
      cases resting.here.2.symm.trans elsewhere.2
      have again : Waited env passes thread ring nbytes before (.retry thread)
          (before.retry thread ring nbytes) := .retry
      rcases resting.waited again with served | later
      · exact .inl served
      · rcases retry_at resting.here with ⟨_, served⟩ | ⟨full, _⟩
        · exact .inl served
        · rcases reservePass_drained met small with room | ⟨moved, start⟩
          · exact absurd room full
          · right
            have positive : 0 < turns :=
              Nat.pos_of_ne_zero fun none => moved (resting.start none)
            refine ⟨0, positive, later.toStuck, later.empty, fun _ => ?_⟩
            rw [retry_rings]
            exact start

/-! ## The scan comes to it -/

/-- The scan is still to come to the buffer. -/
def Coming (ring : Nat) (threadBuffers : List Nat) : PollPhase → Prop
  | .scanning i _ => ring ∈ threadBuffers.drop i
  | .scanned _ => False
  | _ => True

theorem coming_of_outside {threadBuffers : List Nat} {phase : PollPhase}
    (outside : earliestOf phase = none) : Coming ring threadBuffers phase := by
  cases phase with
  | scanning i earliest => cases outside
  | scanned earliest => cases outside
  | _ => trivial

/-- A pass of the scan that is still to come to a buffer that is not deleted looks into it,
or it is still to come. -/
theorem scanPass_coming {logger : Logger} {i : Nat} (earliest : Earliest)
    (coming : ring ∈ logger.threadBuffers.drop i)
    (keeps : (logger.rings ring).checkCanDelete = false) :
    (scanPass i earliest logger).logger.rings ring = (logger.rings ring).peek.1 ∨
      Coming ring (scanPass i earliest logger).logger.threadBuffers
        (scanPass i earliest logger).phase := by
  rcases scanPass_cases i earliest logger with ⟨whole, _⟩ | ⟨visited, found, pass⟩
  · rw [List.drop_eq_nil_of_le whole] at coming
    cases coming
  · rcases split_at found with ⟨front, behind, split, erased, _, _, rfl⟩
    rw [split, List.drop_left, List.mem_cons] at coming
    rcases pass with ⟨deletable, deleted, goesOn⟩ | ⟨_, pass⟩
    · have later : ring ∈ behind := by
        rcases coming with rfl | later
        · exact absurd deletable (by simp [keeps])
        · exact later
      have remaining : (logger.deleteBuffer front.length visited).threadBuffers =
          front ++ behind := erased
      right
      rw [deleted]
      rcases goesOn with goesOn | ⟨_, nothing⟩
      · rw [goesOn, remaining]
        simpa [Coming] using later
      · rw [remaining] at nothing
        simp [(List.append_eq_nil_iff.mp nothing).2] at later
    · rw [pass]
      rcases coming with rfl | later
      · left
        simp only [Logger.setRing, Function.update_self]
      · right
        have whole : front ++ visited :: behind = (front ++ [visited]) ++ behind := by simp
        have stop : front.length + 1 = (front ++ [visited]).length := by simp
        rw [Coming, Logger.setRing, split, whole, stop, List.drop_left]
        exact later

/-- A step of the poll thread looks into the buffer, or it comes closer to it. -/
theorem Resting.approaches {turns : Nat} (resting : Resting thread ring nbytes turns state)
    (coming : Coming ring state.logger.threadBuffers state.poll) (running : state.poll ≠ .exited)
    (isExit : state.logger.isExit = false) (nanotime : Nat) :
    Met ring (state.pollStep env passes nanotime) ∨
      Coming ring (state.pollStep env passes nanotime).logger.threadBuffers
          (state.pollStep env passes nanotime).poll ∧
        (state.pollStep env passes nanotime).place < state.place := by
  have registered := resting.registered
  cases phase : state.poll with
  | starting =>
      right
      simp only [State.pollStep, State.place, phase, Poll.step]
      exact ⟨trivial, by simp [Prod.Lex.toLex_lt_toLex]⟩
  | waiting =>
      right
      simp only [State.pollStep, State.place, phase, Poll.step]
      exact ⟨trivial, by simp [Prod.Lex.toLex_lt_toLex]⟩
  | guard =>
      right
      have some : state.logger.threadBuffers ≠ [] := List.ne_nil_of_mem registered
      have goesOn : state.pollStep env passes nanotime = { state with poll := .unlocked } := by
        simp [State.pollStep, phase, Poll.step, some, isExit]
      rw [goesOn]
      exact ⟨trivial, by simp [State.place, phase, Prod.Lex.toLex_lt_toLex]⟩
  | unlocked =>
      right
      simp only [State.pollStep, State.place, phase, Poll.step]
      exact ⟨registered, by simp [Prod.Lex.toLex_lt_toLex]⟩
  | scanning i earliest =>
      rw [phase] at coming
      have keeps : (state.logger.rings ring).checkCanDelete = false := by
        simp [checkCanDelete, resting.living]
      rcases scanPass_coming earliest coming keeps with looked | coming
      · left
        simp only [Met, State.pollStep, phase, Poll.step, looked]
        exact resting.empty.peek_nil.2.2
      · right
        refine ⟨?_, scanning_place phase nanotime⟩
        simp only [State.pollStep, phase, Poll.step]
        exact coming
  | scanned earliest =>
      rw [phase] at coming
      exact coming.elim
  | exited => exact absurd phase running

/-- The other threads do not keep the scan from it. -/
theorem coming_other (coming : Coming ring before.logger.threadBuffers before.poll)
    (step : Step env passes before label after)
    (notPoll : ∀ nanotime, label ≠ .poll nanotime) (control : before.control ≠ .joining) :
    Coming ring after.logger.threadBuffers after.poll := by
  cases step with
  | poll nanotime _ => exact absurd rfl (notPoll nanotime)
  | register _ free =>
      have unlocked : before.poll.locks = false := by simpa [State.lockFree] using free
      exact coming_of_outside (earliestOf_of_unlocked unlocked)
  | openFile path fd joining _ _ => exact absurd joining control
  | _ => exact coming

/-- No step puts the scan back, and the steps of the poll thread bring it forward. -/
theorem Resting.nears {turns : Nat} (resting : Resting thread ring nbytes turns before)
    (coming : Coming ring before.logger.threadBuffers before.poll) (flags : Flags before)
    (control : before.control ≠ .joining) (step : Step env passes before label after) :
    Met ring after ∨ Coming ring after.logger.threadBuffers after.poll ∧
      after.place ≤ before.place ∧
        ((∃ nanotime, label = .poll nanotime) → after.place < before.place) := by
  by_cases isPoll : ∃ nanotime, label = .poll nanotime
  · rcases isPoll with ⟨nanotime, rfl⟩
    cases step with
    | poll nanotime running =>
        have isExit := flags.isExit_false control running
        rcases resting.approaches coming running isExit nanotime with met | ⟨coming, lower⟩
        · exact .inl met
        · exact .inr ⟨coming, lower.le, fun _ => lower⟩
  · have notPoll := not_exists.mp isPoll
    have same := place_other step notPoll control
    exact .inr ⟨coming_other coming step notPoll control, same.le,
      fun polls => absurd polls isPoll⟩

/-! ## Endless executions -/

/-- The poll thread goes on, and the thread tries again and again as long as it waits. -/
structure Serving (limit thread ring nbytes : Nat)
    (endless : Endless (printing env passes length)) : Prop extends
    Lasting limit endless where
  tries : ∀ n, (endless.state n).At thread (.blocked nbytes) (some ring) →
    ∃ m, n ≤ m ∧ endless.label m = .retry thread

namespace Serving

variable {endless : Endless (printing env passes length)} {turns : Nat}

theorem suffix (serving : Serving limit thread ring nbytes endless) (start : Nat) :
    Serving limit thread ring nbytes (endless.suffix start) where
  toLasting := serving.toLasting.suffix start
  tries := by
    intro n here
    rcases serving.tries (start + n) here with ⟨m, later, retries⟩
    rcases Nat.exists_eq_add_of_le later with ⟨more, rfl⟩
    rw [Nat.add_assoc] at retries
    exact ⟨n + more, Nat.le_add_right n more, retries⟩

variable (serving : Serving limit thread ring nbytes endless)
include serving

theorem waited {n : Nat} (stuck : Stuck thread ring nbytes (endless.state n)) :
    Waited env passes thread ring nbytes (endless.state n) (endless.label n)
      (endless.state (n + 1)) := by
  have reached := reachable_of_printing (endless.reachable serving.reachable n)
  exact Program.waited (reachable_ownership reached) stuck.here (endless.step n).2

/-- The poll thread comes to the empty buffer. -/
theorem exists_met (resting : Resting thread ring nbytes turns (endless.state 0))
    (outside : earliestOf (endless.state 0).poll = none) :
    ∃ n, Served thread ring nbytes (endless.state n) ∨
      Resting thread ring nbytes turns (endless.state n) ∧ Met ring (endless.state n) := by
  let Goal (n : Nat) := Served thread ring nbytes (endless.state n) ∨
    Resting thread ring nbytes turns (endless.state n) ∧ Met ring (endless.state n)
  let Ranked (n : Nat) (rank : Nat ×ₗ Nat) :=
    Resting thread ring nbytes turns (endless.state n) ∧
      Coming ring (endless.state n).logger.threadBuffers (endless.state n).poll ∧
        rank = (endless.state n).place
  have falls (n : Nat) (rank : Nat ×ₗ Nat) (ranked : Ranked n rank) :
      Goal (n + 1) ∨ ∃ next, Ranked (n + 1) next ∧ next ≤ rank ∧
        ((∃ nanotime, endless.label n = .poll nanotime) → next < rank) := by
    rcases ranked with ⟨resting, coming, rfl⟩
    have flags := reachable_flags
      (reachable_of_printing (endless.reachable serving.reachable n))
    rcases resting.waited (serving.waited resting.toStuck) with served | later
    · exact .inl (.inl served)
    · rcases resting.nears coming flags (serving.control_ne n) (endless.step n).2 with
        met | ⟨coming, same, lower⟩
      · exact .inl (.inr ⟨later, met⟩)
      · exact .inr ⟨_, ⟨later, coming, rfl⟩, same, lower⟩
  rcases fair_leads_to Goal Ranked (fun n _ _ => serving.polls n) falls
    ⟨resting, coming_of_outside outside, rfl⟩ with ⟨n, _, goal⟩
  exact ⟨n, goal⟩

/-- The thread tries again when the positions meet. -/
theorem exists_fewer (small : nbytes < stagingBufferSize)
    (resting : Resting thread ring nbytes turns (endless.state 0))
    (met : Met ring (endless.state 0)) :
    ∃ n, Served thread ring nbytes (endless.state n) ∨
      ∃ fewer < turns, Resting thread ring nbytes fewer (endless.state n) := by
  let Goal (n : Nat) := Served thread ring nbytes (endless.state n) ∨
    ∃ fewer < turns, Resting thread ring nbytes fewer (endless.state n)
  let Waits (n : Nat) :=
    Resting thread ring nbytes turns (endless.state n) ∧ Met ring (endless.state n)
  have retries (n : Nat) (waits : Waits n) (retries : endless.label n = .retry thread) :
      Goal (n + 1) := by
    have step := (endless.step n).2
    rw [retries] at step
    exact waits.1.retry waits.2 small step
  have keeps (n : Nat) (waits : Waits n) : Goal (n + 1) ∨ Waits (n + 1) := by
    by_cases isRetry : endless.label n = .retry thread
    · exact .inl (retries n waits isRetry)
    · have waited := serving.waited waits.1.toStuck
      rcases waits.1.waited waited with served | later
      · exact .inl (.inl served)
      · exact .inr ⟨later, waits.1.met waits.2 isRetry waited⟩
  rcases serving.tries 0 resting.here with ⟨m, later, isRetry⟩
  rcases holds_until Goal Waits keeps later ⟨resting, met⟩ with ⟨n, _, goal⟩ | waits
  · exact ⟨n, goal⟩
  · exact ⟨m + 1, retries m waits isRetry⟩

/-- The entries of the buffer are written. -/
theorem exists_resting (allocates : env.libc.Allocates) (enough : 0 < passes)
    (timely : limit < uint64Max) (stuck : Stuck thread ring nbytes (endless.state 0))
    {remaining : List Entry} (held : Holds ((endless.state 0).logger.rings ring) remaining)
    (early : ∀ entry ∈ remaining, entry.timestamp ≤ limit) :
    ∃ n, Served thread ring nbytes (endless.state n) ∨
      Resting thread ring nbytes 1 (endless.state n) := by
  rcases remaining.eq_nil_or_concat' with rfl | ⟨ahead, last, rfl⟩
  · exact ⟨0, .inr ⟨stuck, held, by simp⟩⟩
  · let Goal (n : Nat) := Served thread ring nbytes (endless.state n)
    let Waits (n : Nat) := Stuck thread ring nbytes (endless.state n) ∧
      (endless.state n).committedTo ring = (endless.state 0).committedTo ring
    have keeps (n : Nat) (waits : Waits n) : Goal (n + 1) ∨ Waits (n + 1) := by
      have waited := serving.waited waits.1
      rcases waits.1.waited waited with served | stuck
      · exact .inl served
      · exact .inr ⟨stuck, waited.committedTo.trans waits.2⟩
    have lies : Lies ring limit (((endless.state 0).writtenOf ring).length + ahead.length) last
        (endless.state 0) := by
      refine ⟨stuck.registered, early last (by simp), ahead, [], held, ?_, rfl⟩
      intro other member
      exact early other (List.mem_append_left _ member)
    rcases serving.exists_passed allocates enough lies timely with ⟨n, passed, _⟩
    rcases holds_until Goal Waits keeps (Nat.zero_le n) ⟨stuck, rfl⟩ with
      ⟨m, _, served⟩ | ⟨stuck, committed⟩
    · exact ⟨m, .inl served⟩
    · have accounted (n : Nat) := reachable_accounted
        (reachable_of_printing (endless.reachable serving.reachable n))
      rcases (accounted 0).balanced ring with ⟨first, holdsFirst, balanceFirst⟩
      rcases (accounted n).balanced ring with ⟨left, holdsLeft, balanceLeft⟩
      have sameLength := congrArg List.length (holdsFirst.unique held)
      have counted := congrArg List.length
        (balanceLeft.trans (committed.trans balanceFirst.symm))
      simp only [List.length_append, List.length_map, List.length_singleton]
        at sameLength counted
      have nothing : left = [] := List.eq_nil_of_length_eq_zero (by omega)
      exact ⟨n, .inr ⟨stuck, nothing ▸ holdsLeft, by simp⟩⟩

end Serving

/-- A thread whose buffer is empty gets its space. -/
theorem Serving.exists_served {turns : Nat}
    {endless : Endless (printing env passes length)}
    (serving : Serving limit thread ring nbytes endless)
    (allocates : env.libc.Allocates) (enough : 0 < passes) (small : nbytes < stagingBufferSize)
    (resting : Resting thread ring nbytes turns (endless.state 0)) :
    ∃ n, Served thread ring nbytes (endless.state n) := by
  induction turns using Nat.strong_induction_on generalizing endless with
  | h turns induction =>
      let Goal (n : Nat) := Served thread ring nbytes (endless.state n)
      let Waits (n : Nat) := Resting thread ring nbytes turns (endless.state n)
      have keeps (n : Nat) (resting : Waits n) : Goal (n + 1) ∨ Waits (n + 1) :=
        resting.waited (serving.waited resting.toStuck)
      rcases serving.exists_outside allocates enough with ⟨start, outside⟩
      rcases holds_until Goal Waits keeps (Nat.zero_le start) resting with
        ⟨n, _, served⟩ | resting
      · exact ⟨n, served⟩
      · rcases (serving.suffix start).exists_met resting outside with
          ⟨n, served | ⟨resting, met⟩⟩
        · exact ⟨start + n, served⟩
        · rcases (serving.suffix (start + n)).exists_fewer small resting met with
            ⟨m, served | ⟨fewer, less, resting⟩⟩
          · exact ⟨start + n + m, served⟩
          · rcases induction fewer less (serving.suffix (start + n + m)) resting with
              ⟨k, served⟩
            exact ⟨start + n + m + k, served⟩

/-- In an execution without an end, a log call that waits for less space than a staging
buffer has gets it, whatever the order of the steps, if the poll thread and the waiting
thread go on, the log file stays as it is, and the entries that are committed meanwhile are
later than those in its buffer. -/
theorem eventually_served {endless : Endless (printing env passes length)}
    (allocates : env.libc.Allocates) (enough : 0 < passes)
    (serving : Serving limit thread ring nbytes endless) (timely : limit < uint64Max)
    (small : nbytes < stagingBufferSize) (stuck : Stuck thread ring nbytes (endless.state 0))
    {remaining : List Entry} (held : Holds ((endless.state 0).logger.rings ring) remaining)
    (early : ∀ entry ∈ remaining, entry.timestamp ≤ limit) :
    ∃ n, (endless.state n).At thread (.reserved nbytes) (some ring) := by
  rcases serving.exists_resting allocates enough timely stuck held early with
    ⟨n, served | resting⟩
  · exact ⟨n, served⟩
  · rcases (serving.suffix n).exists_served allocates enough small resting with ⟨m, served⟩
    exact ⟨n + m, served⟩

end Service

/-! ## A thread that tries again and again -/

namespace Example

open Backend.Example

/-- The poll thread and the waiting thread take turns. -/
def turn (n : Nat) (state : State) : Label × State :=
  if n % 2 = 1 ∧ (state.threads 0).phase = .blocked 1048575 then
    (.retry 0, state.retry 0 0 1048575)
  else (.poll nanotime, state.pollStep stringEnv 1 nanotime)

def inTurns : Nat → State
  | 0 => asking 1048575
  | n + 1 => (turn n (inTurns n)).2

theorem turn_even {n : Nat} (even : n % 2 = 0) (state : State) :
    turn n state = (.poll nanotime, state.pollStep stringEnv 1 nanotime) := by
  rw [turn, if_neg]
  omega

theorem turn_odd {n : Nat} (odd : n % 2 = 1) {state : State}
    (blocked : (state.threads 0).phase = .blocked 1048575) :
    turn n state = (.retry 0, state.retry 0 0 1048575) := if_pos ⟨odd, blocked⟩

theorem inTurns_unstopped (n : Nat) :
    Unstopped (inTurns n) ∧ ((inTurns n).threads 0).stagingBuffer = some 0 := by
  induction n with
  | zero =>
      refine ⟨?_, by decide +kernel⟩
      constructor <;> decide +kernel
  | succ n induction =>
      rcases induction with ⟨unstopped, owns⟩
      rw [inTurns, turn]
      split
      · exact ⟨⟨unstopped.isStop, unstopped.isExit, unstopped.running⟩,
          (State.enter_stagingBuffer 0).trans owns⟩
      · exact ⟨unstopped.pollStep, owns⟩

theorem turn_step (n : Nat) :
    (printing stringEnv 1 (2 ^ 20)).Step (inTurns n) (turn n (inTurns n)).1
      (inTurns (n + 1)) := by
  rcases inTurns_unstopped n with ⟨unstopped, owns⟩
  rw [inTurns, turn]
  split
  · rename_i tries
    exact ⟨trivial, .retry ⟨tries.2, owns⟩⟩
  · exact ⟨trivial, .poll nanotime unstopped.running⟩

def takingTurns : Endless (printing stringEnv 1 (2 ^ 20)) where
  state := inTurns
  label n := (turn n (inTurns n)).1
  step := turn_step

/-- Every second step is one of the poll thread. -/
theorem polls_takingTurns (n : Nat) :
    ∃ m, n ≤ m ∧ ∃ nanotime, takingTurns.label m = .poll nanotime := by
  rcases Nat.mod_two_eq_zero_or_one n with even | odd
  · exact ⟨n, Nat.le_refl n, nanotime, congrArg Prod.fst (turn_even even _)⟩
  · exact ⟨n + 1, Nat.le_succ n, nanotime, congrArg Prod.fst (turn_even (by omega) _)⟩

theorem tries_takingTurns (n : Nat)
    (here : (takingTurns.state n).At 0 (.blocked 1048575) (some 0)) :
    ∃ m, n ≤ m ∧ takingTurns.label m = .retry 0 := by
  rcases Nat.mod_two_eq_zero_or_one n with even | odd
  · have later : inTurns (n + 1) = (inTurns n).pollStep stringEnv 1 nanotime :=
      congrArg Prod.snd (turn_even even _)
    have blocked : ((inTurns (n + 1)).threads 0).phase = .blocked 1048575 := by
      rw [later]
      exact here.1
    exact ⟨n + 1, Nat.le_succ n, congrArg Prod.fst (turn_odd (by omega) blocked)⟩
  · exact ⟨n, Nat.le_refl n, congrArg Prod.fst (turn_odd odd here.1)⟩

theorem serving_takingTurns : Serving 1000 0 0 1048575 takingTurns where
  reachable := (reachable_asking 1048575).of_restrict
  control := by decide +kernel
  later := by
    intro n
    change (turn n (inTurns n)).1.Later 1000
    rw [turn]
    split <;> trivial
  stays := by
    intro n
    change (turn n (inTurns n)).1 ≠ .setLogFile
    rw [turn]
    split <;> exact Label.noConfusion
  polls := polls_takingTurns
  tries := tries_takingTurns

end Example

theorem eventually_served_takingTurns :
    ∃ n, (Example.takingTurns.state n).At 0 (.reserved 1048575) (some 0) := by
  have stuck : Stuck 0 0 1048575 (Example.takingTurns.state 0) := by
    refine ⟨?_, ?_, ?_⟩
    · constructor <;> decide +kernel
    · decide +kernel
    · decide +kernel
  have held : Holds ((Example.takingTurns.state 0).logger.rings 0)
      [Backend.Example.stringEntry] := Example.holds_stringLogged.congr rfl rfl rfl rfl
  exact eventually_served Decoding.Example.sample_allocates (Nat.le_refl 1)
    Example.serving_takingTurns (by decide) (by decide) stuck held (by decide)

end StaticLog.Program
