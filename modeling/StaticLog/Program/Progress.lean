import StaticLog.Program.Completion

/-! # Log calls get through

A log call that has its space completes. One that waits for space can always be served:
from every reachable state there is a way on, on which only the poll thread and the waiting
thread take steps. -/

namespace StaticLog.Program

open Backend StagingBuffer Execution

/-! ## Calls that have their space -/

section Reserved

variable {env : Environment} {passes : Nat} {state : State} {thread ring : Nat}

end Reserved

/-! ## Calls that wait for space -/

section Blocked

variable {env : Environment} {passes length : Nat} {state : State} {clock : Nat → Nat}
  {thread ring nbytes : Nat}

/-- In a buffer whose positions meet, a pass of the producer finds the space, or goes back
to the start of the storage. -/
theorem reservePass_drained {buffer : StagingBuffer}
    (meet : buffer.consumerPos = buffer.producerPos) (small : nbytes < stagingBufferSize) :
    nbytes < (buffer.reservePass nbytes).minFreeSpace ∨
      buffer.producerPos ≠ 0 ∧ (buffer.reservePass nbytes).producerPos = 0 := by
  simp only [reservePass, meet, Nat.le_refl, if_true]
  split
  · rename_i room
    exact .inl room
  · rename_i full
    split
    · rename_i moved
      exact .inr ⟨moved, rfl⟩
    · rename_i start
      rw [not_not] at start
      simp only [freeToEnd, start, wrappingSub_zero] at full
      exact absurd small full

theorem peek_producerPos (buffer : StagingBuffer) :
    buffer.peek.1.producerPos = buffer.producerPos := by
  rcases buffer.peek_fst with same | rolled
  · rw [same]
  · rw [rolled]
    rfl

/-- The poll thread leaves the position of the producer as it is. -/
theorem processed_producerPos {nanotime : Nat} {outfd : Int} {output : Decoding.Output}
    {buffer : StagingBuffer} {processed : Processed}
    (ran : processLogBuffer env passes nanotime outfd buffer output = some processed) :
    processed.stagingBuffer.producerPos = buffer.producerPos := by
  rcases processLogBuffer_cases ran with ⟨_, _, same⟩ | ⟨_, _, same⟩ | ⟨_, _, _, same⟩
  all_goals
    rw [same]
    simp only [stampEntry, StagingBuffer.consume, peek_producerPos]

theorem pollStep_producerPos (nanotime : Nat) (ring : Nat) :
    ((state.pollStep env passes nanotime).logger.rings ring).producerPos =
      (state.logger.rings ring).producerPos := by
  cases state.polled env passes nanotime with
  | unchanged same => rw [same]
  | deleted _ _ same => rw [same]; rfl
  | @looked changed same =>
      rw [same]
      by_cases here : ring = changed
      · subst here
        simp only [Logger.setRing, Function.update_self]
        exact peek_producerPos _
      · simp only [Logger.setRing, Function.update_of_ne here]
  | @finished changed processed ran same =>
      rw [same]
      by_cases here : ring = changed
      · subst here
        simp only [Logger.finish, Function.update_self]
        exact processed_producerPos ran
      · simp only [Logger.finish, Function.update_of_ne here]

theorem pollRun_producerPos (n ring : Nat) :
    ((state.pollRun env passes clock n).logger.rings ring).producerPos =
      (state.logger.rings ring).producerPos := by
  induction n with
  | zero => rfl
  | succ n induction => rw [State.pollRun, pollStep_producerPos, induction]

/-- The thread waits for space in its buffer, and the poll thread runs. -/
structure Waits (env : Environment) (passes length thread ring nbytes : Nat) (state : State) :
    Prop where
  reachable : (orderly env passes length).Reachable state
  here : state.At thread (.blocked nbytes) (some ring)
  control : state.control ≠ .joining
  running : state.poll ≠ .exited

namespace Waits

variable (waits : Waits env passes length thread ring nbytes state)
include waits

theorem registered : ring ∈ state.logger.threadBuffers := by
  have alive := (reachable_kept waits.reachable).alive
  have phase := waits.here.1
  exact alive.registered thread ring waits.here.2 (alive.living (by simp [phase]))
    (by simp [phase])

/-- The poll thread does not return while the thread waits. -/
theorem pollRun (timely : ∀ n, clock n < uint64Max) (n : Nat) :
    Waits env passes length thread ring nbytes (state.pollRun env passes clock n) := by
  induction n with
  | zero => exact waits
  | succ n induction =>
      refine ⟨pollRun_reachable waits.reachable timely (n + 1), induction.here,
        induction.control, ?_⟩
      intro exited
      rcases step_exited exited with already | ⟨_, ⟨_, empty⟩ | isExit⟩
      · exact induction.running already
      · have registered := induction.registered
        rw [show (state.pollRun env passes clock n).logger.threadBuffers = [] from empty]
          at registered
        cases registered
      · have flags := (reachable_kept induction.reachable).flags
        have cleared := flags.isExit_false induction.control induction.running
        rw [show (state.pollRun env passes clock n).logger.isExit = true from isExit] at cleared
        cases cleared

/-- From its loop condition on, the poll thread alone drains the buffer. -/
theorem guard_drained (allocates : env.libc.Allocates) (enough : 0 < passes)
    (guard : state.poll = .guard) (timely : ∀ n, clock n < uint64Max) :
    ∃ n, ((state.pollRun env passes clock n).logger.rings ring).consumerPos =
      ((state.pollRun env passes clock n).logger.rings ring).producerPos := by
  have kept := reachable_kept waits.reachable
  have isExit := kept.flags.isExit_false waits.control waits.running
  have valid := kept.flags.file waits.running
  rcases drains allocates enough waits.reachable guard timely with
    ⟨entries, staged, bounded, formats⟩
  rcases drainRun_rests bounded valid formats 0 (Draining.initial staged isExit) with
    ⟨n, _, rests⟩
  rcases drainRun_draining staged bounded isExit valid formats n with ⟨_, draining⟩
  have final := waits.pollRun timely n
  have same : drainRun env passes clock (fun _ _ => false) state.logger n =
      { phase := (state.pollRun env passes clock n).poll
        logger := (state.pollRun env passes clock n).logger } := pollRun_eq guard n
  rw [same] at rests draining
  have facts := draining.phase
  rcases rests with rests | exited
  · simp only at rests
    rw [rests] at facts
    exact ⟨n, facts.2 ring final.registered (facts.1 ring)⟩
  · exact absurd exited final.running

theorem exists_drained (allocates : env.libc.Allocates) (enough : 0 < passes)
    (timely : ∀ n, clock n < uint64Max) :
    ∃ n, ((state.pollRun env passes clock n).logger.rings ring).consumerPos =
      ((state.pollRun env passes clock n).logger.rings ring).producerPos := by
  rcases exists_guard allocates enough waits.reachable timely with ⟨n, exited | guard⟩
  · exact absurd exited (waits.pollRun timely n).running
  · rcases (waits.pollRun timely n).guard_drained allocates enough guard
      (fun k => timely (n + k)) with ⟨m, meet⟩
    rw [← pollRun_add] at meet
    exact ⟨n + m, meet⟩

end Waits

/-- Steps of the poll thread, at times of the clock, and of one thread that waits for
space. -/
def Label.Serves (clock : Nat → Nat) (thread : Nat) : Label → Prop
  | .poll nanotime => ∃ n, nanotime = clock n
  | .retry other => other = thread
  | _ => False

/-- What the poll thread does alone is a part of a run. -/
theorem run_pollRun (waits : Waits env passes length thread ring nbytes state)
    (timely : ∀ n, clock n < uint64Max) (n : Nat) :
    ∃ labels, (∀ label ∈ labels, label.Serves clock thread) ∧
      (orderly env passes length).Run state labels (state.pollRun env passes clock n) := by
  induction n with
  | zero => exact ⟨[], by simp, .nil⟩
  | succ n induction =>
      rcases induction with ⟨labels, serve, run⟩
      have orderly : Orderly (state.pollRun env passes clock n) (.poll (clock n)) :=
        ⟨trivial, timely n⟩
      have prints : (Label.poll (clock n)).Prints env length := trivial
      have running := (waits.pollRun timely n).running
      refine ⟨labels ++ [.poll (clock n)], ?_,
        run.snoc ⟨orderly, prints, .poll (clock n) running⟩⟩
      intro label member
      rcases List.mem_append.mp member with member | member
      · exact serve label member
      · rw [List.mem_singleton.mp member]
        exact ⟨n, rfl⟩

/-- The thread tries again. -/
theorem retry_waits (waits : Waits env passes length thread ring nbytes state) :
    let retried := state.retry thread ring nbytes
    (orderly env passes length).Step state (.retry thread) retried ∧
      (retried.logger.rings ring) = (state.logger.rings ring).reservePass nbytes ∧
      (nbytes < (retried.logger.rings ring).minFreeSpace →
        retried.At thread (.reserved nbytes) (some ring)) ∧
      (¬nbytes < (retried.logger.rings ring).minFreeSpace →
        Waits env passes length thread ring nbytes retried) := by
  intro retried
  have step : (orderly env passes length).Step state (.retry thread) retried :=
    ⟨⟨trivial, trivial⟩, trivial, .retry waits.here⟩
  have buffer : retried.logger.rings ring =
      (state.logger.rings ring).reservePass nbytes := by
    simp [retried, State.retry, State.setRing, Logger.setRing]
  have phase : (retried.threads thread).phase =
      State.granted nbytes (retried.logger.rings ring) := by
    rw [buffer]
    exact State.enter_phase_self
  have owns : (retried.threads thread).stagingBuffer = some ring :=
    (State.enter_stagingBuffer thread).trans waits.here.2
  refine ⟨step, buffer, ?_, ?_⟩
  · intro room
    exact ⟨phase.trans (if_pos room), owns⟩
  · intro full
    exact ⟨waits.reachable.step step, ⟨phase.trans (if_neg full), owns⟩, waits.control,
      waits.running⟩

/-- The poll thread drains the buffer, and the thread tries again. -/
theorem drain_retry (waits : Waits env passes length thread ring nbytes state)
    (allocates : env.libc.Allocates) (enough : 0 < passes) (small : nbytes < stagingBufferSize)
    (timely : ∀ n, clock n < uint64Max) :
    ∃ labels final, (∀ label ∈ labels, label.Serves clock thread) ∧
      (orderly env passes length).Run state labels final ∧
      (final.At thread (.reserved nbytes) (some ring) ∨
        (state.logger.rings ring).producerPos ≠ 0 ∧
          Waits env passes length thread ring nbytes final ∧
            (final.logger.rings ring).producerPos = 0) := by
  rcases waits.exists_drained allocates enough timely with ⟨n, meet⟩
  rcases run_pollRun waits timely n with ⟨labels, serve, run⟩
  have later := waits.pollRun timely n
  rcases retry_waits later with ⟨step, buffer, granted, again⟩
  refine ⟨labels ++ [.retry thread], _, ?_, run.snoc step, ?_⟩
  · intro label member
    rcases List.mem_append.mp member with member | member
    · exact serve label member
    · rw [List.mem_singleton.mp member]
      rfl
  · rcases Decidable.em (nbytes < ((State.retry thread ring nbytes
        (state.pollRun env passes clock n)).logger.rings ring).minFreeSpace) with
      room | full
    · exact .inl (granted room)
    · rcases reservePass_drained meet small with room | ⟨moved, start⟩
      · rw [← buffer] at room
        exact absurd room full
      · rw [pollRun_producerPos] at moved
        rw [← buffer] at start
        exact .inr ⟨moved, again full, start⟩

/-- A log call that waits for less space than a staging buffer has can always be served, by
steps of the poll thread and of the waiting thread alone. -/
theorem blocked_served (waits : Waits env passes length thread ring nbytes state)
    (allocates : env.libc.Allocates) (enough : 0 < passes) (small : nbytes < stagingBufferSize)
    (timely : ∀ n, clock n < uint64Max) :
    ∃ labels final, (∀ label ∈ labels, label.Serves clock thread) ∧
      (orderly env passes length).Run state labels final ∧
      final.At thread (.reserved nbytes) (some ring) := by
  rcases drain_retry waits allocates enough small timely with
    ⟨labels, middle, serve, run, reserved | back⟩
  · exact ⟨labels, middle, serve, run, reserved⟩
  · -- The producer is back at the start of the storage, where the second try succeeds.
    rcases drain_retry back.2.1 allocates enough small timely with
      ⟨more, final, serveMore, later, reserved | stuck⟩
    · refine ⟨labels ++ more, final, ?_, run.append later, reserved⟩
      intro label member
      rcases List.mem_append.mp member with member | member
      · exact serve label member
      · exact serveMore label member
    · exact absurd back.2.2 stuck.1

end Blocked

/-! ## Two calls to try -/

namespace Example

open Backend.Example

/-- The thread has committed an entry, and asks for space once more. -/
def asking (nbytes : Nat) : State :=
  (stringLogged.enter 0 (.entering nbytes)).reserve 0 0 nbytes

theorem reachable_asking (nbytes : Nat) :
    (orderly stringEnv 1 (2 ^ 20)).Reachable (asking nbytes) := by
  have here : stringLogged.At 0 .idle (some 0) := by constructor <;> decide +kernel
  have living : NoLateLog stringLogged (.log 0 nbytes) :=
    (by decide +kernel : (stringLogged.threads 0).destroyerRun = false)
  have logs : (orderly stringEnv 1 (2 ^ 20)).Step stringLogged (.log 0 nbytes)
      (stringLogged.enter 0 (.entering nbytes)) :=
    ⟨⟨living, trivial⟩, trivial, .log here⟩
  have entered : (stringLogged.enter 0 (.entering nbytes)).At 0 (.entering nbytes) (some 0) :=
    ⟨State.enter_phase_self, (State.enter_stagingBuffer 0).trans here.2⟩
  have reserves : (orderly stringEnv 1 (2 ^ 20)).Step
      (stringLogged.enter 0 (.entering nbytes)) (.reserve 0) (asking nbytes) :=
    ⟨⟨trivial, trivial⟩, trivial, .reserve entered⟩
  exact (reachable_stringLogged.step logs).step reserves

/-- The thread asks for almost a whole buffer. -/
theorem waits_asking : Waits stringEnv 1 (2 ^ 20) 0 0 1048575 (asking 1048575) := by
  refine ⟨reachable_asking 1048575, ?_, ?_, ?_⟩
  · constructor <;> decide +kernel
  · decide +kernel
  · decide +kernel

end Example

theorem blocked_served_asking :
    ∃ labels final,
      (∀ label ∈ labels, label.Serves (fun _ => Backend.Example.nanotime) 0) ∧
        (orderly Backend.Example.stringEnv 1 (2 ^ 20)).Run (Example.asking 1048575) labels
          final ∧
        final.At 0 (.reserved 1048575) (some 0) :=
  blocked_served Example.waits_asking Decoding.Example.sample_allocates (Nat.le_refl 1)
    (by decide) (fun _ => by decide)

end StaticLog.Program
