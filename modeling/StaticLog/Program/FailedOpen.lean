import StaticLog.Program.Histories

/-! # A log file that cannot be opened

`setLogFile` joins the poll thread and closes the old file before it knows whether the
new one opens. When it does not, nothing is left to go on with: there is no poll thread,
and the next call fails at `join`. -/

namespace StaticLog.Program

open Backend Execution

section FailedOpen

variable {env : Environment} {passes : Nat}

/-- The poll thread still runs and writes to the file from before the call. -/
structure StillServes (before start : State) : Prop where
  running : start.poll ≠ .exited
  file : start.logger.files start.logger.outfd = before.logger.files before.logger.outfd

/-- A call of `setLogFile` completes with a file. -/
def Opens : Label → Prop
  | .openFile _ fd => fd ≠ -1
  | _ => False

/-- Some way of going on contains a call of `setLogFile` that completes, and leads to a
state in which everything that was committed has been written. -/
def Recovers (env : Environment) (passes : Nat) (start : State) : Prop :=
  ∃ labels final, (system env passes).Run start labels final ∧
    (∃ label ∈ labels, Opens label) ∧
    ∀ ring, final.writtenOf ring = final.committedTo ring

/-- What a call of `setLogFile` that cannot open its file should leave: the old file is
still served or the logger can be restored, and either way a later call completes and
no entry is lost. -/
structure Survives (env : Environment) (passes : Nat) (before start : State) : Prop where
  served : StillServes before start ∨ Recovers env passes start
  recovers : Recovers env passes start

/-- There is no poll thread, and no call of `setLogFile` can start one. -/
structure Dead (state : State) : Prop where
  exited : state.poll = .exited
  control : state.control = .failed ∨ state.control = .stopping ∨
    state.control = .destroyed

theorem Dead.step {before after : State} {label : Label} (dead : Dead before)
    (step : Step env passes before label after) :
    Dead after ∧ after.logger.writes = before.logger.writes ∧ ¬Opens label := by
  rcases dead with ⟨exited, control⟩
  cases step with
  | poll nanotime running => exact absurd exited running
  | setLogFile idle _ =>
      rw [idle] at control
      simp at control
  | setLogFileAgain _ _ => exact ⟨⟨exited, .inl rfl⟩, rfl, id⟩
  | openFile path fd joining _ _ =>
      rw [joining] at control
      simp at control
  | stop _ => exact ⟨⟨exited, .inr (.inl rfl)⟩, rfl, id⟩
  | close _ _ => exact ⟨⟨exited, .inr (.inr rfl)⟩, rfl, id⟩
  | _ => exact ⟨⟨exited, control⟩, rfl, id⟩

/-- Nothing is written any more, and no later call of `setLogFile` completes. -/
theorem Dead.run {start final : State} {labels : List Label} (dead : Dead start)
    (run : (system env passes).Run start labels final) :
    Dead final ∧ final.logger.writes = start.logger.writes ∧
      ∀ label ∈ labels, ¬Opens label := by
  induction run with
  | nil => exact ⟨dead, rfl, fun _ member => absurd member List.not_mem_nil⟩
  | snoc _ taken induction =>
      rcases induction with ⟨stillDead, writes, none⟩
      rcases stillDead.step taken with ⟨dead, same, last⟩
      refine ⟨dead, same.trans writes, ?_⟩
      intro label member
      rw [List.mem_append, List.mem_singleton] at member
      rcases member with earlier | rfl
      · exact none label earlier
      · exact last

theorem Dead.not_recovers {start : State} (dead : Dead start) :
    ¬Recovers env passes start := by
  rintro ⟨labels, final, run, ⟨label, member, opens⟩, _⟩
  exact (dead.run run).2.2 label member opens

theorem dead_openFile {before start : State} {path : File}
    (failed : Step env passes before (.openFile path (-1)) start) : Dead start := by
  cases failed with
  | openFile _ _ _ exited _ => exact ⟨exited, .inl rfl⟩

/-- A call of `setLogFile` that cannot open its file takes the logger down, in whatever
state it was. -/
theorem not_survives {before start : State} {path : File}
    (failed : Step env passes before (.openFile path (-1)) start) :
    ¬Survives env passes before start :=
  fun survives => (dead_openFile failed).not_recovers survives.recovers

end FailedOpen

namespace Example

open Backend.Example

theorem returns_failed {state : State} (joining : state.control = .joining)
    (exited : state.poll = .exited) :
    Step (env hi) 3 state (.openFile path (-1)) (state.openFile path (-1)) :=
  .openFile path (-1) joining exited fun valid => absurd rfl valid

def failedEarly : State := joinedEarly.openFile path (-1)

/-- A thread logs for the first time behind the call. -/
def loggedBehind : State := failedEarly.firstLog 0 late

theorem run_loggedBehind : ∃ labels, (system (env hi) 3).Run failedEarly labels
    loggedBehind := by
  have here : failedEarly.At 0 .idle none := by
    constructor <;> decide +kernel
  have free : failedEarly.lockFree = true := by decide +kernel
  have numbered : (system (env hi) 3).Run failedEarly _ _ :=
    .snoc .nil (step_firstLog late here free)
  exact ⟨_, numbered.append (run_firstLog late here free)⟩

end Example

open Backend.Example Example in
theorem not_survives_joined : ¬Survives (env hi) 3 joined (joined.openFile path (-1)) :=
  not_survives (returns_failed (by decide +kernel) (by decide +kernel))

open Backend.Example Example in
/-- An entry that is committed behind the failed call is never written. -/
theorem failed_setLogFile_loses :
    (system (env hi) 3).Reachable joinedEarly ∧
      Step (env hi) 3 joinedEarly (.openFile path (-1)) failedEarly ∧
      (∃ labels, (system (env hi) 3).Run failedEarly labels loggedBehind) ∧
      (loggedBehind.committedTo 0).length = 1 ∧
      (∀ labels final, (system (env hi) 3).Run loggedBehind labels final →
        final.writtenOf 0 = []) ∧
      ¬Survives (env hi) 3 joinedEarly failedEarly := by
  have returns : Step (env hi) 3 joinedEarly (.openFile path (-1)) failedEarly :=
    returns_failed (by decide +kernel) (by decide +kernel)
  have dead := dead_openFile returns
  rcases run_loggedBehind with ⟨labels, logs⟩
  refine ⟨reachable_joinedEarly, returns, ⟨labels, logs⟩, ?_, ?_, ?_⟩
  · decide +kernel
  · intro later final run
    have writes := ((dead.run logs).1.run run).2.1
    rw [State.writtenOf, writes]
    decide +kernel
  · intro survives
    exact dead.not_recovers survives.recovers

end StaticLog.Program
