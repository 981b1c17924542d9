import StaticLog.Program.Accounting
import StaticLog.Program.Lifetime

/-! # Changing the log file

`setLogFile` stops the poll thread and starts another one for the new file, but leaves
`is_stop_` set. The new thread returns as soon as it finds no buffer registered. -/

namespace StaticLog.Program

open Backend Execution

section LogFile

variable {env : Environment} {passes : Nat}

/-- The program while nobody calls `setLogFile` or the destructor. -/
def later (env : Environment) (passes : Nat) : System State Label :=
  (system env passes).restrict fun _ label => label.OfThreads

/-- What `setLogFile` promises of the states behind it: the poll thread is there, and
what was written since then went to the new file, each entry at most once and in its
order. -/
structure KeepsWorking (path : File) (start state : State) : Prop where
  running : state.poll ≠ .exited
  earlier : start.logger.writes <+: state.logger.writes
  newFile : ∀ write ∈ state.logger.writes.drop start.logger.writes.length,
    write.file = some path
  once : ∀ ring, state.writtenOf ring <+: state.committedTo ring

/-- A buffer is registered whenever `ioPoll` evaluates its loop condition. -/
def BufferRegistered (before : State) : Label → Prop
  | .poll _ => before.poll = .guard → before.logger.threadBuffers ≠ []
  | _ => True

/-! ## What later steps leave as it is -/

/-- The flags and the file are the same, and only that file was written to. -/
structure SameFile (before after : Logger) : Prop where
  isStop : after.isStop = before.isStop
  isExit : after.isExit = before.isExit
  outfd : after.outfd = before.outfd
  files : after.files = before.files
  writes : ∃ new, after.writes = before.writes ++ new ∧
    ∀ write ∈ new, write.file = before.files before.outfd

theorem SameFile.refl (logger : Logger) : SameFile logger logger where
  isStop := rfl
  isExit := rfl
  outfd := rfl
  files := rfl
  writes := ⟨[], by simp⟩

theorem SameFile.trans {first second third : Logger} (earlier : SameFile first second)
    (later : SameFile second third) : SameFile first third where
  isStop := later.isStop.trans earlier.isStop
  isExit := later.isExit.trans earlier.isExit
  outfd := later.outfd.trans earlier.outfd
  files := later.files.trans earlier.files
  writes := by
    rcases earlier.writes with ⟨old, oldWrites, oldFiles⟩
    rcases later.writes with ⟨new, newWrites, newFiles⟩
    rw [earlier.files, earlier.outfd] at newFiles
    refine ⟨old ++ new, ?_, ?_⟩
    · rw [newWrites, oldWrites, List.append_assoc]
    · intro write member
      rcases List.mem_append.mp member with member | member
      · exact oldFiles write member
      · exact newFiles write member

theorem sameFile_poll (nanotime : Nat) (state : State) :
    SameFile state.logger (state.pollStep env passes nanotime).logger := by
  cases state.polled env passes nanotime with
  | unchanged same =>
      rw [same]
      exact SameFile.refl _
  | deleted _ _ same =>
      rw [same]
      exact ⟨rfl, rfl, rfl, rfl, [], by simp [Logger.deleteBuffer]⟩
  | looked same =>
      rw [same]
      exact ⟨rfl, rfl, rfl, rfl, [], by simp [Logger.setRing]⟩
  | @finished ring processed _ same =>
      rw [same]
      refine ⟨rfl, rfl, rfl, rfl, _, rfl, ?_⟩
      intro write member
      cases written : processed.written with
      | none => simp [written] at member
      | some line =>
          simp only [written, Option.map_some, Option.toList_some,
            List.mem_singleton] at member
          rw [member]

theorem sameFile_step {before after : State} {label : Label}
    (step : (later env passes).Step before label after) :
    SameFile before.logger after.logger := by
  rcases step with ⟨ofThreads, step⟩
  cases step with
  | preallocate _ _ => exact SameFile.refl _
  | firstLog _ _ => exact SameFile.refl _
  | log _ => exact SameFile.refl _
  | create _ => exact ⟨rfl, rfl, rfl, rfl, [], by simp [State.create, Logger.setRing]⟩
  | register _ _ => exact ⟨rfl, rfl, rfl, rfl, [], by simp [State.register, State.enter]⟩
  | reserve _ =>
      exact ⟨rfl, rfl, rfl, rfl, [], by
        simp [State.reserve, State.setRing, State.enter, Logger.setRing]⟩
  | retry _ =>
      exact ⟨rfl, rfl, rfl, rfl, [], by
        simp [State.retry, State.setRing, State.enter, Logger.setRing]⟩
  | commit entry _ _ =>
      exact ⟨rfl, rfl, rfl, rfl, [], by
        simp [State.commit, State.setRing, State.enter, Logger.setRing]⟩
  | destroy _ _ =>
      exact ⟨rfl, rfl, rfl, rfl, [], by
        simp [State.destroy, State.setRing, Logger.setRing]⟩
  | poll nanotime _ => exact sameFile_poll nanotime before
  | _ => exact absurd ofThreads id

theorem sameFile_run {start final : State} {labels : List Label}
    (run : (later env passes).Run start labels final) :
    SameFile start.logger final.logger := by
  apply run.invariant (fun state => SameFile start.logger state.logger)
  · intro before label after same step
    exact same.trans (sameFile_step step)
  · exact SameFile.refl _

/-! ## When the poll thread returns -/

/-- The poll thread returns at the loop condition only. -/
theorem step_exited {nanotime : Nat} {poll : Poll}
    (exited : (poll.step env passes nanotime).phase = .exited) :
    poll.phase = .exited ∨ poll.phase = .guard ∧
      (poll.logger.isStop = true ∧ poll.logger.threadBuffers = [] ∨
        poll.logger.isExit = true) := by
  rcases poll with ⟨phase, logger⟩
  cases phase with
  | starting => cases exited
  | guard =>
      refine .inr ⟨rfl, ?_⟩
      simp only [Poll.step] at exited
      split at exited
      · split at exited
        · rename_i isExit
          exact .inr isExit
        · cases exited
      · rename_i ended
        simp only [Bool.or_eq_true, Bool.not_eq_true', not_or, Bool.not_eq_false,
          List.isEmpty_iff] at ended
        exact .inl ended
  | unlocked => cases exited
  | scanning i earliest =>
      simp only [Poll.step] at exited
      rcases scanPass_cases i earliest logger with ⟨_, pass⟩ | ⟨_, _, pass⟩
      · rw [pass] at exited
        cases exited
      · rcases pass with ⟨_, _, goesOn | ⟨ended, _⟩⟩ | ⟨_, pass⟩
        · rw [goesOn] at exited
          cases exited
        · rw [ended] at exited
          cases exited
        · rw [pass] at exited
          cases exited
  | scanned earliest =>
      simp only [Poll.step] at exited
      split at exited
      · simp only [processEarliest] at exited
        split at exited
        · cases exited
        · split at exited <;> cases exited
      · cases exited
  | waiting => cases exited
  | exited => exact .inl rfl

/-- A later step lets the poll thread return exactly if it finds no buffer
registered. -/
theorem running_step {before after : State} {label : Label}
    (step : (later env passes).Step before label after)
    (isStop : before.logger.isStop = true) (isExit : before.logger.isExit = false) :
    after.poll ≠ .exited ↔ before.poll ≠ .exited ∧ BufferRegistered before label := by
  rcases step with ⟨ofThreads, step⟩
  cases step with
  | poll nanotime running =>
      constructor
      · intro goesOn
        refine ⟨running, ?_⟩
        intro atGuard empty
        apply goesOn
        simp [State.pollStep, atGuard, Poll.step, isStop, empty]
      · intro goesOn exits
        have last : (Poll.step env passes nanotime
            { phase := before.poll, logger := before.logger }).phase = .exited := exits
        rcases step_exited last with already | ⟨atGuard, ⟨_, empty⟩ | left⟩
        · exact running already
        · exact goesOn.2 atGuard empty
        · rw [show before.logger.isExit = true from left] at isExit
          cases isExit
  | setLogFile _ _ => exact absurd ofThreads id
  | setLogFileAgain _ _ => exact absurd ofThreads id
  | openFile _ _ _ _ _ => exact absurd ofThreads id
  | stop _ => exact absurd ofThreads id
  | close _ _ => exact absurd ofThreads id
  | _ => exact ⟨fun running => ⟨running, trivial⟩, fun running => running.1⟩

/-- `is_stop_` stays set, also behind `setLogFile`. -/
theorem joining_isStop {state : State} (reachable : (system env passes).Reachable state) :
    state.control = .joining → state.logger.isStop = true := by
  apply reachable.invariant
    (fun state => state.control = .joining → state.logger.isStop = true)
  · intro state starts joining
    rcases starts with ⟨files, fd, output, _, rfl⟩
    cases joining
  · intro before label after isStop step joining
    cases step with
    | poll nanotime _ =>
        rw [(sameFile_poll nanotime before).isStop]
        exact isStop joining
    | setLogFile _ _ => rfl
    | setLogFileAgain _ _ => rfl
    | openFile path fd _ _ _ =>
        simp only [State.openFile] at joining
        split at joining <;> cases joining
    | stop _ => cases joining
    | close _ _ => cases joining
    | _ => exact isStop joining

/-- The state in which `setLogFile` returns. -/
theorem opened {before start : State} {path : File} {fd : Int}
    (reachable : (system env passes).Reachable before)
    (returns : Step env passes before (.openFile path fd) start) (valid : fd ≠ -1) :
    start.poll ≠ .exited ∧ start.logger.isStop = true ∧ start.logger.isExit = false ∧
      start.logger.files start.logger.outfd = some path := by
  cases returns with
  | openFile _ _ joining _ _ =>
      have isStop := joining_isStop reachable joining
      simp [State.openFile, valid, isStop]

/-- Behind a successful `setLogFile` the logger keeps working exactly as long as a
buffer is registered whenever the poll thread evaluates its loop condition. -/
theorem keepsWorking_iff {before start final : State} {path : File} {fd : Int}
    {labels : List Label} (reachable : (system env passes).Reachable before)
    (returns : Step env passes before (.openFile path fd) start) (valid : fd ≠ -1)
    (run : (later env passes).Run start labels final) :
    KeepsWorking path start final ↔
      ((later env passes).restrict BufferRegistered).Run start labels final := by
  rcases opened reachable returns valid with ⟨starts, isStop, isExit, file⟩
  constructor
  · intro works
    have running := works.running
    clear works
    induction run with
    | nil => exact .nil
    | snoc earlier taken induction =>
        have same := sameFile_run earlier
        have goesOn := (running_step taken (same.isStop.trans isStop)
          (same.isExit.trans isExit)).mp running
        exact .snoc (induction goesOn.1) ⟨goesOn.2, taken⟩
  · intro registered
    have same := sameFile_run run
    have reached : (system env passes).Reachable final :=
      (System.Reachable.step reachable returns).run run.of_restrict
    rcases same.writes with ⟨new, writes, files⟩
    refine ⟨?_, ?_, ?_, writtenOf_isPrefix reached⟩
    · have running : SameFile start.logger final.logger ∧ final.poll ≠ .exited := by
        apply registered.invariant
          (fun state => SameFile start.logger state.logger ∧ state.poll ≠ .exited)
        · intro earlier label next goesOn step
          refine ⟨goesOn.1.trans (sameFile_step step.2), ?_⟩
          exact (running_step step.2 (goesOn.1.isStop.trans isStop)
            (goesOn.1.isExit.trans isExit)).mpr ⟨goesOn.2, step.1⟩
        · exact ⟨SameFile.refl _, starts⟩
      exact running.2
    · rw [writes]
      exact List.prefix_append _ _
    · intro write member
      rw [writes, List.drop_left' rfl] at member
      rw [files write member, file]

end LogFile

/-! ## Two calls of `setLogFile` to try -/

namespace Example

open Backend.Example

/-- `setLogFile` is at `join` and the poll thread returns. -/
def joining (count : Nat) (state : State) : State :=
  (state.raiseFlags .joining).polls (env hi) 3 nanotime count

def path : File := ascii "b.txt"

/-- `setLogFile` is called before any thread has a staging buffer. -/
def joinedEarly : State := joining 5 (started.polls (env hi) 3 nanotime 2)

def openedEarly : State := joinedEarly.openFile path 5

/-- A thread logs for the first time behind it. -/
def lost : State := (openedEarly.polls (env hi) 3 nanotime 2).firstLog 0 late

/-- `setLogFile` up to `join`, and the poll thread up to its return. -/
theorem reachable_joining {state : State} (count : Nat)
    (reachable : (system (env hi) 3).Reachable state) (idle : state.control = .idle)
    (free : state.lockFree = true)
    (running : ∀ earlier < count, (joining earlier state).poll ≠ .exited) :
    (system (env hi) 3).Reachable (joining count state) := by
  have raised := System.Reachable.step reachable (.setLogFile idle free)
  exact raised.run (run_polls nanotime _ count running)

theorem reachable_joinedEarly : (system (env hi) 3).Reachable joinedEarly :=
  reachable_joining 5 reachable_unlocked.of_restrict (by decide +kernel) (by decide +kernel)
    (by decide +kernel)

theorem returns_openedEarly :
    Step (env hi) 3 joinedEarly (.openFile path 5) openedEarly := by
  constructor
  · decide +kernel
  · decide +kernel
  · intro _
    decide +kernel

theorem run_later {state final : State} {labels : List Label}
    (run : (system (env hi) 3).Run state labels final)
    (ofThreads : ∀ label ∈ labels, label.OfThreads) :
    (later (env hi) 3).Run state labels final :=
  run.restrict fun label member _ => ofThreads label member

theorem run_lost : ∃ labels, (later (env hi) 3).Run openedEarly labels lost := by
  have returned : (system (env hi) 3).Run openedEarly _ _ :=
    run_polls nanotime openedEarly 2 (by decide +kernel)
  have here : (openedEarly.polls (env hi) 3 nanotime 2).At 0 .idle none := by
    constructor <;> decide +kernel
  have free : (openedEarly.polls (env hi) 3 nanotime 2).lockFree = true := by
    decide +kernel
  have numbered := returned.snoc (step_firstLog late here free)
  refine ⟨_, run_later (numbered.append (run_firstLog late here free)) ?_⟩
  intro label member
  simp only [List.mem_append, List.mem_replicate, List.mem_cons, List.not_mem_nil,
    or_false] at member
  rcases member with (⟨_, rfl⟩ | rfl) | rfl | rfl | rfl | rfl <;> trivial

/-- A thread has a staging buffer when `setLogFile` is called. -/
def joined : State := joining 5 logged

def reopened : State := joined.openFile path 5

theorem reachable_joined : (system (env hi) 3).Reachable joined :=
  reachable_joining 5 reachable_logged.of_restrict (by decide +kernel)
    (by decide +kernel) (by decide +kernel)

theorem returns_reopened : Step (env hi) 3 joined (.openFile path 5) reopened := by
  constructor
  · decide +kernel
  · decide +kernel
  · intro _
    decide +kernel

end Example

open Backend.Example Example in
theorem keepsWorking_iff_reopened :
    KeepsWorking path reopened (reopened.polls (env hi) 3 nanotime 8) ↔
      ((later (env hi) 3).restrict BufferRegistered).Run reopened
        (List.replicate 8 (.poll nanotime)) (reopened.polls (env hi) 3 nanotime 8) := by
  apply keepsWorking_iff reachable_joined returns_reopened (by decide)
  apply run_later (run_polls nanotime reopened 8 (by decide +kernel))
  intro label member
  rw [List.eq_of_mem_replicate member]
  trivial

open Backend.Example Example in
/-- An entry that was committed behind a successful `setLogFile` while the poll thread
had returned. -/
theorem setLogFile_loses :
    (system (env hi) 3).Reachable joinedEarly ∧
      Step (env hi) 3 joinedEarly (.openFile path 5) openedEarly ∧
      (∃ labels, (later (env hi) 3).Run openedEarly labels lost) ∧
      lost.poll = .exited ∧ lost.commits.length = 1 ∧
      ¬KeepsWorking path openedEarly lost := by
  have exited : lost.poll = .exited := by decide +kernel
  refine ⟨reachable_joinedEarly, returns_openedEarly, run_lost, exited, ?_, ?_⟩
  · decide +kernel
  · intro works
    exact works.running exited

end StaticLog.Program
