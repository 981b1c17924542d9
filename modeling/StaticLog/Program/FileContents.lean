import StaticLog.Program.Files
import StaticLog.Program.Lines

/-! # What a log file contains

A file that is empty when it is opened contains the lines that were written while it was
the log file, one behind the other. Of the descriptors of the process the logger touches
only the one that it has opened. -/

namespace StaticLog.Program

open Backend Execution

section Descriptors

variable {env : Environment} {passes : Nat} {before after : State} {label : Label}

/-! ## The descriptors of the process -/

/-- What is open in the process when the log file is not. -/
def State.others (start : State) : Int → Option File :=
  Function.update start.logger.files start.logger.outfd none

/-- The descriptors of the others are as they were, and `outfd_` is none of them. -/
structure Descriptors (others : Int → Option File) (state : State) : Prop where
  same : ∀ fd, (fd = state.logger.outfd → fd = -1 ∨ state.control = .destroyed) →
    state.logger.files fd = others fd
  free : state.logger.outfd ≠ -1 → others state.logger.outfd = none

namespace Descriptors

variable {others : Int → Option File}

theorem initial (files : Int → Option File) {fd : Int} (valid : fd ≠ -1)
    (output : Decoding.Output) :
    Descriptors (initial files fd output).others (initial files fd output) := by
  constructor
  · intro other own
    have different : other ≠ fd := by
      intro same
      rcases own same with minus | destroyed
      · exact valid (same ▸ minus)
      · cases destroyed
    exact (Function.update_of_ne different _ _).symm
  · intro _
    exact Function.update_self _ _ _

/-- Once `outfd_` is closed, the descriptors are those of the others. -/
theorem closedFiles (descriptors : Descriptors others before) :
    State.closedFiles before.logger = others := by
  funext fd
  rw [State.closedFiles]
  split
  · rename_i valid
    by_cases own : fd = before.logger.outfd
    · subst own
      rw [Function.update_self, descriptors.free valid]
    · rw [Function.update_of_ne own]
      exact descriptors.same fd fun same => absurd same own
  · rename_i closed
    rw [not_not] at closed
    exact descriptors.same fd fun own => .inl (own.trans closed)

theorem openFile (descriptors : Descriptors others before) (path : File) {fd : Int}
    (free : fd ≠ -1 → State.closedFiles before.logger fd = none) :
    Descriptors others (before.openFile path fd) := by
  rw [descriptors.closedFiles] at free
  rw [State.openFile, descriptors.closedFiles]
  split
  · rename_i failed
    exact ⟨fun _ _ => rfl, fun valid => absurd failed valid⟩
  · rename_i valid
    refine ⟨?_, fun _ => free valid⟩
    intro other own
    have different : other ≠ fd := by
      intro same
      rcases own same with minus | destroyed
      · exact valid (same ▸ minus)
      · cases destroyed
    exact Function.update_of_ne different _ _

theorem step (descriptors : Descriptors others before)
    (step : Step env passes before label after) : Descriptors others after := by
  rcases Files.step_files step with ⟨files, outfd, _, destroyed⟩ | ⟨path, fd, _, rfl, free⟩ |
    ⟨_, rfl⟩
  · constructor
    · intro fd own
      rw [files]
      apply descriptors.same
      intro same
      exact (own (same.trans outfd.symm)).imp_right destroyed
    · rw [outfd]
      exact descriptors.free
  · exact descriptors.openFile path free
  · exact ⟨fun fd _ => congrFun descriptors.closedFiles fd, descriptors.free⟩

end Descriptors

/-- In every run the logger leaves all descriptors but its own as they are. Its own is
closed behind a failed `setLogFile` and behind the destructor. -/
theorem descriptors_kept {start final : State} {labels : List Label}
    (starts : (system env passes).Initial start)
    (run : (system env passes).Run start labels final) (fd : Int)
    (own : fd = final.logger.outfd → fd = -1 ∨ final.control = .destroyed) :
    final.logger.files fd = start.others fd := by
  have descriptors : Descriptors start.others final := by
    apply run.invariant (Descriptors start.others)
    · intro before label after descriptors step
      exact descriptors.step step
    · rcases starts with ⟨files, first, output, valid, rfl⟩
      exact .initial files valid output
  exact descriptors.same fd own

end Descriptors

open Backend.Example Example in
/-- The logger is constructed, its file is changed, and it is destroyed: both descriptors
are free again. -/
theorem descriptors_kept_switched :
    ((openedEarly.stop.polls (env hi) 3 nanotime 2).close).logger.files 4 = none ∧
      ((openedEarly.stop.polls (env hi) 3 nanotime 2).close).logger.files 5 = none := by
  let unlocked := started.polls (env hi) 3 nanotime 2
  have starts : (system (env hi) 3).Initial started := ⟨_, 4, _, by decide, rfl⟩
  have polls : (system (env hi) 3).Run started _ unlocked :=
    run_polls nanotime started 2 (by decide +kernel)
  have joins : Step (env hi) 3 unlocked .setLogFile (unlocked.raiseFlags .joining) :=
    .setLogFile (by decide +kernel) (by decide +kernel)
  have returns : (system (env hi) 3).Run (unlocked.raiseFlags .joining) _ joinedEarly :=
    run_polls nanotime _ 5 (by decide +kernel)
  have stops : Step (env hi) 3 openedEarly .stop openedEarly.stop :=
    .stop (.inl (by decide +kernel))
  have running : ∀ earlier < 2,
      (openedEarly.stop.polls (env hi) 3 nanotime earlier).poll ≠ .exited := by decide +kernel
  have exits := run_polls nanotime openedEarly.stop 2 running
  have closes : Step (env hi) 3 (openedEarly.stop.polls (env hi) 3 nanotime 2) .close
      (openedEarly.stop.polls (env hi) 3 nanotime 2).close :=
    .close (by decide +kernel) (by decide +kernel)
  have run := (((((polls.snoc joins).append returns).snoc returns_openedEarly).snoc
    stops).append exits).snoc closes
  exact ⟨descriptors_kept starts run 4 fun _ => .inr rfl,
    descriptors_kept starts run 5 fun _ => .inr rfl⟩

/-! ## The contents of the files -/

namespace Files

section Contents

variable {env : Environment} {passes : Nat}

/-- The lines that were written to a file. -/
def linesOf (file : File) (writes : List Write) : List UInt8 :=
  (writes.filter fun write => write.file = some file).flatMap fun write => write.line

/-- `write` takes each line whole, and a file that is opened is empty. -/
def Plain (env : Environment) (passes : Nat) (before : State) : Label × Nat → Prop
  | (.poll nanotime, accepted) =>
      ∀ write ∈ (before.program.pollStep env passes nanotime).logger.writes.drop
          before.program.logger.writes.length,
        write.line.length ≤ accepted
  | (.openFile path fd, _) => fd ≠ -1 → before.content path = []
  | _ => True

/-- The program while that is so. -/
def plain (env : Environment) (passes : Nat) (old : File → List UInt8) :
    System State (Label × Nat) where
  Initial state := (system env passes).Initial state ∧ state.content = old ∧
    ∀ file, state.program.logger.files state.program.logger.outfd = some file →
      old file = []
  Step before label after := Plain env passes before label ∧ Step env passes before label after

/-- Each file contains what was written to it behind what it contained at first, and the
offset is at the end of the log file. -/
structure Filled (old : File → List UInt8) (state : State) : Prop where
  content : ∀ file,
    state.content file = old file ++ linesOf file state.program.logger.writes
  atEnd : AtEnd state

@[simp] theorem linesOf_append (file : File) (first second : List Write) :
    linesOf file (first ++ second) = linesOf file first ++ linesOf file second := by
  simp [linesOf]

theorem Plain.opensEmpty {before : State} {label : Label × Nat}
    (plain : Plain env passes before label) : OpensEmpty before label := by
  rcases label with ⟨label, accepted⟩
  cases label with
  | openFile path fd => exact plain
  | _ => trivial

namespace Filled

variable {old : File → List UInt8} {before : State} {after : Program.State}

/-- A line that `write` takes whole is put behind what the file contains. -/
theorem write (filled : Filled old before) {write : Write} {accepted : Nat}
    (running : before.program.logger.outfd ≠ -1)
    (toFile : write.file = before.program.logger.files before.program.logger.outfd)
    (one : after.logger.writes = before.program.logger.writes ++ [write])
    (whole : write.line.length ≤ accepted) (nanotime : Nat) (file : File) :
    (before.follow accepted (.poll nanotime) after).content file =
      old file ++ linesOf file after.logger.writes := by
  rw [State.follow_write accepted one, State.write]
  cases target : write.file with
  | none => simp [filled.content file, one, linesOf, target]
  | some path =>
      have atEnd := filled.atEnd running path (toFile.symm.trans target)
      have bytes : write.line.take accepted = write.line := List.take_of_length_le whole
      simp only [atEnd, bytes, put_end]
      by_cases same : file = path
      · subst same
        simp [filled.content file, one, linesOf, target]
      · simp [Function.update_of_ne same, filled.content file, one, linesOf, target,
          Ne.symm same]

theorem step (filled : Filled old before) {label : Label × Nat} {reached : State}
    (flags : Flags before.program) (plain : Plain env passes before label)
    (step : Step env passes before label reached) : Filled old reached := by
  refine ⟨?_, filled.atEnd.step flags plain.opensEmpty step⟩
  cases step with
  | @program label after accepted step =>
      have quiet (writes : after.logger.writes = before.program.logger.writes) (file : File) :
          (before.follow accepted label after).content file =
            old file ++ linesOf file after.logger.writes := by
        rw [State.follow_kept accepted writes, writes]
        exact filled.content file
      rcases step_writes step with same | ⟨nanotime, rfl, rfl⟩
      · exact quiet same
      · rcases poll_writes nanotime before.program with same | ⟨write, toFile, one⟩
        · exact quiet same
        · have running : before.program.poll ≠ .exited := by
            cases step with
            | poll _ running => exact running
          have whole : write.line.length ≤ accepted := plain write (by simp [one])
          exact filled.write (flags.file running) toFile one whole nanotime

end Filled

/-- A step in which nothing is written is plain, if the file that it may open is empty. -/
theorem plain_of_quiet {state : State} {label : Label} {after : Program.State}
    (step : Program.Step env passes state.program label after)
    (same : after.logger.writes = state.program.logger.writes)
    (empty : OpensEmpty state (label, 0)) : Plain env passes state (label, 0) := by
  cases step with
  | poll nanotime _ =>
      intro write member
      rw [same, List.drop_length] at member
      cases member
  | openFile path fd _ _ _ => exact empty
  | _ => trivial

theorem allowsQuiet_plain : AllowsQuiet env passes (Plain env passes) := by
  intro state label after step same notOpens
  exact plain_of_quiet step same (allowsQuiet_opensEmpty state label after step same notOpens)

/-- Until the first line is written, all files are empty. -/
theorem reachable_plain {program : Program.State}
    (reachable : (Program.system env passes).Reachable program)
    (quiet : program.logger.writes = []) :
    (plain env passes fun _ => []).Reachable ⟨program, fun _ => [], 0⟩ := by
  have allowed (before : Program.State) (label : Label) (after : Program.State)
      (step : Program.Step env passes before label after)
      (same : after.logger.writes = before.logger.writes) :
      Plain env passes ⟨before, fun _ => [], 0⟩ (label, 0) :=
    plain_of_quiet step same (opensEmpty_empty before label after step same)
  apply (reachable_quiet allowed reachable quiet).mono
  · rintro state ⟨starts, empty⟩
    exact ⟨starts, empty, fun _ _ => rfl⟩
  · intro before label after taken
    exact taken

theorem reachable_of_plain {state : State} {old : File → List UInt8}
    (reachable : (plain env passes old).Reachable state) :
    (system env passes).Reachable state := by
  apply reachable.mono
  · intro state starts
    exact starts.1
  · intro before label after taken
    exact taken.2

theorem reachable_filled {state : State} {old : File → List UInt8}
    (reachable : (plain env passes old).Reachable state) : Filled old state := by
  induction reachable with
  | initial starts =>
      rcases starts with ⟨⟨⟨files, fd, output, _, program⟩, offset⟩, rfl, empty⟩
      constructor
      · intro file
        simp [program, Program.initial, linesOf]
      · intro _ file isOpen
        rw [offset, empty file isOpen]
        rfl
  | step earlier taken induction =>
      have flags := reachable_flags (reachable_program (reachable_of_plain earlier))
      exact induction.step flags taken.1 taken.2

/-- In every run in which `write` takes the lines whole and files are empty when they are
opened, a file contains exactly the lines that were written to it, in their order. -/
theorem content_eq_lines {state : State} {old : File → List UInt8}
    (reachable : (plain env passes old).Reachable state) (file : File) :
    state.content file = old file ++ linesOf file state.program.logger.writes :=
  (reachable_filled reachable).content file

end Contents

/-! ## Two files -/

namespace TwoFiles

open Backend.Example TwoLines

def other : File := ascii "b.txt"

/-- The first line goes to one file, and the second one to the other. -/
def written : State := second 5 200 (setTo other)

theorem reachable_written : (plain (env hi) 3 fun _ => []).Reachable written := by
  have program : (Program.system (env hi) 3).Reachable beforeFirst.program :=
    Program.Example.reachable_logged.of_restrict.run
      (run_polls nanotime Program.Example.logged 3 (by decide +kernel))
  have start : (plain (env hi) 3 fun _ => []).Reachable beforeFirst :=
    reachable_plain program (List.isEmpty_iff.mp (by decide +kernel))
  have whole : ∀ write ∈ (beforeFirst.program.pollStep (env hi) 3
      nanotime).logger.writes.drop beforeFirst.program.logger.writes.length,
        write.line.length ≤ 200 := by decide +kernel
  have plainFirst : Plain (env hi) 3 beforeFirst (.poll nanotime, 200) := whole
  have here : (setTo other).program.At 0 .idle (some 0) := by constructor <;> decide +kernel
  have granted : (((setTo other).program.enter 0 (.entering 32)).reserve 0 0 32).At 0
      (.reserved 32) (some 0) := by constructor <;> decide +kernel
  rcases run_joinedAgain allowsQuiet_plain with ⟨_, joined⟩
  rcases @run_beforeSecond _ allowsQuiet_plain (setTo other) 5 here granted
    (by decide +kernel) (by rfl) with ⟨_, logged⟩
  have empty : Plain (env hi) 3 joinedAgain (.openFile other 4, 0) := fun _ => by decide +kernel
  have opened : Step (env hi) 3 joinedAgain (.openFile other 4, 0) (setTo other) :=
    .program 0 (.openFile other 4 (by decide +kernel) (by decide +kernel) (by decide +kernel))
  have wholeAgain : ∀ write ∈ ((beforeSecond 5 (setTo other)).program.pollStep (env hi) 3
      (nanotime + 5)).logger.writes.drop
        (beforeSecond 5 (setTo other)).program.logger.writes.length,
        write.line.length ≤ 200 := by decide +kernel
  have plainSecond : Plain (env hi) 3 (beforeSecond 5 (setTo other))
      (.poll (nanotime + 5), 200) := wholeAgain
  have last : Step (env hi) 3 (beforeSecond 5 (setTo other)) (.poll (nanotime + 5), 200)
      written := .program 200 (.poll (nanotime + 5) (by decide +kernel))
  have steps : ∀ before label after,
      ((system (env hi) 3).restrict (Plain (env hi) 3)).Step before label after →
        (plain (env hi) 3 fun _ => []).Step before label after := fun _ _ _ taken => taken
  have first := (start.step ⟨plainFirst, step_first⟩).run (joined.mono steps)
  exact ((first.step ⟨empty, opened⟩).run (logged.mono steps)).step ⟨plainSecond, last⟩

end TwoFiles

open TwoFiles TwoLines in
theorem content_eq_lines_twoFiles :
    written.content logTxt = linesOf logTxt written.program.logger.writes ∧
      (written.content logTxt).length = 97 ∧
      written.content other = linesOf other written.program.logger.writes ∧
      (written.content other).length = 97 := by
  have first := content_eq_lines reachable_written logTxt
  have second := content_eq_lines reachable_written other
  exact ⟨first, by decide +kernel, second, by decide +kernel⟩

end Files

end StaticLog.Program
