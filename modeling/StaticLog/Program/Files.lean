import StaticLog.Program.Histories
import StaticLog.Program.Lines

/-! # What is in the log files

The program together with the contents of the files and the offset of `outfd_`. A
descriptor that `open` returns starts at offset 0, whether the file is new or not, and
`write` puts the bytes that it accepts at the offset. -/

namespace StaticLog.Program

open Backend Execution

namespace Files

structure State where
  program : Program.State
  content : File → List UInt8
  offset : Nat

/-- The content of a file when `write` has put some bytes at the offset. Behind the
old end of the file a gap is filled with zeros. -/
def put (offset : Nat) (bytes content : List UInt8) : List UInt8 :=
  if bytes = [] then content
  else
    content.take offset ++ List.replicate (offset - content.length) 0 ++ bytes ++
      content.drop (offset + bytes.length)

/-- A call of `write` that accepts so many bytes of its line. -/
def State.write (accepted : Nat) (write : Write) (state : State) : State :=
  match write.file with
  | none => state
  | some file =>
      let bytes := write.line.take accepted
      { state with
        content :=
          Function.update state.content file (put state.offset bytes (state.content file))
        offset := state.offset + bytes.length }

/-- Whether the step opens a file. -/
def opens : Label → Bool
  | .openFile _ fd => fd != -1
  | _ => false

/-- A step of the program, and what it does to the files. -/
def State.follow (accepted : Nat) (label : Label) (after : Program.State)
    (state : State) : State :=
  let calls := after.logger.writes.drop state.program.logger.writes.length
  let written := calls.foldl (fun state write => state.write accepted write) state
  { written with
    program := after
    offset := if opens label then 0 else written.offset }

/-- Each step comes with the number of bytes that `write` accepts in it. -/
inductive Step (env : Environment) (passes : Nat) : State → Label × Nat → State → Prop
  | program {state : State} {label : Label} {after : Program.State} (accepted : Nat) :
      Program.Step env passes state.program label after →
      Step env passes state (label, accepted) (state.follow accepted label after)

/-- The file of the first `open` may be there already. -/
def system (env : Environment) (passes : Nat) : System State (Label × Nat) where
  Initial state := (Program.system env passes).Initial state.program ∧ state.offset = 0
  Step := Step env passes

/-- A step in which a line is written finds the offset of `outfd_` at the end of its
file. -/
def WritesAtEnd (env : Environment) (passes : Nat) (before : State) :
    Label × Nat → Prop
  | (.poll nanotime, _) =>
      (before.program.pollStep env passes nanotime).logger.writes ≠
          before.program.logger.writes →
        ∀ file, before.program.logger.files before.program.logger.outfd = some file →
          (before.content file).length ≤ before.offset
  | _ => True

/-! ## One step -/

theorem isPrefix_put {offset : Nat} {bytes content : List UInt8}
    (atEnd : content.length ≤ offset) : content <+: put offset bytes content := by
  rw [put]
  split
  · exact List.prefix_refl _
  · rw [List.take_of_length_le atEnd, List.append_assoc, List.append_assoc]
    exact List.prefix_append _ _

theorem State.follow_quiet {state : State} {after : Program.State} {label : Label}
    (accepted : Nat) (same : after.logger.writes = state.program.logger.writes)
    (notOpens : opens label = false) :
    state.follow accepted label after = { state with program := after } := by
  simp only [follow, same, List.drop_length, List.foldl_nil, notOpens,
    Bool.false_eq_true, if_false]

theorem State.follow_kept {state : State} {after : Program.State} {label : Label}
    (accepted : Nat) (same : after.logger.writes = state.program.logger.writes) :
    (state.follow accepted label after).content = state.content := by
  simp only [follow, same, List.drop_length, List.foldl_nil]

theorem State.follow_write {state : State} {after : Program.State} {label : Label}
    {write : Write} (accepted : Nat)
    (one : after.logger.writes = state.program.logger.writes ++ [write]) :
    (state.follow accepted label after).content = (state.write accepted write).content := by
  simp only [follow, one, List.drop_left, List.foldl_cons, List.foldl_nil]

/-- A call of `write` at the end of its file only adds to it. -/
theorem State.write_grows {state : State} {write : Write} (accepted : Nat)
    (atEnd : ∀ file, write.file = some file →
      (state.content file).length ≤ state.offset) (file : File) :
    state.content file <+: (state.write accepted write).content file := by
  rw [State.write]
  cases target : write.file with
  | none => exact List.prefix_refl _
  | some path =>
      by_cases same : file = path
      · subst same
        simp only [Function.update_self]
        exact isPrefix_put (atEnd file target)
      · simp only [Function.update_of_ne same]
        exact List.prefix_refl _

section Runs

variable {env : Environment} {passes : Nat}

/-- Only `setLogFile` and the destructor change what is open. -/
theorem step_files {before after : Program.State} {label : Label}
    (step : Program.Step env passes before label after) :
    (after.logger.files = before.logger.files ∧ after.logger.outfd = before.logger.outfd ∧
        opens label = false ∧ (after.control = .destroyed → before.control = .destroyed)) ∨
      (∃ path fd, label = .openFile path fd ∧ after = before.openFile path fd ∧
        (fd ≠ -1 → State.closedFiles before.logger fd = none)) ∨
      label = .close ∧ after = before.close := by
  cases step with
  | poll nanotime _ =>
      have same : SameFile before.logger (before.pollStep env passes nanotime).logger :=
        sameFile_poll nanotime before
      exact .inl ⟨same.files, same.outfd, rfl, id⟩
  | setLogFile _ _ => exact .inl ⟨rfl, rfl, rfl, fun destroyed => by cases destroyed⟩
  | setLogFileAgain _ _ => exact .inl ⟨rfl, rfl, rfl, fun destroyed => by cases destroyed⟩
  | openFile path fd _ _ free => exact .inr (.inl ⟨path, fd, rfl, rfl, free⟩)
  | stop _ => exact .inl ⟨rfl, rfl, rfl, fun destroyed => by cases destroyed⟩
  | close _ _ => exact .inr (.inr ⟨rfl, rfl⟩)
  | _ => exact .inl ⟨rfl, rfl, rfl, id⟩

theorem step_grows {before after : State} {label : Label × Nat}
    (step : ((system env passes).restrict (WritesAtEnd env passes)).Step before label after)
    (file : File) : before.content file <+: after.content file := by
  rcases step with ⟨atEnd, step⟩
  cases step with
  | @program label reached accepted step =>
      rcases step_writes step with same | ⟨nanotime, rfl, rfl⟩
      · exact State.follow_kept accepted same ▸ List.prefix_refl _
      · rcases poll_writes nanotime before.program with same | ⟨write, toFile, one⟩
        · exact State.follow_kept accepted same ▸ List.prefix_refl _
        · rw [State.follow_write accepted one]
          have writes : (before.program.pollStep env passes nanotime).logger.writes ≠
              before.program.logger.writes := by
            simp [one]
          apply State.write_grows
          intro path target
          exact atEnd writes path (toFile ▸ target)

/-- In every run in which lines are written at the end of their files only, the
content of each file begins with the content it had at any earlier time. -/
theorem files_grow {start final : State} {labels : List (Label × Nat)}
    (run : ((system env passes).restrict (WritesAtEnd env passes)).Run start labels final)
    (file : File) : start.content file <+: final.content file := by
  apply run.invariant (fun state => start.content file <+: state.content file)
  · intro before label after earlier step
    exact earlier.trans (step_grows step file)
  · exact List.prefix_refl _

/-! ## Files that are empty when they are opened -/

/-- The file that is opened is empty. -/
def OpensEmpty (before : State) : Label × Nat → Prop
  | (.openFile path fd, _) => fd ≠ -1 → before.content path = []
  | _ => True

/-- The program while each log file is empty when it is opened, the first one included. -/
def openingEmpty (env : Environment) (passes : Nat) : System State (Label × Nat) where
  Initial state := (system env passes).Initial state ∧
    ∀ file, state.program.logger.files state.program.logger.outfd = some file →
      state.content file = []
  Step before label after := OpensEmpty before label ∧ Step env passes before label after

/-- The offset is at the end of the log file. -/
def AtEnd (state : State) : Prop :=
  state.program.logger.outfd ≠ -1 →
    ∀ file, state.program.logger.files state.program.logger.outfd = some file →
      state.offset = (state.content file).length

theorem put_end (bytes content : List UInt8) :
    put content.length bytes content = content ++ bytes := by
  rw [put]
  split
  · rename_i empty
    rw [empty, List.append_nil]
  · simp

namespace AtEnd

variable {before : State} {after : Program.State}

/-- A step in which nothing is written and no file is opened. -/
theorem quiet (atEnd : AtEnd before) {label : Label} (accepted : Nat)
    (writes : after.logger.writes = before.program.logger.writes)
    (notOpens : opens label = false)
    (files : after.logger.outfd ≠ -1 →
      after.logger.outfd = before.program.logger.outfd ∧ ∀ file,
        after.logger.files after.logger.outfd = some file →
          before.program.logger.files before.program.logger.outfd = some file) :
    AtEnd (before.follow accepted label after) := by
  rw [State.follow_quiet accepted writes notOpens]
  intro running file isOpen
  rcases files running with ⟨outfd, same⟩
  exact atEnd (outfd ▸ running) file (same file isOpen)

/-- What `write` takes of a line is put behind what the file contains. -/
theorem write (atEnd : AtEnd before) {write : Write} (accepted : Nat)
    (running : before.program.logger.outfd ≠ -1)
    (files : after.logger.files = before.program.logger.files)
    (outfd : after.logger.outfd = before.program.logger.outfd)
    (toFile : write.file = before.program.logger.files before.program.logger.outfd)
    (one : after.logger.writes = before.program.logger.writes ++ [write]) (nanotime : Nat) :
    AtEnd (before.follow accepted (.poll nanotime) after) := by
  have followed : before.follow accepted (.poll nanotime) after =
      { before.write accepted write with program := after } := by
    simp only [State.follow, one, List.drop_left, List.foldl_cons, List.foldl_nil, opens,
      Bool.false_eq_true, if_false]
  intro _ file isOpen
  rw [followed] at isOpen ⊢
  simp only [files, outfd, ← toFile] at isOpen
  have offset := atEnd running file (toFile ▸ isOpen)
  simp only [State.write, isOpen, offset, put_end, Function.update_self, List.length_append]

/-- The file that is opened is empty, and the offset is at its start. -/
theorem openFile (atEnd : AtEnd before) (path : File) (fd : Int) (accepted : Nat)
    (empty : fd ≠ -1 → before.content path = []) :
    AtEnd (before.follow accepted (.openFile path fd)
      (before.program.openFile path fd)) := by
  by_cases failed : fd = -1
  · subst failed
    exact atEnd.quiet accepted rfl rfl fun running => absurd rfl running
  · have opened : before.program.openFile path fd = _ := if_neg failed
    have opensFile : opens (.openFile path fd) = true := bne_iff_ne.mpr failed
    have writes : (before.program.openFile path fd).logger.writes =
        before.program.logger.writes := by
      rw [opened]
    have followed : before.follow accepted (.openFile path fd)
          (before.program.openFile path fd) =
        { before with program := before.program.openFile path fd, offset := 0 } := by
      simp only [State.follow, writes, List.drop_length, List.foldl_nil, opensFile, if_true]
    rw [followed]
    intro _ file isOpen
    simp only [opened, Function.update_self, Option.some.injEq] at isOpen
    subst isOpen
    simp [empty failed]

theorem close (atEnd : AtEnd before) (accepted : Nat) :
    AtEnd (before.follow accepted .close before.program.close) := by
  have writes : before.program.close.logger.writes = before.program.logger.writes := rfl
  have notOpens : opens .close = false := rfl
  apply atEnd.quiet accepted writes notOpens
  intro running
  refine ⟨rfl, fun file isOpen => ?_⟩
  have closed : State.closedFiles before.program.logger = _ := if_pos running
  simp only [State.close, closed, Function.update_self] at isOpen
  cases isOpen

theorem step (atEnd : AtEnd before) {label : Label × Nat} {reached : State}
    (flags : Flags before.program) (empty : OpensEmpty before label)
    (step : Step env passes before label reached) : AtEnd reached := by
  cases step with
  | @program label after accepted step =>
      rcases step_files step with ⟨files, outfd, notOpens, _⟩ | ⟨path, fd, rfl, rfl, _⟩ |
        ⟨rfl, rfl⟩
      · have quiet (writes : after.logger.writes = before.program.logger.writes) :
            AtEnd (before.follow accepted label after) := by
          apply atEnd.quiet accepted writes notOpens
          intro _
          refine ⟨outfd, fun file isOpen => ?_⟩
          rwa [files, outfd] at isOpen
        rcases step_writes step with same | ⟨nanotime, rfl, rfl⟩
        · exact quiet same
        · rcases poll_writes nanotime before.program with same | ⟨write, toFile, one⟩
          · exact quiet same
          · have running : before.program.poll ≠ .exited := by
              cases step with
              | poll _ running => exact running
            exact atEnd.write accepted (flags.file running) files outfd toFile one nanotime
      · exact atEnd.openFile path fd accepted empty
      · exact atEnd.close accepted

/-- The next line is written at the end of its file. -/
theorem writesAtEnd (atEnd : AtEnd before) (flags : Flags before.program) {label : Label × Nat}
    {reached : State} (step : Step env passes before label reached) :
    WritesAtEnd env passes before label := by
  cases step with
  | program accepted step =>
      cases step with
      | poll nanotime running =>
          intro _ file isOpen
          exact (atEnd (flags.file running) file isOpen).ge
      | _ => trivial

end AtEnd

theorem reachable_program {state : State} (reachable : (system env passes).Reachable state) :
    (Program.system env passes).Reachable state.program := by
  induction reachable with
  | initial starts => exact .initial starts.1
  | step _ taken induction =>
      cases taken with
      | program _ step => exact .step induction step

theorem reachable_of_openingEmpty {state : State}
    (reachable : (openingEmpty env passes).Reachable state) :
    (system env passes).Reachable state := by
  apply reachable.mono
  · intro state starts
    exact starts.1
  · intro before label after taken
    exact taken.2

/-- The offset stays at the end of the log file, however much `write` takes of a line. -/
theorem reachable_atEnd {state : State}
    (reachable : (openingEmpty env passes).Reachable state) : AtEnd state := by
  induction reachable with
  | initial starts =>
      intro _ file isOpen
      rw [starts.1.2, starts.2 file isOpen]
      rfl
  | step earlier taken induction =>
      have flags := reachable_flags (reachable_program (reachable_of_openingEmpty earlier))
      exact induction.step flags taken.1 taken.2

/-- If each log file is empty when it is opened, lines are written at the end of their files
only. -/
theorem run_writesAtEnd {start final : State} {labels : List (Label × Nat)}
    (reachable : (openingEmpty env passes).Reachable start)
    (run : (openingEmpty env passes).Run start labels final) :
    ((system env passes).restrict (WritesAtEnd env passes)).Run start labels final := by
  induction run with
  | nil => exact .nil
  | snoc earlier taken induction =>
      have reached := reachable.run earlier
      have flags := reachable_flags (reachable_program (reachable_of_openingEmpty reached))
      exact induction.snoc ⟨(reachable_atEnd reached).writesAtEnd flags taken.2, taken.2⟩

/-- If each log file is empty when it is opened, files only grow, and the offset stays at the
end of the log file, however much `write` takes of a line. -/
theorem grows_from_empty {start final : State} {labels : List (Label × Nat)}
    (reachable : (openingEmpty env passes).Reachable start)
    (run : (openingEmpty env passes).Run start labels final) (file : File) :
    start.content file <+: final.content file ∧ AtEnd final := by
  refine ⟨?_, reachable_atEnd (reachable.run run)⟩
  apply (run_writesAtEnd reachable run).invariant
    (fun state => start.content file <+: state.content file)
  · intro before label after earlier step
    exact earlier.trans (step_grows step file)
  · exact List.prefix_refl _

/-! ## Stretches of a run in which nothing is written -/

/-- A condition that no step violates in which nothing is written and no file is opened. -/
def AllowsQuiet (env : Environment) (passes : Nat) (Allowed : State → Label × Nat → Prop) :
    Prop :=
  ∀ state label after, Program.Step env passes state.program label after →
    after.logger.writes = state.program.logger.writes → opens label = false →
      Allowed state (label, 0)

theorem run_quiet {Allowed : State → Label × Nat → Prop}
    (allowed : AllowsQuiet env passes Allowed) {start final : Program.State} {labels : List Label}
    (run : (Program.system env passes).Run start labels final)
    (quiet : final.logger.writes = start.logger.writes)
    (notOpens : ∀ label ∈ labels, opens label = false) (content : File → List UInt8)
    (offset : Nat) :
    ((system env passes).restrict Allowed).Run ⟨start, content, offset⟩
      (labels.map fun label => (label, 0)) ⟨final, content, offset⟩ := by
  induction run with
  | nil => exact .nil
  | @snoc labels before after label earlier taken induction =>
      have older := run_writes_isPrefix earlier
      have later := step_writes_isPrefix taken
      rw [quiet] at later
      have same : before.logger.writes = start.logger.writes :=
        later.eq_of_length_le older.length_le
      have quietly : opens label = false := notOpens label (by simp)
      have allows := allowed ⟨before, content, offset⟩ label after taken
        (quiet.trans same.symm) quietly
      have taken' : Step env passes ⟨before, content, offset⟩ (label, 0)
          (State.follow 0 label after ⟨before, content, offset⟩) := .program 0 taken
      rw [State.follow_quiet 0 (quiet.trans same.symm) quietly] at taken'
      rw [List.map_append]
      exact .snoc (induction same fun other member => notOpens other (by simp [member]))
        ⟨allows, taken'⟩

/-- The program from empty files on, under a condition on its steps. -/
def fromEmpty (env : Environment) (passes : Nat) (Allowed : State → Label × Nat → Prop) :
    System State (Label × Nat) :=
  { (system env passes).restrict Allowed with
    Initial := fun state => (system env passes).Initial state ∧ state.content = fun _ => [] }

/-- Until the first line is written, all files stay empty. -/
theorem reachable_quiet {Allowed : State → Label × Nat → Prop} {program : Program.State}
    (allowed : ∀ before label after, Program.Step env passes before label after →
      after.logger.writes = before.logger.writes → Allowed ⟨before, fun _ => [], 0⟩ (label, 0))
    (reachable : (Program.system env passes).Reachable program)
    (quiet : program.logger.writes = []) :
    (fromEmpty env passes Allowed).Reachable ⟨program, fun _ => [], 0⟩ := by
  induction reachable with
  | initial starts => exact .initial ⟨⟨starts, rfl⟩, rfl⟩
  | @step before after label earlier taken induction =>
      have later := step_writes_isPrefix taken
      rw [quiet, List.prefix_nil] at later
      have taken' : Step env passes ⟨before, fun _ => [], 0⟩ (label, 0)
          (State.follow 0 label after ⟨before, fun _ => [], 0⟩) := .program 0 taken
      have same : State.follow 0 label after ⟨before, fun _ => [], 0⟩ =
          ⟨after, fun _ => [], 0⟩ := by
        simp only [State.follow, quiet, later, List.drop_nil, List.foldl_nil, ite_self]
      rw [same] at taken'
      exact .step (induction later) ⟨allowed before label after taken (quiet.trans later.symm),
        taken'⟩

theorem opensEmpty_empty (before : Program.State) (label : Label) (after : Program.State)
    (_ : Program.Step env passes before label after)
    (_ : after.logger.writes = before.logger.writes) :
    OpensEmpty ⟨before, fun _ => [], 0⟩ (label, 0) := by
  cases label with
  | openFile path fd => exact fun _ => rfl
  | _ => trivial

theorem allowsQuiet_opensEmpty : AllowsQuiet env passes OpensEmpty := by
  intro state label after _ _ notOpens
  cases label with
  | openFile path fd =>
      intro valid
      rw [opens, bne_iff_ne.mpr valid] at notOpens
      cases notOpens
  | _ => trivial

end Runs

/-! ## Two lines -/

namespace TwoLines

open Backend.Example Program.Example

def logTxt : File := ascii "log.txt"

/-- The poll thread is about to process the first entry; all files are empty. -/
def beforeFirst : State :=
  ⟨logged.polls (env hi) 3 nanotime 3, fun _ => [], 0⟩

/-- The line has been written. -/
def first : State :=
  beforeFirst.follow 200 (.poll nanotime)
    (beforeFirst.program.pollStep (env hi) 3 nanotime)

theorem reachable_beforeFirst : (openingEmpty (env hi) 3).Reachable beforeFirst := by
  have program : (Program.system (env hi) 3).Reachable beforeFirst.program :=
    reachable_logged.of_restrict.run (run_polls nanotime logged 3 (by decide +kernel))
  have quiet : beforeFirst.program.logger.writes = [] := List.isEmpty_iff.mp (by decide +kernel)
  have empty := @reachable_quiet (env hi) 3 OpensEmpty _ opensEmpty_empty program quiet
  apply empty.mono
  · rintro state ⟨starts, empty⟩
    exact ⟨starts, fun file _ => congrFun empty file⟩
  · intro before label after taken
    exact taken

theorem step_first : Step (env hi) 3 beforeFirst (.poll nanotime, 200) first :=
  .program 200 (.poll nanotime (by decide +kernel))

/-- `setLogFile` is called and behind `join`. -/
def joinedAgain : State :=
  ⟨joining 6 (first.program.polls (env hi) 3 nanotime 1), first.content, first.offset⟩

def setTo (path : File) : State :=
  joinedAgain.follow 0 (.openFile path 4) (joinedAgain.program.openFile path 4)

/-- The thread logs once more. -/
def loggedAgain (program : Program.State) : Program.State :=
  ((program.enter 0 (.entering 32)).reserve 0 0 32).commit 0 0 late

/-- The poll thread is about to process the second entry. -/
def beforeSecond (count : Nat) (state : State) : State :=
  { state with program := (loggedAgain state.program).polls (env hi) 3 (nanotime + 5) count }

/-- `write` has taken some bytes of the second line. -/
def second (count accepted : Nat) (state : State) : State :=
  (beforeSecond count state).follow accepted (.poll (nanotime + 5))
    ((beforeSecond count state).program.pollStep (env hi) 3 (nanotime + 5))

section Quiet

variable {Allowed : State → Label × Nat → Prop} (allowed : AllowsQuiet (env hi) 3 Allowed)
include allowed

/-- The poll thread returns. -/
theorem run_joinedAgain :
    ∃ labels, ((system (env hi) 3).restrict Allowed).Run first labels joinedAgain := by
  have unlocked : (Program.system (env hi) 3).Run first.program _ _ :=
    run_polls nanotime first.program 1 (by decide +kernel)
  have joins : Program.Step (env hi) 3 (first.program.polls (env hi) 3 nanotime 1)
      .setLogFile ((first.program.polls (env hi) 3 nanotime 1).raiseFlags .joining) :=
    .setLogFile (by decide +kernel) (by decide +kernel)
  have exits : (Program.system (env hi) 3).Run
      ((first.program.polls (env hi) 3 nanotime 1).raiseFlags .joining) _
      joinedAgain.program :=
    run_polls nanotime _ 6 (by decide +kernel)
  exact ⟨_, run_quiet allowed ((unlocked.snoc joins).append exits) (by rfl) (by decide)
    first.content first.offset⟩

/-- The thread logs, and the poll thread finds the entry. -/
theorem run_beforeSecond {state : State} {count : Nat} (here : state.program.At 0 .idle (some 0))
    (granted : ((state.program.enter 0 (.entering 32)).reserve 0 0 32).At 0 (.reserved 32)
      (some 0))
    (running : ∀ earlier < count,
      ((loggedAgain state.program).polls (env hi) 3 (nanotime + 5) earlier).poll ≠ .exited)
    (quiet : (beforeSecond count state).program.logger.writes = state.program.logger.writes) :
    ∃ labels, ((system (env hi) 3).restrict Allowed).Run state labels
      (beforeSecond count state) := by
  have atEntering : (state.program.enter 0 (.entering 32)).At 0 (.entering 32) (some 0) :=
    ⟨State.enter_phase_self, (State.enter_stagingBuffer 0).trans here.2⟩
  have starts : (Program.system (env hi) 3).Run state.program [] state.program := .nil
  have logs := ((starts.snoc (.log here)).snoc (.reserve atEntering)).snoc
    (.commit late granted (by decide))
  have polls := run_polls (nanotime + 5) (loggedAgain state.program) count running
  refine ⟨_, run_quiet allowed (logs.append polls) quiet ?_ state.content state.offset⟩
  intro label member
  simp only [List.nil_append, List.mem_append, List.mem_singleton, List.mem_replicate] at member
  rcases member with ((rfl | rfl) | rfl) | ⟨_, rfl⟩ <;> rfl

end Quiet

/-- Both lines go to the same file, and `write` takes a part of the second one only. -/
theorem run_second : ∃ labels, (openingEmpty (env hi) 3).Run beforeFirst labels
    (second 4 50 first) := by
  have here : first.program.At 0 .idle (some 0) := by constructor <;> decide +kernel
  have granted : ((first.program.enter 0 (.entering 32)).reserve 0 0 32).At 0 (.reserved 32)
      (some 0) := by constructor <;> decide +kernel
  rcases @run_beforeSecond _ allowsQuiet_opensEmpty first 4 here granted (by decide +kernel)
    (by rfl) with ⟨_, logged⟩
  have steps : ∀ before label after,
      ((system (env hi) 3).restrict OpensEmpty).Step before label after →
        (openingEmpty (env hi) 3).Step before label after := fun _ _ _ taken => taken
  have written : (openingEmpty (env hi) 3).Run beforeFirst [(.poll nanotime, 200)] first :=
    .snoc .nil ⟨trivial, step_first⟩
  have last : (openingEmpty (env hi) 3).Step (beforeSecond 4 first)
      (.poll (nanotime + 5), 50) (second 4 50 first) :=
    ⟨trivial, .program 50 (.poll (nanotime + 5) (by decide +kernel))⟩
  exact ⟨_, (written.append (logged.mono steps)).snoc last⟩

end TwoLines

open Backend.Example TwoLines in
theorem files_grow_twoLines :
    beforeFirst.content logTxt <+: (second 4 50 first).content logTxt ∧
      ((second 4 50 first).content logTxt).length = 97 + 50 := by
  rcases run_second with ⟨_, run⟩
  exact ⟨files_grow (run_writesAtEnd reachable_beforeFirst run) logTxt, by decide +kernel⟩

open TwoLines in
theorem grows_from_empty_twoLines :
    beforeFirst.content logTxt <+: (second 4 50 first).content logTxt ∧
      AtEnd (second 4 50 first) ∧ (second 4 50 first).offset = 97 + 50 := by
  rcases run_second with ⟨_, run⟩
  have grows := grows_from_empty reachable_beforeFirst run logTxt
  exact ⟨grows.1, grows.2, by decide +kernel⟩

/-! ## A file that is set twice -/

open Backend.Example TwoLines in
/-- The file is opened again at offset 0, and the second line is put over the first. -/
theorem second_line_overwrites :
    (system (env hi) 3).Reachable first ∧
      (∃ labels, (system (env hi) 3).Run first labels (second 5 200 (setTo logTxt))) ∧
      ¬first.content logTxt <+: (second 5 200 (setTo logTxt)).content logTxt := by
  have always : AllowsQuiet (env hi) 3 fun _ _ => True := fun _ _ _ _ _ _ => trivial
  have here : (setTo logTxt).program.At 0 .idle (some 0) := by constructor <;> decide +kernel
  have granted : (((setTo logTxt).program.enter 0 (.entering 32)).reserve 0 0 32).At 0
      (.reserved 32) (some 0) := by constructor <;> decide +kernel
  rcases run_joinedAgain always with ⟨_, joined⟩
  rcases @run_beforeSecond _ always (setTo logTxt) 5 here granted (by decide +kernel)
    (by rfl) with ⟨_, logged⟩
  have opened : Step (env hi) 3 joinedAgain (.openFile logTxt 4, 0) (setTo logTxt) :=
    .program 0 (.openFile logTxt 4 (by decide +kernel) (by decide +kernel) (by decide +kernel))
  have last : Step (env hi) 3 (beforeSecond 5 (setTo logTxt)) (.poll (nanotime + 5), 200)
      (second 5 200 (setTo logTxt)) :=
    .program 200 (.poll (nanotime + 5) (by decide +kernel))
  have start := reachable_of_openingEmpty reachable_beforeFirst
  exact ⟨start.step step_first,
    ⟨_, ((joined.of_restrict.snoc opened).append logged.of_restrict).snoc last⟩,
    by decide +kernel⟩

end Files

end StaticLog.Program
