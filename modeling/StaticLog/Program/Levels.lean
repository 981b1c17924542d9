import StaticLog.Program.LineOrder

/-! # Log levels

`STATIC_LOG` compares its severity with the level of the logger before it reserves any
space, and does not look at it again. The program of threads is taken together with that
level and with the statement that each thread is in. The arguments of a statement neither
log nor throw. -/

namespace StaticLog

/-- The enumerators of `LogLevel` are numbered in their order. -/
def LogLevel.value : LogLevel → Int
  | .silent => 0
  | .error => 1
  | .warning => 2
  | .notice => 3
  | .debug => 4

namespace Program.Levels

open Backend Execution

/-- `kNUM_LOG_LEVELS`. -/
def numLogLevels : Int := 5

/-- What `setLogLevel` makes of its argument. -/
def setLogLevel (logLevel : Int) : Int :=
  if logLevel < 0 then 0
  else if logLevel ≥ numLogLevels then numLogLevels - 1
  else logLevel

structure State where
  program : Program.State
  currentLogLevel : Int
  /-- The severity of the statement that a thread is in. -/
  severities : Nat → Option LogLevel

inductive Label
  | setLogLevel (logLevel : Int)
  /-- The thread comes to a statement. -/
  | statement (thread : Nat) (severity : LogLevel)
  | program (label : Program.Label)

/-- Space is reserved inside of statements only, and what is committed in a statement
points to its static data. -/
def State.Allows (env : Environment) (state : State) : Program.Label → Prop
  | .preallocate thread => state.severities thread = none
  | .destroy thread => state.severities thread = none
  | .log thread _ => state.severities thread ≠ none
  | .commit thread entry =>
      state.severities thread = some (env.staticInfo entry.record.staticInfo).logLevel
  | _ => True

/-- The commit is the end of a statement. -/
def State.follow (label : Program.Label) (after : Program.State) (state : State) : State :=
  { state with
    program := after
    severities :=
      match label with
      | .commit thread _ => Function.update state.severities thread none
      | _ => state.severities }

inductive Step (env : Environment) (passes : Nat) : State → Label → State → Prop
  | setLogLevel {state : State} (logLevel : Int) :
      Step env passes state (.setLogLevel logLevel)
        { state with currentLogLevel := setLogLevel logLevel }
  | drop {state : State} {thread : Nat} {severity : LogLevel} :
      (state.program.threads thread).phase = .idle → state.severities thread = none →
      severity.value > state.currentLogLevel →
      Step env passes state (.statement thread severity) state
  | pass {state : State} {thread : Nat} {severity : LogLevel} :
      (state.program.threads thread).phase = .idle → state.severities thread = none →
      ¬severity.value > state.currentLogLevel →
      Step env passes state (.statement thread severity)
        { state with severities := Function.update state.severities thread (some severity) }
  | program {state : State} {label : Program.Label} {after : Program.State} :
      state.Allows env label → Program.Step env passes state.program label after →
      Step env passes state (.program label) (state.follow label after)

/-- The constructor of the logger sets the level to `kDEBUG`. -/
def system (env : Environment) (passes : Nat) : System State Label where
  Initial state := (Program.system env passes).Initial state.program ∧
    state.currentLogLevel = LogLevel.debug.value ∧ ∀ thread, state.severities thread = none
  Step := Step env passes

section Levels

variable {env : Environment} {passes length : Nat} {start middle final : State}
  {labels : List Label}

/-! ## Which lines are written -/

/-- The entry that the thread commits in the step. -/
def Label.commits (thread : Nat) : Label → List Entry
  | .program (.commit other entry) => if other = thread then [entry] else []
  | _ => []

/-- The entry is the first one that the thread commits in these steps, and when they began
the thread was already in the statement. -/
def Begun (env : Environment) (middle : State) (labels : List Label) (entry : Entry) : Prop :=
  ∃ thread,
    middle.severities thread = some (env.staticInfo entry.record.staticInfo).logLevel ∧
    (labels.flatMap (Label.commits thread)).head? = some entry

/-- From some time on the level is not above the bound, no statement is that was not begun
before, and no entry is that is neither an old one nor the end of such a statement. -/
structure Capped (env : Environment) (bound : Int) (middle : State) (labels : List Label)
    (state : State) : Prop where
  level : state.currentLogLevel ≤ bound
  severities : ∀ thread severity, state.severities thread = some severity →
    severity.value ≤ bound ∨
      (middle.severities thread = some severity ∧
        labels.flatMap (Label.commits thread) = [])
  commits : ∀ commit ∈ state.program.commits, commit ∈ middle.program.commits ∨
    (env.staticInfo commit.entry.record.staticInfo).logLevel.value ≤ bound ∨
      Begun env middle labels commit.entry

/-- The level is not set above the bound. -/
def Label.Lowers (bound : Int) : Label → Prop
  | .setLogLevel logLevel => Levels.setLogLevel logLevel ≤ bound
  | _ => True

theorem Begun.append {labels : List Label} {entry : Entry} (begun : Begun env middle labels entry)
    (label : Label) : Begun env middle (labels ++ [label]) entry := by
  rcases begun with ⟨thread, inside, first⟩
  refine ⟨thread, inside, ?_⟩
  rw [List.flatMap_append, List.head?_append, first]
  rfl

namespace Capped

variable {bound : Int} {before after : State}

theorem initial {state : State} (level : state.currentLogLevel ≤ bound) :
    Capped env bound state [] state :=
  ⟨level, fun _ _ there => .inr ⟨there, rfl⟩, fun _ member => .inl member⟩

/-- A step in which nothing is committed. -/
theorem quiet (capped : Capped env bound middle labels before) {label : Label}
    (level : after.currentLogLevel ≤ bound) (nothing : ∀ thread, label.commits thread = [])
    (severities : ∀ thread severity, after.severities thread = some severity →
      before.severities thread = some severity ∨ severity.value ≤ bound)
    (commits : after.program.commits = before.program.commits) :
    Capped env bound middle (labels ++ [label]) after := by
  refine ⟨level, ?_, ?_⟩
  · intro thread severity there
    rcases severities thread severity there with before | below
    · rcases capped.severities thread severity before with below | ⟨begun, none⟩
      · exact .inl below
      · exact .inr ⟨begun, by simp [none, nothing]⟩
    · exact .inl below
  · intro commit member
    rw [commits] at member
    rcases capped.commits commit member with old | below | begun
    · exact .inl old
    · exact .inr (.inl below)
    · exact .inr (.inr (begun.append label))

/-- The end of a statement. -/
theorem commit (capped : Capped env bound middle labels before) {thread ring : Nat}
    {entry : Entry} (inside : before.severities thread =
      some (env.staticInfo entry.record.staticInfo).logLevel) :
    Capped env bound middle (labels ++ [.program (.commit thread entry)])
      (before.follow (.commit thread entry) (before.program.commit thread ring entry)) := by
  refine ⟨capped.level, ?_, ?_⟩
  · intro other severity there
    have different : other ≠ thread := by
      rintro rfl
      simp [State.follow] at there
    have before : before.severities other = some severity := by
      simpa [State.follow, Function.update_of_ne different] using there
    rcases capped.severities other severity before with below | ⟨begun, none⟩
    · exact .inl below
    · exact .inr ⟨begun, by simp [none, Label.commits, Ne.symm different]⟩
  · intro commit member
    rcases List.mem_append.mp member with member | member
    · rcases capped.commits commit member with old | below | begun
      · exact .inl old
      · exact .inr (.inl below)
      · exact .inr (.inr (begun.append _))
    · rw [List.mem_singleton.mp member]
      rcases capped.severities thread _ inside with below | ⟨begun, none⟩
      · exact .inr (.inl below)
      · exact .inr (.inr ⟨thread, begun, by simp [none, Label.commits]⟩)

theorem follow (capped : Capped env bound middle labels before) {label : Program.Label}
    {reached : Program.State} (allows : before.Allows env label)
    (step : Program.Step env passes before.program label reached) :
    Capped env bound middle (labels ++ [.program label]) (before.follow label reached) := by
  have control := step.control
  cases step with
  | commit entry here sized => exact capped.commit allows
  | setLogFile _ _ =>
      exact capped.quiet capped.level (fun _ => rfl) (fun _ _ => .inl) (control id).commits
  | setLogFileAgain _ _ =>
      exact capped.quiet capped.level (fun _ => rfl) (fun _ _ => .inl) (control id).commits
  | openFile path fd _ _ _ =>
      exact capped.quiet capped.level (fun _ => rfl) (fun _ _ => .inl) (control id).commits
  | stop _ =>
      exact capped.quiet capped.level (fun _ => rfl) (fun _ _ => .inl) (control id).commits
  | close _ _ =>
      exact capped.quiet capped.level (fun _ => rfl) (fun _ _ => .inl) (control id).commits
  | _ => exact capped.quiet capped.level (fun _ => rfl) (fun _ _ => .inl) rfl

theorem step (capped : Capped env bound middle labels before) {label : Label}
    (lowers : label.Lowers bound) (step : Step env passes before label after) :
    Capped env bound middle (labels ++ [label]) after := by
  cases step with
  | setLogLevel logLevel => exact capped.quiet lowers (fun _ => rfl) (fun _ _ => .inl) rfl
  | drop _ _ _ => exact capped.quiet capped.level (fun _ => rfl) (fun _ _ => .inl) rfl
  | @pass thread severity _ _ allowed =>
      refine capped.quiet capped.level (fun _ => rfl) ?_ rfl
      intro other reached there
      by_cases same : other = thread
      · subst same
        simp only [Function.update_self, Option.some.injEq] at there
        exact .inr (there ▸ le_trans (not_lt.mp allowed) capped.level)
      · simp only [Function.update_of_ne same] at there
        exact .inl there
  | program allows step => exact capped.follow allows step

theorem run (level : middle.currentLogLevel ≤ bound)
    (lowers : ∀ label ∈ labels, label.Lowers bound)
    (run : (system env passes).Run middle labels final) :
    Capped env bound middle labels final := by
  induction run with
  | nil => exact .initial level
  | snoc _ taken induction =>
      have earlier := induction fun label member => lowers label (List.mem_append_left _ member)
      exact earlier.step (lowers _ (by simp)) taken

end Capped

/-- What the program does in the step. -/
def Label.steps : Label → List Program.Label
  | .program label => [label]
  | _ => []

theorem run_program (run : (system env passes).Run start labels final) :
    (Program.system env passes).Run start.program (labels.flatMap Label.steps)
      final.program := by
  induction run with
  | nil => exact .nil
  | snoc _ taken induction =>
      rw [List.flatMap_append]
      cases taken with
      | program _ step => exact induction.snoc step
      | _ =>
          simp only [List.flatMap_cons, List.flatMap_nil, Label.steps, List.append_nil]
          exact induction

/-- Once the level is not above a bound and stays so, every line that is written stems from
an entry that was committed before or from a statement that its thread was in already, or
its severity is not above the bound either. -/
theorem lines_leveled (allocates : env.libc.Allocates) (enough : 0 < passes)
    {earlier later : List Label} (starts : (printing env passes length).Initial start.program)
    (begins : (system env passes).Run start earlier middle)
    (ends : (system env passes).Run middle later final)
    (prints : ∀ label ∈ (earlier ++ later).flatMap Label.steps, label.Prints env length)
    {bound : Int} (level : middle.currentLogLevel ≤ bound)
    (lowers : ∀ label ∈ later, label.Lowers bound) {composed : Composed}
    (written : composed ∈
      Composed.all start.program.logger.output.held final.program.logger.writes) :
    ∃ commit ∈ final.program.commits, commit.ring = composed.write.ring ∧
      ∃ (call : PrintfCall) (nanotime : Nat), call.Logs env length commit.entry ∧
        call.IsLine env nanotime composed.held composed.write.line ∧
        (commit ∈ middle.program.commits ∨ call.statement.severity.value ≤ bound ∨
          Begun env middle later commit.entry) := by
  have capped := Capped.run level lowers ends
  have run := run_printing (run_program (begins.append ends)) prints
  rcases List.sublistForall₂_iff.mp (origins allocates enough starts run) with
    ⟨stamps, origins, _⟩
  rcases List.getElem_of_mem written with ⟨i, inside, rfl⟩
  rcases List.forall₂_iff_get.mp origins with ⟨sameLength, each⟩
  have stamped : i < stamps.length := sameLength ▸ inside
  rcases each i inside stamped with ⟨call, ⟨commit, member, ring, logs⟩, isLine⟩
  refine ⟨commit, member, ring, call, stamps.get ⟨i, stamped⟩, logs, isLine, ?_⟩
  have info : env.staticInfo commit.entry.record.staticInfo = call.info := by
    rw [logs.stores.params.2.1, logs.known.info]
  have capped := capped.commits commit member
  rw [info] at capped
  exact capped

end Levels

/-! ## A level that is lowered -/

theorem run_polls {env : Environment} {passes : Nat} (nanotime : Nat) (state : State)
    (count : Nat)
    (running : ∀ earlier < count,
      (state.program.polls env passes nanotime earlier).poll ≠ .exited) :
    (system env passes).Run state (List.replicate count (.program (.poll nanotime)))
      { state with program := state.program.polls env passes nanotime count } := by
  induction count with
  | zero => exact .nil
  | succ count induction =>
      have before := induction fun earlier less => running earlier (by omega)
      rw [List.replicate_succ']
      exact before.snoc (.program trivial (.poll nanotime (running count (by omega))))

namespace Example

open Backend.Example Program.Example

def started : State := ⟨begun, LogLevel.debug.value, fun _ => none⟩

/-- The poll thread does not hold the lock. -/
def unlocked : State := { started with program := begun.polls stringEnv 1 nanotime 2 }

/-- The thread has come to its statement, and then the level has been set to `kNOTICE`. -/
def lowered : State :=
  { unlocked with
    currentLogLevel := setLogLevel LogLevel.notice.value
    severities := Function.update unlocked.severities 0 (some .debug) }

/-- The statement has ended. -/
def ended : State :=
  { lowered with
    program := stringLogged
    severities := Function.update lowered.severities 0 none }

/-- The poll thread has written the line. -/
def written : State := { ended with program := stringWritten }

def loweredLabels : List Label :=
  List.replicate 2 (.program (.poll nanotime)) ++
    [.statement 0 .debug, .setLogLevel LogLevel.notice.value]

/-- When the thread comes to its statement again, it is dropped. -/
def writtenLabels : List Label :=
  [.program (.log 0 42), .program (.create 0), .program (.register 0), .program (.reserve 0),
      .program (.commit 0 stringEntry)] ++
    .statement 0 .debug :: List.replicate 4 (.program (.poll nanotime))

theorem run_lowered : (system stringEnv 1).Run started loweredLabels lowered := by
  have polls : (system stringEnv 1).Run started
      (List.replicate 2 (.program (.poll nanotime))) unlocked :=
    run_polls nanotime started 2 (by decide +kernel)
  have here : (unlocked.program.threads 0).phase = .idle := by decide +kernel
  have passes : Step stringEnv 1 unlocked (.statement 0 .debug)
      { unlocked with severities := Function.update unlocked.severities 0 (some .debug) } :=
    .pass here rfl (by decide)
  exact polls.append (.cons passes (.snoc .nil (.setLogLevel _)))

theorem run_ended :
    (system stringEnv 1).Run lowered
      [.program (.log 0 42), .program (.create 0), .program (.register 0),
        .program (.reserve 0), .program (.commit 0 stringEntry)] ended := by
  have here : lowered.program.At 0 .idle none := by constructor <;> decide +kernel
  have free : lowered.program.lockFree = true := by decide +kernel
  have commits : (Program.system stringEnv 1).Run _ _ _ := run_firstLog stringEntry here free
  rcases commits.uncons with ⟨created, create, commits⟩
  rcases commits.uncons with ⟨registered, register, commits⟩
  rcases commits.uncons with ⟨reserved, reserve, commits⟩
  rcases commits.uncons with ⟨committed, commit, commits⟩
  cases commits.eq_start
  let running (program : Program.State) : State := { lowered with program := program }
  have inside : lowered.severities 0 = some .debug := rfl
  have level : (stringEnv.staticInfo stringEntry.record.staticInfo).logLevel = .debug := rfl
  have logs : Step stringEnv 1 lowered (.program (.log 0 42))
      (running (lowered.program.number 0 (some 42))) :=
    .program (by simp [State.Allows, inside]) (step_firstLog stringEntry here free)
  have creates : Step stringEnv 1 (running (lowered.program.number 0 (some 42)))
      (.program (.create 0)) (running created) := .program trivial create
  have registers : Step stringEnv 1 (running created) (.program (.register 0))
      (running registered) := .program trivial register
  have reserves : Step stringEnv 1 (running registered) (.program (.reserve 0))
      (running reserved) := .program trivial reserve
  have ends : Step stringEnv 1 (running reserved) (.program (.commit 0 stringEntry)) ended :=
    .program (by simp [State.Allows, running, inside, level]) commit
  exact .cons logs (.cons creates (.cons registers (.cons reserves (.snoc .nil ends))))

theorem run_written : (system stringEnv 1).Run lowered writtenLabels written := by
  have drops : Step stringEnv 1 ended (.statement 0 .debug) ended :=
    .drop (by decide +kernel) (by decide) (by decide)
  exact run_ended.append (.cons drops (run_polls nanotime ended 4 (by decide +kernel)))

theorem prints_lowered :
    ∀ label ∈ (loweredLabels ++ writtenLabels).flatMap Label.steps,
      label.Prints stringEnv (2 ^ 20) := by
  have steps : (loweredLabels ++ writtenLabels).flatMap Label.steps =
      List.replicate 2 (.poll nanotime) ++ .log 0 42 ::
        ([.create 0, .register 0, .reserve 0, .commit 0 stringEntry] ++
          List.replicate 4 (.poll nanotime)) := rfl
  rw [steps]
  intro label member
  simp only [List.mem_append, List.mem_cons, List.mem_replicate] at member
  rcases member with ⟨_, rfl⟩ | rfl | member | ⟨_, rfl⟩
  · trivial
  · trivial
  · exact prints_firstLog label (by simpa using member)
  · trivial

end Example

/-- The line is that of the statement that the thread was in. -/
theorem lines_leveled_lowered :
    ∃ composed ∈ Composed.all Example.started.program.logger.output.held
        Example.written.program.logger.writes,
      ∃ commit ∈ Example.written.program.commits, commit.ring = composed.write.ring ∧
        ∃ (call : PrintfCall) (nanotime : Nat),
          call.Logs Backend.Example.stringEnv (2 ^ 20) commit.entry ∧
          call.IsLine Backend.Example.stringEnv nanotime composed.held composed.write.line ∧
          (commit ∈ Example.lowered.program.commits ∨ call.statement.severity.value ≤ 3 ∨
            Begun Backend.Example.stringEnv Example.lowered Example.writtenLabels
              commit.entry) := by
  have lines : Example.written.program.logger.writes ≠ [] := by decide +kernel
  rcases List.exists_mem_of_ne_nil _ lines with ⟨write, member⟩
  rcases Composed.exists_of_mem Example.started.program.logger.output.held member with
    ⟨composed, written, _⟩
  refine ⟨composed, written, ?_⟩
  apply lines_leveled Decoding.Example.sample_allocates (Nat.le_refl 1)
    Program.Example.starts_begun Example.run_lowered Example.run_written
    Example.prints_lowered
  · decide
  · intro label member
    simp only [Example.writtenLabels, List.mem_append, List.mem_cons, List.mem_replicate,
      List.not_mem_nil, or_false] at member
    rcases member with (rfl | rfl | rfl | rfl | rfl) | rfl | ⟨_, rfl⟩ <;> trivial
  · exact written

end Program.Levels

end StaticLog
