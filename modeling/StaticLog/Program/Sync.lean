import StaticLog.Program.Histories

/-! # The call sync()

Any number of threads call `sync` while the others log. The call takes
`buffer_mutex_`, notifies the poll thread and returns: it waits for the mutex only,
not for the entries. -/

namespace StaticLog.Program

open Backend StagingBuffer Execution

namespace Sync

/-- The program with its callers of `sync`. For each call under way, the number of
entries that were committed when it began. -/
structure State where
  program : Program.State
  calls : Nat → Option Nat

inductive Label
  | program (label : Program.Label)
  | call (caller : Nat)
  | returns (caller : Nat)

/-- To be notified wakes the poll thread up, which may wake up at any time anyhow. -/
inductive Step (env : Environment) (passes : Nat) : State → Label → State → Prop
  | program {state : State} {label : Program.Label} {after : Program.State} :
      Program.Step env passes state.program label after →
      Step env passes state (.program label) { state with program := after }
  | call {state : State} {caller : Nat} :
      state.calls caller = none →
      Step env passes state (.call caller)
        { state with
          calls := Function.update state.calls caller
            (some state.program.commits.length) }
  | returns {state : State} {caller committed : Nat} :
      state.calls caller = some committed → state.program.lockFree = true →
      Step env passes state (.returns caller)
        { state with calls := Function.update state.calls caller none }

def system (env : Environment) (passes : Nat) : System State Label where
  Initial state :=
    (Program.system env passes).Initial state.program ∧ ∀ caller, state.calls caller = none
  Step := Step env passes

/-- The entries that were committed to the buffer when so many had been committed in
all. -/
def committedBefore (committed : Nat) (state : Program.State) (ring : Nat) :
    List (List UInt8) :=
  ((state.commits.take committed).filter (fun commit => commit.ring = ring)).map
    (fun commit => commit.entry.body)

/-- The first entries that were committed have been handed to `write`, and the staging
buffer holds later ones only. -/
structure Persisted (committed : Nat) (state : Program.State) (ring : Nat) : Prop where
  written : committedBefore committed state ring <+: state.writtenOf ring
  consumed : ∃ remaining, Holds (state.logger.rings ring) remaining ∧
    state.writtenOf ring ++ remaining.map Entry.body = state.committedTo ring

/-- No staging buffer holds an entry. -/
def NothingStaged (state : Program.State) : Prop :=
  ∀ ring, Holds (state.logger.rings ring) []

/-- `sync` is called while nothing is staged. -/
def CalledWhenDrained (before : State) : Label → Prop
  | .call _ => NothingStaged before.program
  | _ => True

section Runs

variable {env : Environment} {passes : Nat}

theorem reachable_program {state : State} (reachable : (system env passes).Reachable state) :
    (Program.system env passes).Reachable state.program := by
  induction reachable with
  | initial starts => exact .initial starts.1
  | step earlier taken induction =>
      cases taken with
      | program step => exact .step induction step
      | call free => exact induction
      | returns under free => exact induction

/-- What a call has seen stays committed. -/
theorem calls_bounded {state : State} (reachable : (system env passes).Reachable state) :
    ∀ caller committed, state.calls caller = some committed →
      committed ≤ state.program.commits.length := by
  apply reachable.invariant (fun state => ∀ caller committed,
    state.calls caller = some committed → committed ≤ state.program.commits.length)
  · intro state starts caller committed under
    rw [starts.2 caller] at under
    cases under
  · intro before label after bounded taken caller committed under
    cases taken with
    | program step =>
        exact (bounded caller committed under).trans (step_commits_isPrefix step).length_le
    | @call other free =>
        by_cases same : caller = other
        · simp only [same, Function.update_self, Option.some.injEq] at under
          exact under.ge
        · simp only [Function.update_of_ne same] at under
          exact bounded caller committed under
    | @returns other seen _ _ =>
        by_cases same : caller = other
        · simp [same] at under
        · simp only [Function.update_of_ne same] at under
          exact bounded caller committed under

/-- The program runs as it did before anyone called `sync`. -/
theorem reachable_of_program {program : Program.State}
    (reachable : (Program.system env passes).Reachable program) :
    ((system env passes).restrict CalledWhenDrained).Reachable ⟨program, fun _ => none⟩ := by
  induction reachable with
  | initial starts => exact .initial ⟨starts, fun _ => rfl⟩
  | @step before after label earlier taken induction =>
      have allowed : CalledWhenDrained ⟨before, fun _ => none⟩ (.program label) := trivial
      exact induction.step ⟨allowed, .program taken⟩

/-- When no staging buffer holds an entry, all that was committed has been written. -/
theorem nothingStaged_iff {program : Program.State}
    (reachable : (Program.system env passes).Reachable program) :
    NothingStaged program ↔ ∀ ring, program.writtenOf ring = program.committedTo ring := by
  have balanced := (reachable_accounted reachable).balanced
  constructor
  · intro drained ring
    rcases balanced ring with ⟨remaining, holds, balance⟩
    have none := (drained ring).unique holds
    rw [List.map_nil, List.map_eq_nil_iff] at none
    rw [← balance, none, List.map_nil, List.append_nil]
  · intro settled ring
    rcases balanced ring with ⟨remaining, holds, balance⟩
    rw [← settled ring, List.append_right_eq_self, List.map_eq_nil_iff] at balance
    exact balance ▸ holds

theorem committedBefore_length (state : Program.State) (ring : Nat) :
    committedBefore state.commits.length state ring = state.committedTo ring := by
  rw [committedBefore, List.take_length]
  rfl

/-- Later commits do not change what was committed before a call, and what was written
stays written. -/
theorem written_step {before after : Program.State} {label : Program.Label}
    {committed ring : Nat} (step : Program.Step env passes before label after)
    (bounded : committed ≤ before.commits.length)
    (written : committedBefore committed before ring <+: before.writtenOf ring) :
    committedBefore committed after ring <+: after.writtenOf ring := by
  have same : after.commits.take committed = before.commits.take committed := by
    rcases step_commits_isPrefix step with ⟨new, commits⟩
    rw [← commits, List.take_append_of_le_length bounded]
  have grown : before.writtenOf ring <+: after.writtenOf ring :=
    ((step_writes_isPrefix step).filter _).map _
  rw [committedBefore, same]
  exact written.trans grown

/-- When nothing is staged at a call, everything it waits for has been written. -/
theorem written_of_drained {state : State}
    (reachable : ((system env passes).restrict CalledWhenDrained).Reachable state) :
    ∀ caller committed, state.calls caller = some committed → ∀ ring,
      committedBefore committed state.program ring <+: state.program.writtenOf ring := by
  have both : (system env passes).Reachable state ∧ ∀ caller committed,
      state.calls caller = some committed → ∀ ring,
        committedBefore committed state.program ring <+: state.program.writtenOf ring := by
    apply reachable.invariant (fun state => (system env passes).Reachable state ∧
      ∀ caller committed, state.calls caller = some committed → ∀ ring,
        committedBefore committed state.program ring <+: state.program.writtenOf ring)
    · intro state starts
      refine ⟨.initial starts, ?_⟩
      intro caller committed under
      rw [starts.2 caller] at under
      cases under
    · intro before label after holds taken
      rcases holds with ⟨reached, written⟩
      rcases taken with ⟨drained, taken⟩
      refine ⟨reached.step taken, ?_⟩
      intro caller committed under ring
      cases taken with
      | program step =>
          have bounded := calls_bounded reached caller committed under
          exact written_step step bounded (written caller committed under ring)
      | @call other free =>
          by_cases same : caller = other
          · simp only [same, Function.update_self, Option.some.injEq] at under
            have whole : committedBefore before.program.commits.length before.program ring =
                before.program.writtenOf ring := by
              rw [committedBefore_length]
              exact ((nothingStaged_iff (reachable_program reached)).mp drained ring).symm
            exact under ▸ whole ▸ List.prefix_refl _
          · simp only [Function.update_of_ne same] at under
            exact written caller committed under ring
      | @returns other seen _ _ =>
          by_cases same : caller = other
          · simp [same] at under
          · simp only [Function.update_of_ne same] at under
            exact written caller committed under ring
  exact both.2

/-- What is staged when the call begins is still staged when it returns at once. -/
theorem not_persisted {program : Program.State}
    (reachable : (Program.system env passes).Reachable program)
    (staged : ¬NothingStaged program) :
    ∃ ring, ¬Persisted program.commits.length program ring := by
  by_contra none
  rw [nothingStaged_iff reachable] at staged
  apply staged
  intro ring
  have persisted : Persisted program.commits.length program ring := by
    by_contra missing
    exact none ⟨ring, missing⟩
  have written := persisted.written
  rw [committedBefore_length] at written
  have part := writtenOf_isPrefix reachable ring
  exact part.eq_of_length_le written.length_le

end Runs

/-- `sync` is a barrier in the runs in which it is called while nothing is staged. From
every state in which something is staged and the mutex is free, a call that returns at
once is none. -/
theorem sync_is_barrier_when_drained (env : Environment) (passes : Nat) :
    (∀ state, ((system env passes).restrict CalledWhenDrained).Reachable state →
      ∀ caller committed after, state.calls caller = some committed →
        Step env passes state (.returns caller) after →
        ∀ ring, Persisted committed after.program ring) ∧
    (∀ state, (system env passes).Reachable state → ∀ caller,
      state.calls caller = none → state.program.lockFree = true →
      ¬NothingStaged state.program →
      ∃ called after, Step env passes state (.call caller) called ∧
        called.calls caller = some state.program.commits.length ∧
        Step env passes called (.returns caller) after ∧
        ∃ ring, ¬Persisted state.program.commits.length after.program ring) := by
  constructor
  · intro state reachable caller committed after under returns ring
    have written := written_of_drained reachable caller committed under ring
    have balanced := (reachable_accounted
      (reachable_program reachable.of_restrict)).balanced ring
    cases returns with
    | returns _ _ => exact ⟨written, balanced⟩
  · intro state reachable caller free lockFree staged
    have under : (Function.update state.calls caller
        (some state.program.commits.length)) caller =
          some state.program.commits.length := Function.update_self ..
    exact ⟨_, _, .call free, under, .returns under lockFree,
      not_persisted (reachable_program reachable) staged⟩

namespace Early

open Backend.Example Program.Example

/-- A thread has logged once, and the poll thread has not looked into the staging
buffer yet. -/
def backlog : State := ⟨logged, fun _ => none⟩

theorem reachable_backlog : (system (env hi) 3).Reachable backlog :=
  (reachable_of_program reachable_logged.of_restrict).of_restrict

theorem backlog_not_drained : ¬NothingStaged backlog.program := by
  rw [nothingStaged_iff (reachable_program reachable_backlog)]
  intro drained
  have lengths := congrArg List.length (drained 0)
  revert lengths
  decide +kernel

/-- The poll thread has written the entry and released the mutex. -/
def drained : State := ⟨logged.polls (env hi) 3 nanotime 5, fun _ => none⟩

theorem reachable_drained :
    ((system (env hi) 3).restrict CalledWhenDrained).Reachable drained := by
  have starts : (Program.system (env hi) 3).Reachable logged := reachable_logged.of_restrict
  exact reachable_of_program (starts.run (run_polls nanotime logged 5 (by decide +kernel)))

theorem nothingStaged_drained : NothingStaged drained.program := by
  rw [nothingStaged_iff (reachable_program reachable_drained.of_restrict)]
  have writes : ∀ write ∈ drained.program.logger.writes, write.ring = 0 := by decide +kernel
  have commits : ∀ commit ∈ drained.program.commits, commit.ring = 0 := by decide +kernel
  intro ring
  by_cases first : ring = 0
  · subst first
    decide +kernel
  · have noWrites : drained.program.logger.writes.filter (·.ring = ring) = [] := by
      rw [List.filter_eq_nil_iff]
      intro write member
      rw [writes write member]
      simpa using Ne.symm first
    have noCommits : drained.program.commits.filter (·.ring = ring) = [] := by
      rw [List.filter_eq_nil_iff]
      intro commit member
      rw [commits commit member]
      simpa using Ne.symm first
    rw [State.writtenOf, State.committedTo, noWrites, noCommits]
    rfl

end Early

open Backend.Example Early in
/-- Another thread calls `sync` and is back at once. -/
theorem sync_returns_early :
    (system (env hi) 3).Reachable backlog ∧
      ∃ called after, Step (env hi) 3 backlog (.call 1) called ∧
        called.calls 1 = some 1 ∧ Step (env hi) 3 called (.returns 1) after ∧
        ∃ ring, ¬Persisted 1 after.program ring := by
  have lockFree : backlog.program.lockFree = true := by decide +kernel
  have under : (Function.update backlog.calls 1 (some 1)) 1 = some 1 :=
    Function.update_self ..
  exact ⟨reachable_backlog, _, _, .call rfl, under, .returns under lockFree,
    not_persisted (reachable_program reachable_backlog) backlog_not_drained⟩

open Backend.Example Early in
/-- The first call begins when the entry has been written, the second one before. -/
theorem sync_is_barrier_when_drained_calls :
    (∃ called after, Step (env hi) 3 drained (.call 1) called ∧
      called.calls 1 = some 1 ∧ Step (env hi) 3 called (.returns 1) after ∧
      ∀ ring, Persisted 1 after.program ring) ∧
    ∃ called after, Step (env hi) 3 backlog (.call 1) called ∧
      called.calls 1 = some backlog.program.commits.length ∧
      Step (env hi) 3 called (.returns 1) after ∧
      ∃ ring, ¬Persisted backlog.program.commits.length after.program ring := by
  have barrier := sync_is_barrier_when_drained (env hi) 3
  constructor
  · have lockFree : drained.program.lockFree = true := by decide +kernel
    have one : drained.program.commits.length = 1 := by decide +kernel
    let called : State :=
      { drained with
        calls := Function.update drained.calls 1 (some drained.program.commits.length) }
    have call : Step (env hi) 3 drained (.call 1) called := .call rfl
    have under : called.calls 1 = some 1 := by
      rw [← one]
      rfl
    have returns : Step (env hi) 3 called (.returns 1) _ := .returns under lockFree
    have allowed : CalledWhenDrained drained (.call 1) := nothingStaged_drained
    have reachable := reachable_drained.step ⟨allowed, call⟩
    exact ⟨called, _, call, under, returns, barrier.1 _ reachable 1 1 _ under returns⟩
  · exact barrier.2 backlog reachable_backlog 1 rfl (by decide +kernel) backlog_not_drained

end Sync

end StaticLog.Program
