import StaticLog.Foundation.Collector
import StaticLog.Program.Histories
import StaticLog.Program.Lines

/-! # The logger as a collector

What the whole program is for, apart from the texts: the entries that are committed to any
of the staging buffers come together in the log, each once, and those of a buffer in their
order. -/

namespace StaticLog.Program

open Backend Execution

section Collected

variable {env : Environment} {passes : Nat} {before after state : State}

/-- Each staging buffer is a sender, and the log is the receiver. Entries are compared
without their times. -/
def State.collected (state : State) : Collector.History Nat (List UInt8) where
  sent := state.committedTo
  received := state.logger.writes.map fun write => (write.ring, write.entry.drop 8)

theorem receivedFrom_collected (state : State) (ring : Nat) :
    state.collected.receivedFrom ring = state.writtenOf ring := by
  simp only [Collector.History.receivedFrom, State.collected, State.writtenOf,
    List.filter_map, List.map_map]
  rfl

/-- Nothing was committed, and nothing was written. -/
theorem collected_quiet (commits : after.commits = before.commits)
    (writes : after.logger.writes = before.logger.writes) :
    after.collected = before.collected := by
  have committedTo : after.committedTo = before.committedTo := by
    funext ring
    simp only [State.committedTo, commits]
  rw [State.collected, State.collected, committedTo, writes]

/-- `finishAlloc` sends the entry. -/
theorem collected_commit (thread ring : Nat) (entry : Entry) :
    (state.commit thread ring entry).collected = state.collected.send ring entry.body := by
  have committedTo : (state.commit thread ring entry).committedTo =
      Function.update state.committedTo ring (state.committedTo ring ++ [entry.body]) := by
    funext other
    by_cases same : other = ring
    · subst same
      simp [State.committedTo, State.commit]
    · simp [State.committedTo, State.commit, Function.update_of_ne same, Ne.symm same]
  rw [State.collected, committedTo]
  rfl

/-- The poll thread receives the entry that it writes. -/
theorem collected_write {write : Write} (commits : after.commits = before.commits)
    (one : after.logger.writes = before.logger.writes ++ [write]) :
    after.collected = before.collected.receive write.ring (write.entry.drop 8) := by
  have committedTo : after.committedTo = before.committedTo := by
    funext ring
    simp only [State.committedTo, commits]
  rw [State.collected, committedTo, one, List.map_append]
  rfl

/-- The entry that is written is the oldest one of its buffer that was not written. -/
theorem split_write {write : Write} (accounted : Accounted after)
    (commits : after.commits = before.commits)
    (one : after.logger.writes = before.logger.writes ++ [write]) :
    ∃ later, before.committedTo write.ring =
      before.writtenOf write.ring ++ write.entry.drop 8 :: later := by
  rcases accounted.balanced write.ring with ⟨remaining, _, balance⟩
  refine ⟨remaining.map Entry.body, ?_⟩
  rw [State.committedTo, ← commits]
  rw [State.writtenOf, one] at balance
  simp only [List.filter_append, List.filter_singleton, decide_true, cond_true,
    List.map_append, List.append_assoc] at balance
  exact balance.symm

/-- The program, seen through its histories, is a collector. -/
def refinesCollector (env : Environment) (passes : Nat) :
    Refinement (system env passes) (Collector.system Nat (List UInt8)) where
  view := State.collected
  Invariant state := Ownership state ∧ Accounted state
  initial := by
    rintro state ⟨files, fd, output, _, rfl⟩
    exact ⟨⟨.initial files fd output, .initial files fd output⟩, fun _ => rfl, rfl⟩
  keeps := fun _ _ _ both step => ⟨both.1.step step, both.2.step both.1 step⟩
  simulates := by
    rintro before label after ⟨ownership, accounted⟩ step
    have control := step.control
    have reached := accounted.step ownership step
    cases step with
    | commit entry _ _ =>
        rw [collected_commit]
        exact .inr ⟨_, .send _ _ entry.body⟩
    | poll nanotime _ =>
        have commits : (before.pollStep env passes nanotime).commits = before.commits := rfl
        rcases poll_writes nanotime before with same | ⟨write, _, one⟩
        · exact .inl (collected_quiet commits same)
        · rcases split_write reached commits one with ⟨later, split⟩
          rw [← receivedFrom_collected] at split
          rw [collected_write commits one]
          exact .inr ⟨_, .receive _ write.ring _ later split⟩
    | setLogFile _ _ => exact .inl (collected_quiet (control id).commits (control id).writes)
    | setLogFileAgain _ _ =>
        exact .inl (collected_quiet (control id).commits (control id).writes)
    | openFile path fd _ _ _ =>
        exact .inl (collected_quiet (control id).commits (control id).writes)
    | stop _ => exact .inl (collected_quiet (control id).commits (control id).writes)
    | close _ _ => exact .inl (collected_quiet (control id).commits (control id).writes)
    | _ => exact .inl (collected_quiet rfl rfl)

/-- Every run of the program, whatever the order of its steps, shows a run of a collector.
So what was written of a staging buffer is a leading part of what was committed to it. -/
theorem run_collects {start final : State} {labels : List Label}
    (starts : (system env passes).Initial start)
    (run : (system env passes).Run start labels final) :
    (∃ events,
      (Collector.system Nat (List UInt8)).Initial start.collected ∧
      (Collector.system Nat (List UInt8)).Run start.collected events final.collected ∧
      events.length ≤ labels.length) ∧
    ∀ ring, final.writtenOf ring <+: final.committedTo ring := by
  rcases (refinesCollector env passes).initial start starts with ⟨invariant, begins⟩
  rcases (refinesCollector env passes).run invariant run with ⟨events, shown, fewer⟩
  refine ⟨⟨events, begins, shown, fewer⟩, ?_⟩
  intro ring
  rw [← receivedFrom_collected]
  exact Collector.receivedFrom_isPrefix (System.Reachable.run (.initial begins) shown) ring

end Collected

open Backend.Example Example in
/-- Two threads have logged. -/
theorem run_collects_bothWritten :
    ∃ labels events,
      (Collector.system Nat (List UInt8)).Initial begun.collected ∧
      (Collector.system Nat (List UInt8)).Run begun.collected events bothWritten.collected ∧
      events.length ≤ (labels : List Label).length ∧
      ∀ ring, bothWritten.writtenOf ring <+: bothWritten.committedTo ring := by
  have starts : (system stringEnv 1).Initial begun := ⟨_, 4, _, by decide, rfl⟩
  rcases run_bothWritten with ⟨labels, run⟩
  rcases run_collects starts (run_of_printing (run_stringLogged.append run)) with
    ⟨⟨events, begins, shown, fewer⟩, written⟩
  exact ⟨_, events, begins, shown, fewer, written⟩

end StaticLog.Program
