import StaticLog.Backend.LineHeader
import StaticLog.Program.Lines

/-! # Reading the log back

Each line that a logging program has written tells what call it stems from and what the
call prints, and as long as the calendar does not go back the lines are in the order of the
times that they tell. -/

namespace StaticLog.Program

open Backend Execution LinePrefix Decimal

section LineOrder

variable {env : Environment} {passes length : Nat} {start final : State}
  {labels : List Label}

/-- The calendar at a time of the clock. -/
def timeOf (env : Environment) (nanotime : Nat) : List Int :=
  calendar (env.localtime (nanotime % 2 ^ 64 / 1000000000)) (nanotime % 2 ^ 64 % 1000000000)

/-- What a written line is: the line of a call that was committed to its buffer. -/
def Origin (env : Environment) (length : Nat) (commits : List Commit) (composed : Composed)
    (nanotime : Nat) (call : PrintfCall) : Prop :=
  (∃ commit ∈ commits,
      commit.ring = composed.write.ring ∧ call.Logs env length commit.entry) ∧
    call.IsLine env nanotime composed.held composed.write.line

theorem origins_of_shows {commits : List Commit} {writes : List Composed} {stamps : List Nat}
    (shows : List.Forall₂ (Composed.Shows env length) writes stamps)
    (logged : ∀ commit ∈ commits, ∃ call : PrintfCall, call.Logs env length commit.entry)
    (committed : ∀ composed ∈ writes, ∃ commit ∈ commits,
      commit.ring = composed.write.ring ∧
        commit.entry.body = composed.write.entry.drop 8) :
    List.Forall₂ (fun composed nanotime =>
      ∃ call, Origin env length commits composed nanotime call) writes stamps := by
  induction shows with
  | nil => exact .nil
  | cons first _ induction =>
      rw [List.forall_mem_cons] at committed
      rcases committed.1 with ⟨commit, member, ring, body⟩
      rcases logged commit member with ⟨call, logs⟩
      exact .cons ⟨call, ⟨commit, member, ring, logs⟩, first commit.entry call body logs⟩
        (induction committed.2)

/-- Every line that was written has an origin, and the times are those that the clock has
shown one after another. -/
theorem origins (allocates : env.libc.Allocates) (enough : 0 < passes)
    (starts : (printing env passes length).Initial start)
    (run : (printing env passes length).Run start labels final) :
    List.SublistForall₂ (fun composed nanotime =>
        ∃ call, Origin env length final.commits composed nanotime call)
      (Composed.all start.logger.output.held final.logger.writes)
      (labels.flatMap Label.times) := by
  have shown := Shown.run allocates enough starts run
  have reachable := reachable_of_printing (System.Reachable.run (.initial starts) run)
  have committed : ∀ composed ∈ Composed.all start.logger.output.held final.logger.writes,
      ∃ commit ∈ final.commits, commit.ring = composed.write.ring ∧
        commit.entry.body = composed.write.entry.drop 8 := by
    intro composed member
    have written : composed.write.entry.drop 8 ∈ final.writtenOf composed.write.ring := by
      rw [← final.map_writesOf start.logger.output.held, List.mem_map]
      exact ⟨composed, by simp [State.writesOf, member], rfl⟩
    have committed := (writtenOf_isPrefix reachable composed.write.ring).subset written
    rw [State.committedTo, List.mem_map] at committed
    rcases committed with ⟨commit, member, body⟩
    rw [List.mem_filter, decide_eq_true_eq] at member
    exact ⟨commit, member.1, member.2, body⟩
  rcases List.sublistForall₂_iff.mp shown.writes with ⟨stamps, shows, within⟩
  exact List.sublistForall₂_iff.mpr
    ⟨stamps, origins_of_shows shows shown.commits committed, within⟩

/-- What can be read from a written line: the time at which it was processed, the level,
the function and the line number of a call that was committed to the buffer, and the text
of the call. -/
theorem lines_parse (allocates : env.libc.Allocates) (enough : 0 < passes)
    (starts : (printing env passes length).Initial start)
    (run : (printing env passes length).Run start labels final)
    (inRange : ∀ nanotime ∈ labels.flatMap Label.times,
      (env.localtime (nanotime % 2 ^ 64 / 1000000000)).InRange)
    {write : Write} (written : write ∈ final.logger.writes) :
    ∃ commit ∈ final.commits, commit.ring = write.ring ∧
      ∃ call : PrintfCall, call.Logs env length commit.entry ∧
        (']'.toUInt8 ∉ call.statement.functionName →
          ∃ nanotime ∈ labels.flatMap Label.times,
            parseLine write.line =
              some (Header.of env.localtime (nanotime % 2 ^ 64) call.info,
                call.text env.libc)) := by
  rcases Composed.exists_of_mem start.logger.output.held written with ⟨composed, member, rfl⟩
  rcases List.sublistForall₂_iff.mp (origins allocates enough starts run) with
    ⟨stamps, origins, within⟩
  rcases List.getElem_of_mem member with ⟨i, inside, rfl⟩
  rcases List.forall₂_iff_get.mp origins with ⟨sameLength, each⟩
  have stamped : i < stamps.length := sameLength ▸ inside
  rcases each i inside stamped with ⟨call, ⟨commit, member, ring, logs⟩, isLine⟩
  have shown := within.subset (List.getElem_mem stamped)
  refine ⟨commit, member, ring, call, logs, ?_⟩
  intro named
  exact ⟨_, shown, isLine.parses (inRange _ shown) named⟩

/-! ## The order of the lines -/

theorem timeText_lt_iff {nanotime other : Nat}
    (inRange : (env.localtime (nanotime % 2 ^ 64 / 1000000000)).InRange)
    (otherInRange : (env.localtime (other % 2 ^ 64 / 1000000000)).InRange) :
    generateTimePrefix env.localtime (nanotime % 2 ^ 64) <
        generateTimePrefix env.localtime (other % 2 ^ 64) ↔
      timeOf env nanotime < timeOf env other := by
  have small (word : Nat) : word % 1000000000 < 10 ^ 9 := Nat.mod_lt _ (by decide)
  rw [generateTimePrefix_eq inRange, generateTimePrefix_eq otherInRange,
    spell_lt_iff (fits_calendar inRange (small _)) (fits_calendar otherInRange (small _)),
    map_toNat_lt_iff (calendar_pos inRange) (calendar_pos otherInRange)]
  rfl

/-- As long as the calendar does not go back from one step of the poll thread to the next,
the lines are in the order of the texts of their times. -/
theorem lines_sorted (allocates : env.libc.Allocates) (enough : 0 < passes)
    (starts : (printing env passes length).Initial start)
    (run : (printing env passes length).Run start labels final)
    (inRange : ∀ nanotime ∈ labels.flatMap Label.times,
      (env.localtime (nanotime % 2 ^ 64 / 1000000000)).InRange)
    (forward : (labels.flatMap Label.times).Pairwise fun earlier later =>
      ¬timeOf env later < timeOf env earlier) :
    (final.logger.writes.map fun write => write.line.take timestampPrefixLen).Pairwise
      fun earlier later => ¬later < earlier := by
  rcases List.sublistForall₂_iff.mp (origins allocates enough starts run) with
    ⟨stamps, origins, within⟩
  have writes := Composed.map_write_all start.logger.output.held final.logger.writes
  have texts : final.logger.writes.map (fun write => write.line.take timestampPrefixLen) =
      stamps.map fun nanotime => generateTimePrefix env.localtime (nanotime % 2 ^ 64) := by
    rw [← writes, ← List.forall₂_eq_eq_eq, List.forall₂_map_left_iff,
      List.forall₂_map_left_iff, List.forall₂_map_right_iff]
    refine origins.imp ?_
    rintro composed nanotime ⟨call, _, rest, _, line⟩
    rw [line, PrintfCall.prefixes, List.append_assoc, List.append_assoc, List.append_assoc]
    exact List.take_left' (generateTimePrefix_length _ _)
  have inRange : ∀ nanotime ∈ stamps,
      (env.localtime (nanotime % 2 ^ 64 / 1000000000)).InRange := fun nanotime member =>
    inRange nanotime (within.subset member)
  rw [texts, List.pairwise_map]
  refine (forward.sublist within).imp_of_mem ?_
  intro earlier later earlierMember laterMember notBack
  rw [timeText_lt_iff (inRange later laterMember) (inRange earlier earlierMember)]
  exact notBack

end LineOrder

namespace Example

open Backend.Example

theorem inRange_stringEnv (seconds : Nat) : (stringEnv.localtime seconds).InRange := by
  have fixed : (stringEnv.localtime 0).InRange := by constructor <;> decide
  exact fixed

theorem stringLabels_times :
    stringLabels.flatMap Label.times = List.replicate 6 nanotime := by decide

end Example

theorem lines_parse_string :
    ∃ write ∈ Example.stringWritten.logger.writes,
      ∃ commit ∈ Example.stringWritten.commits, commit.ring = write.ring ∧
        ∃ call : PrintfCall, call.Logs Backend.Example.stringEnv (2 ^ 20) commit.entry ∧
          (']'.toUInt8 ∉ call.statement.functionName →
            ∃ nanotime ∈ Example.stringLabels.flatMap Label.times,
              parseLine write.line =
                some (Header.of Backend.Example.stringEnv.localtime (nanotime % 2 ^ 64)
                  call.info, call.text Backend.Example.stringEnv.libc)) := by
  have one : Example.stringWritten.logger.writes.length = 1 := by decide +kernel
  rcases List.length_eq_one_iff.mp one with ⟨write, only⟩
  have written : write ∈ Example.stringWritten.logger.writes := by simp [only]
  refine ⟨write, written, ?_⟩
  exact lines_parse Decoding.Example.sample_allocates (Nat.le_refl 1) Example.starts_begun
    Example.run_stringWritten (fun _ _ => Example.inRange_stringEnv _) written

theorem lines_sorted_string :
    (Example.stringWritten.logger.writes.map
        fun write => write.line.take timestampPrefixLen).Pairwise
      fun earlier later => ¬later < earlier := by
  apply lines_sorted Decoding.Example.sample_allocates (Nat.le_refl 1) Example.starts_begun
    Example.run_stringWritten (fun _ _ => Example.inRange_stringEnv _)
  rw [Example.stringLabels_times, List.pairwise_replicate]
  exact .inr (by decide)

end StaticLog.Program
