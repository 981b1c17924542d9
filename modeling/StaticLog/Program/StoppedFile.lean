import StaticLog.Program.Completion
import StaticLog.Program.FileContents

/-! # The log file of a logger that was stopped

What the destructor leaves behind: all lines of all calls are in the log file. -/

namespace StaticLog.Program.Files

open Backend Execution

section Stopped

variable {env : Environment} {passes length : Nat} {old : File → List UInt8} {state : State}
  {clock : Nat → Nat}

/-- The poll thread goes on, and `write` takes what it is given. -/
theorem exists_polls (env : Environment) (passes : Nat) (old : File → List UInt8)
    (state : State) (clock : Nat → Nat) (n : Nat) :
    ∃ labels final, (plain env passes old).Run state labels final ∧
      (∀ label ∈ labels, ∃ k accepted, label = (.poll (clock k), accepted)) ∧
      final.program = state.program.pollRun env passes clock n := by
  induction n with
  | zero => exact ⟨[], state, .nil, by simp, rfl⟩
  | succ n induction =>
      rcases induction with ⟨labels, before, run, polls, program⟩
      rw [State.pollRun, ← program]
      by_cases exited : before.program.poll = .exited
      · rw [pollStep_exited _ exited]
        exact ⟨labels, before, run, polls, rfl⟩
      · let after := before.program.pollStep env passes (clock n)
        let accepted := (after.logger.writes.map fun write => write.line.length).sum
        have plainPoll : Plain env passes before (.poll (clock n), accepted) := by
          intro write member
          apply List.le_sum_of_mem
          exact List.mem_map_of_mem (List.mem_of_mem_drop member)
        refine ⟨labels ++ [(.poll (clock n), accepted)],
          before.follow accepted (.poll (clock n)) after,
          run.snoc ⟨plainPoll, .program accepted (.poll (clock n) exited)⟩, ?_, rfl⟩
        intro label member
        rcases List.mem_append.mp member with member | member
        · exact polls label member
        · exact ⟨n, accepted, List.mem_singleton.mp member⟩

theorem pollRun_sameFile {state : Program.State} (n : Nat) :
    SameFile state.logger (state.pollRun env passes clock n).logger := by
  induction n with
  | zero => exact SameFile.refl _
  | succ n induction => exact induction.trans (sameFile_poll (clock n) _)

/-- The lines that were written to a file, when all were written to it. -/
theorem linesOf_all {path : File} {writes : List Write}
    (only : ∀ write ∈ writes, write.file = some path) :
    linesOf path writes = writes.flatMap fun write => write.line := by
  have all : (writes.filter fun write => write.file = some path) = writes :=
    List.filter_eq_self.mpr fun write member => decide_eq_true (only write member)
  rw [linesOf, all]

/-- The destructor waits for a poll thread that has not returned, all logging threads have
exited, and all lines so far went to the file that is open. Then the poll thread returns, and
by then that file contains the lines of all calls, each once, and for each staging buffer in
their order. -/
theorem stop_fills_file (allocates : env.libc.Allocates) (enough : 0 < passes)
    (reachable : (plain env passes old).Reachable state) {start : Program.State}
    {earlier : List Program.Label} (starts : (orderly env passes length).Initial start)
    (orderly : (orderly env passes length).Run start earlier state.program)
    (stopping : state.program.control = .stopping) (running : state.program.poll ≠ .exited)
    (abandoned : state.program.Abandoned) {path : File}
    (isOpen : state.program.logger.files state.program.logger.outfd = some path)
    (only : ∀ write ∈ state.program.logger.writes, write.file = some path)
    (timely : ∀ n, clock n < uint64Max) :
    ∃ labels final, (plain env passes old).Run state labels final ∧
      (∀ label ∈ labels, ∃ k accepted, label = (.poll (clock k), accepted)) ∧
      final.program.poll = .exited ∧
      final.content path =
        old path ++ final.program.logger.writes.flatMap (fun write => write.line) ∧
      ∀ ring, ∃ calls stamps,
        List.Forall₂ (fun commit (call : PrintfCall) => call.Logs env length commit.entry)
          (state.program.commitsTo ring) calls ∧
        LinesOf env (final.program.writesOf start.logger.output.held ring) calls stamps ∧
        stamps.length = calls.length := by
  have reached := System.Reachable.run (.initial starts) orderly
  rcases exists_exited allocates enough reached stopping abandoned timely with ⟨n, exited⟩
  rcases exists_polls env passes old state clock n with ⟨labels, final, run, polls, program⟩
  have same : SameFile state.program.logger final.program.logger :=
    program ▸ pollRun_sameFile n
  have toPath : ∀ write ∈ final.program.logger.writes, write.file = some path := by
    rcases same.writes with ⟨new, writes, toFile⟩
    rw [writes]
    intro write member
    rcases List.mem_append.mp member with member | member
    · exact only write member
    · exact (toFile write member).trans isOpen
  refine ⟨labels, final, run, polls, program ▸ exited, ?_, ?_⟩
  · rw [← linesOf_all toPath]
    exact (reachable_filled (reachable.run run)).content path
  · intro ring
    rcases exited_lines allocates enough starts orderly stopping running timely exited ring
      with ⟨calls, stamps, logs, _, lines, complete⟩
    exact ⟨calls, stamps, logs, program ▸ lines, complete⟩

end Stopped

open Backend.Example Program.Example TwoLines in
theorem stop_fills_file_string :
    ∃ labels final,
      (plain stringEnv 1 fun _ => []).Run ⟨stringStopped, fun _ => [], 0⟩ labels final ∧
      (∀ label ∈ labels, ∃ (k : Nat) (accepted : Nat),
        label = (.poll ((fun _ => nanotime) k), accepted)) ∧
      final.program.poll = .exited ∧
      final.content logTxt =
        [] ++ final.program.logger.writes.flatMap (fun write => write.line) ∧
      ∀ ring, ∃ calls stamps,
        List.Forall₂ (fun commit (call : PrintfCall) =>
          call.Logs stringEnv (2 ^ 20) commit.entry) (stringStopped.commitsTo ring) calls ∧
        LinesOf stringEnv (final.program.writesOf begun.logger.output.held ring) calls
          stamps ∧
        stamps.length = calls.length := by
  have nothing : stringStopped.logger.writes = [] := List.isEmpty_iff.mp (by decide +kernel)
  have program := reachable_of_printing reachable_stringStopped.of_restrict
  rcases orderly_stringStopped with ⟨_, run⟩
  apply stop_fills_file Decoding.Example.sample_allocates (Nat.le_refl 1)
    (reachable_plain program nothing) starts_begun run
  · decide +kernel
  · decide +kernel
  · exact abandoned_stringStopped
  · decide +kernel
  · intro write member
    rw [nothing] at member
    cases member
  · exact fun _ => by decide

end StaticLog.Program.Files
