import StaticLog.Backend.MergeOrder

/-! # The last run of the poll thread

When all threads have exited and the logger is being stopped, `ioPoll` writes what is
staged, deletes every staging buffer and returns. -/

namespace StaticLog.Backend

open StagingBuffer

section Shutdown

variable {env : Environment} {passes : Nat} {clock : Nat → Nat} {start : Logger}
  {entries : Nat → List Entry}

/-- Every registered buffer can be deleted as soon as the scan comes to it. -/
def Deletable (logger : Logger) : Prop :=
  ∀ ring ∈ logger.threadBuffers, (logger.rings ring).checkCanDelete = true

/-- A scan over such buffers deletes all of them. -/
theorem scan_deletes (count n : Nat) {logger : Logger} {earliest : Earliest}
    (reached : pollRun env passes clock start n =
      { phase := .scanning 0 earliest, logger := logger })
    (deletable : Deletable logger)
    (size : logger.threadBuffers.length = count + 1) :
    ∃ m final, pollRun env passes clock start m =
        { phase := .scanned earliest, logger := final } ∧
      final.threadBuffers = [] ∧ final.isStop = logger.isStop := by
  induction count generalizing n logger with
  | zero =>
      rcases List.length_eq_one_iff.mp size with ⟨ring, only⟩
      have free : (logger.rings ring).checkCanDelete = true :=
        deletable ring (by simp [only])
      refine ⟨n + 1, logger.deleteBuffer 0 ring, ?_, ?_, rfl⟩
      · rw [pollRun_succ, reached]
        simp [Poll.step, scanPass, only, free, Logger.deleteBuffer]
      · simp [Logger.deleteBuffer, only]
  | succ count induction =>
      cases shape : logger.threadBuffers with
      | nil =>
          rw [shape] at size
          cases size
      | cons ring rest =>
          have free : (logger.rings ring).checkCanDelete = true :=
            deletable ring (by simp [shape])
          have more : rest ≠ [] := by
            intro none
            simp [shape, none] at size
          have next : pollRun env passes clock start (n + 1) =
              { phase := .scanning 0 earliest, logger := logger.deleteBuffer 0 ring } := by
            rw [pollRun_succ, reached]
            simp [Poll.step, scanPass, shape, free, Logger.deleteBuffer, more]
          apply induction (n + 1) next
          · intro other member
            apply deletable other
            rw [shape]
            simp only [Logger.deleteBuffer, shape, List.eraseIdx_zero, List.tail_cons]
              at member
            exact List.mem_cons_of_mem _ member
          · simpa [Logger.deleteBuffer, shape] using size

/-- A stopped poll thread that waits with nothing left to do returns. -/
theorem waiting_exits (n : Nat) {logger : Logger}
    (reached : pollRun env passes clock start n =
      { phase := .waiting, logger := logger })
    (isStop : logger.isStop = true) (empty : logger.threadBuffers = []) :
    (pollRun env passes clock start (n + 2)).phase = .exited := by
  rw [pollRun_succ, pollRun_succ, reached]
  simp [Poll.step, isStop, empty]

/-- From a wait with deletable buffers only, the poll thread comes to its end. -/
theorem deletable_exits (n : Nat) {logger : Logger}
    (reached : pollRun env passes clock start n =
      { phase := .waiting, logger := logger })
    (isStop : logger.isStop = true) (isExit : logger.isExit = false)
    (deletable : Deletable logger) :
    ∃ m, (pollRun env passes clock start m).phase = .exited := by
  cases shape : logger.threadBuffers with
  | nil => exact ⟨n + 2, waiting_exits n reached isStop shape⟩
  | cons ring rest =>
      have scans : pollRun env passes clock start (n + 3) =
          { phase := .scanning 0 { timestamp := uint64Max, ring := none }
            logger := logger } := by
        rw [pollRun_succ, pollRun_succ, pollRun_succ, reached]
        simp [Poll.step, isExit, shape]
      rcases scan_deletes rest.length (n + 3) scans deletable (by simp [shape]) with
        ⟨m, final, scanned, empty, stopped⟩
      have waits : pollRun env passes clock start (m + 1) =
          { phase := .waiting, logger := final } := by
        rw [pollRun_succ, scanned]
        simp [Poll.step]
      exact ⟨m + 3, waiting_exits (m + 1) waits (stopped.trans isStop) empty⟩

/-- At a wait every buffer of an exited thread can be deleted. -/
theorem Draining.deletable {poll : Poll} {state : Merge.State Nat Entry}
    (draining : Draining start entries poll state) (waits : poll.phase = .waiting)
    (dying : ∀ ring ∈ start.threadBuffers, (start.rings ring).shouldDeallocate = true) :
    Deletable poll.logger := by
  intro ring registered
  have facts := draining.phase
  rw [waits] at facts
  have meet := facts.2 ring registered (facts.1 ring)
  have dead : (poll.logger.rings ring).shouldDeallocate = true :=
    draining.dying ring (dying ring (draining.sublist.subset registered))
  simp [checkCanDelete, dead, meet]

/-- The poll thread of a stopped logger returns. -/
theorem pollRun_exits (staged : Staged start entries)
    (bounded : ∀ ring, ∀ entry ∈ entries ring, entry.timestamp < uint64Max)
    (isStop : start.isStop = true) (isExit : start.isExit = false)
    (valid : start.outfd ≠ -1)
    (dying : ∀ ring ∈ start.threadBuffers, (start.rings ring).shouldDeallocate = true)
    (formats : ∀ n,
      EntryFormats env passes (clock n) (pollRun env passes clock start n)) :
    ∃ n, (pollRun env passes clock start n).phase = .exited := by
  rcases drainRun_rests bounded valid formats 0 (Draining.initial staged isExit) with
    ⟨n, _, waits | exits⟩
  · rcases drainRun_draining staged bounded isExit valid formats n with ⟨state, draining⟩
    have reached : pollRun env passes clock start n =
        { phase := .waiting, logger := (pollRun env passes clock start n).logger } := by
      rw [← waits]
    exact deletable_exits n reached (draining.isStop.trans isStop) draining.isExit
      (draining.deletable waits dying)
  · exact ⟨n, exits⟩

/-- `ioPoll` returns with no buffer left. It has written every entry exactly once, and
it has deleted each buffer once, when no entry was left in it. -/
theorem ioPoll_drains (staged : Staged start entries)
    (bounded : ∀ ring, ∀ entry ∈ entries ring, entry.timestamp < uint64Max)
    (isStop : start.isStop = true) (isExit : start.isExit = false)
    (valid : start.outfd ≠ -1)
    (dying : ∀ ring ∈ start.threadBuffers, (start.rings ring).shouldDeallocate = true)
    (formats : ∀ n,
      EntryFormats env passes (clock n) (pollRun env passes clock start n)) :
    (∃ n,
      (pollRun env passes clock start n).phase = .exited ∧
        (pollRun env passes clock start n).logger.threadBuffers = [] ∧
        (∀ ring, writtenFrom start (pollRun env passes clock start n) ring =
          (entries ring).map Entry.block) ∧
        (pollRun env passes clock start n).logger.deleted.Perm
          (start.deleted ++ start.threadBuffers)) ∧
      ∀ n, ∀ ring ∈ start.threadBuffers,
        ring ∉ (pollRun env passes clock start n).logger.threadBuffers →
          Holds ((pollRun env passes clock start n).logger.rings ring) [] ∧
            writtenFrom start (pollRun env passes clock start n) ring =
              (entries ring).map Entry.block := by
  have drains := drainRun_draining staged bounded isExit valid formats
  constructor
  · rcases pollRun_exits staged bounded isStop isExit valid dying formats with ⟨n, exits⟩
    rcases drains n with ⟨state, draining⟩
    have facts := draining.phase
    rw [exits] at facts
    refine ⟨n, exits, facts.1, ?_, ?_⟩
    · intro ring
      exact draining.writtenFrom_eq (draining.pending_nil (.inr exits) ring)
    · have deletions := draining.deletions
      rw [facts.1, List.append_nil] at deletions
      exact deletions
  · intro n ring registered deleted
    rcases drains n with ⟨state, draining⟩
    exact ⟨draining.emptied ring registered deleted,
      draining.writtenFrom_eq (draining.staged.others ring deleted)⟩

end Shutdown

open Example in
theorem ioPoll_drains_twoThreads :
    (∃ n,
      (pollRun (env hi) 3 clock twoThreads n).phase = .exited ∧
        (pollRun (env hi) 3 clock twoThreads n).logger.threadBuffers = [] ∧
        (∀ ring, writtenFrom twoThreads (pollRun (env hi) 3 clock twoThreads n) ring =
          (entries ring).map Entry.block) ∧
        (pollRun (env hi) 3 clock twoThreads n).logger.deleted.Perm [0, 1]) ∧
      ∀ n, ∀ ring ∈ twoThreads.threadBuffers,
        ring ∉ (pollRun (env hi) 3 clock twoThreads n).logger.threadBuffers →
          Holds ((pollRun (env hi) 3 clock twoThreads n).logger.rings ring) [] ∧
            writtenFrom twoThreads (pollRun (env hi) 3 clock twoThreads n) ring =
              (entries ring).map Entry.block :=
  ioPoll_drains staged_twoThreads entries_bounded rfl rfl (by decide) (fun _ _ => rfl)
    run_formats

end StaticLog.Backend
