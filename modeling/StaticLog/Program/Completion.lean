import StaticLog.Backend.Shutdown
import StaticLog.Program.Contents

/-! # When the logger is stopped

From every reachable state in which the destructor of the logger waits for the poll thread
and all logging threads have exited, the poll thread returns, and what it has written by
then are the lines of all calls. -/

namespace StaticLog.Program

open Backend Execution

section Completion

variable {env : Environment} {passes length : Nat} {before after state : State}
  {label : Label} {clock : Nat → Nat}

/-- No thread logs behind its destroyer, and the clock stays below `UINT64_MAX`. -/
def Orderly (before : State) (label : Label) : Prop := NoLateLog before label ∧ label.Timely

/-- The program when its threads only log, and do it orderly. -/
def orderly (env : Environment) (passes length : Nat) : System State Label :=
  (printing env passes length).restrict Orderly

/-- What the steps of an orderly program keep. -/
structure Kept (state : State) : Prop where
  ownership : Ownership state
  accounted : Accounted state
  flags : Flags state
  alive : Alive state
  timely : state.Timely
  chosen : state.Chosen
  settled : state.Settled

theorem Kept.initial (files : Int → Option File) {fd : Int} (valid : fd ≠ -1)
    (output : Decoding.Output) : Kept (initial files fd output) where
  ownership := Ownership.initial files fd output
  accounted := Accounted.initial files fd output
  flags := Flags.initial files valid output
  alive := Alive.initial files fd output
  timely := fun _ => ⟨[], holds_create 0, by simp⟩
  chosen := fun _ isEarliest => by cases isEarliest
  settled := fun _ _ => rfl

theorem Kept.step (kept : Kept before)
    (step : (orderly env passes length).Step before label after) : Kept after := by
  rcases step with ⟨⟨notLate, timely⟩, _, step⟩
  exact
    { ownership := kept.ownership.step step
      accounted := kept.accounted.step kept.ownership step
      flags := kept.flags.step step
      alive := kept.alive.step kept.ownership notLate step
      timely := kept.timely.step kept.accounted timely step
      chosen := kept.chosen.step kept.accounted kept.ownership step
      settled := kept.settled.step kept.accounted kept.alive step }

theorem reachable_kept (reachable : (orderly env passes length).Reachable state) :
    Kept state := by
  apply reachable.invariant Kept
  · intro state starts
    rcases starts with ⟨files, fd, output, valid, _, _, rfl⟩
    exact Kept.initial files valid output
  · intro before label after kept step
    exact kept.step step

theorem reachable_shown (allocates : env.libc.Allocates) (enough : 0 < passes)
    (reachable : (orderly env passes length).Reachable state) :
    ∃ held times, Shown env length held times state := by
  rcases reachable.of_restrict.exists_run with ⟨start, labels, starts, run⟩
  exact ⟨_, _, Shown.run allocates enough starts run⟩

/-- Whenever the scan has found an entry, it can be formatted. -/
theorem Kept.formats (kept : Kept state) (allocates : env.libc.Allocates)
    (enough : 0 < passes) {held : Memory UInt8} {times : List Nat}
    (shown : Shown env length held times state)
    (nanotime : Nat) :
    EntryFormats env passes nanotime { phase := state.poll, logger := state.logger } := by
  intro earliest ring scanned isRing
  have isEarliest : earliestOf state.poll = some earliest := by
    rw [show state.poll = .scanned earliest from scanned]
    rfl
  rcases (kept.chosen earliest isEarliest).somewhere ring isRing with ⟨_, _, _, found, _⟩
  rcases kept.accounted.balanced ring with ⟨remaining, held, balance⟩
  cases remaining with
  | nil => exact absurd held.peek_nil.1 (Nat.ne_of_gt found.peek_cons.1)
  | cons entry later =>
      rcases Accounted.mem_commits balance with ⟨commit, member, body⟩
      rcases shown.commits commit member with ⟨call, logs⟩
      have logs := logs.of_body body.symm
      exact formatted_prints allocates enough nanotime logs.known held logs.stores
        shown.placed (shown.length_eq ▸ logs.fits)

/-! ## The poll thread alone -/

/-- The poll thread takes steps, while the clock goes on. -/
def State.pollRun (env : Environment) (passes : Nat) (clock : Nat → Nat) (state : State) :
    Nat → State
  | 0 => state
  | count + 1 => (state.pollRun env passes clock count).pollStep env passes (clock count)

/-- A poll thread that has returned does nothing. -/
theorem pollStep_exited (nanotime : Nat) (exited : state.poll = .exited) :
    state.pollStep env passes nanotime = state := by
  simp only [State.pollStep, Poll.step, exited]
  rw [← exited]

/-- The steps of the poll thread are part of an orderly run, and it is shown what the clock
has to show. -/
theorem pollRun_run (timely : ∀ n, clock n < uint64Max) (state : State) (n : Nat) :
    ∃ labels, (orderly env passes length).Run state labels
        (state.pollRun env passes clock n) ∧
      (labels.flatMap Label.times).Sublist ((List.range n).map clock) := by
  induction n with
  | zero => exact ⟨[], .nil, .refl _⟩
  | succ n induction =>
      rcases induction with ⟨labels, run, times⟩
      rw [State.pollRun, List.range_succ, List.map_append]
      by_cases exited : (state.pollRun env passes clock n).poll = .exited
      · rw [pollStep_exited _ exited]
        exact ⟨labels, run, times.trans (List.sublist_append_left _ _)⟩
      · have orderly : Orderly (state.pollRun env passes clock n) (.poll (clock n)) :=
          ⟨trivial, timely n⟩
        have prints : (Label.poll (clock n)).Prints env length := trivial
        refine ⟨labels ++ [.poll (clock n)],
          run.snoc ⟨orderly, prints, .poll (clock n) exited⟩, ?_⟩
        rw [List.flatMap_append]
        exact times.append (.refl _)

theorem pollRun_reachable (reachable : (orderly env passes length).Reachable state)
    (timely : ∀ n, clock n < uint64Max) (n : Nat) :
    (orderly env passes length).Reachable (state.pollRun env passes clock n) := by
  rcases pollRun_run timely state n with ⟨_, run, _⟩
  exact reachable.run run

/-- Only the logger and the phase of the poll thread change. -/
theorem pollRun_frame (n : Nat) :
    (state.pollRun env passes clock n).control = state.control ∧
      (state.pollRun env passes clock n).threads = state.threads ∧
      (state.pollRun env passes clock n).commits = state.commits := by
  induction n with
  | zero => exact ⟨rfl, rfl, rfl⟩
  | succ n induction => exact induction

theorem pollRun_add (n m : Nat) :
    state.pollRun env passes clock (n + m) =
      (state.pollRun env passes clock n).pollRun env passes (fun k => clock (n + k)) m := by
  induction m with
  | zero => rfl
  | succ m induction =>
      rw [← Nat.add_assoc, State.pollRun, induction]
      rfl

/-- From the loop condition on, this is the run of `ioPoll`. -/
theorem pollRun_eq (guard : state.poll = .guard) (n : Nat) :
    Backend.pollRun env passes clock state.logger n =
      { phase := (state.pollRun env passes clock n).poll
        logger := (state.pollRun env passes clock n).logger } := by
  induction n with
  | zero =>
      rw [State.pollRun, guard]
      rfl
  | succ n induction =>
      rw [pollRun_succ, induction]
      rfl

/-- Where the poll thread is on its way to the loop condition. -/
def State.rank (state : State) : Nat := state.poll.rank state.logger.threadBuffers.length

/-- A pass of the scan comes closer to its end. -/
theorem scanPass_rank (i : Nat) (earliest : Earliest) (logger : Logger) :
    (scanPass i earliest logger).phase.rank
        (scanPass i earliest logger).logger.threadBuffers.length <
      (PollPhase.scanning i earliest).rank logger.threadBuffers.length := by
  rcases scanPass_cases i earliest logger with ⟨_, pass⟩ | ⟨ring, member, pass⟩
  · rw [pass]
    simp only [PollPhase.rank]
    omega
  · have inside : i < logger.threadBuffers.length :=
      (List.getElem?_eq_some_iff.mp member).1
    rcases pass with ⟨_, deleted, goesOn⟩ | ⟨_, pass⟩
    · have fewer : (logger.deleteBuffer i ring).threadBuffers.length + 1 =
          logger.threadBuffers.length := by
        rw [Logger.deleteBuffer, List.length_eraseIdx_add_one inside]
      rw [deleted]
      rcases goesOn with goesOn | ⟨goesOn, _⟩
      all_goals
        rw [goesOn]
        simp only [PollPhase.rank]
        omega
    · rw [pass]
      simp only [PollPhase.rank, Logger.setRing]
      omega

/-- An entry that the scan has found is processed, and if there is none, the poll thread
waits. -/
theorem scanned_step {nanotime : Nat} {earliest : Earliest} {logger : Logger}
    (nowhere : earliest.ring = none → earliest.timestamp = uint64Max)
    (somewhere : ∀ ring, earliest.ring = some ring → 0 < (logger.rings ring).peek.2)
    (valid : logger.outfd ≠ -1)
    (formats : EntryFormats env passes nanotime
      { phase := .scanned earliest, logger := logger }) :
    let after := Poll.step env passes nanotime { phase := .scanned earliest, logger := logger }
    after.phase = .guard ∨ after.phase = .waiting := by
  simp only [Poll.step]
  split
  · rename_i timed
    left
    cases isRing : earliest.ring with
    | none => exact absurd (nowhere isRing) timed
    | some ring =>
        rcases formats earliest ring rfl isRing with ⟨len, formats, accepted⟩
        rcases processLogBuffer_of_formatted (somewhere ring isRing) formats accepted valid with
          ⟨processed, _, ran, _⟩
        simp only [processEarliest, isRing, ran]
  · exact .inr rfl

/-- A step of a poll thread that can format what it finds comes closer to the loop
condition. -/
theorem pollStep_rank {nanotime : Nat} (kept : Kept state)
    (formats : EntryFormats env passes nanotime { phase := state.poll, logger := state.logger })
    (running : state.poll ≠ .exited) (notGuard : state.poll ≠ .guard) :
    (state.pollStep env passes nanotime).poll = .guard ∨
      (state.pollStep env passes nanotime).rank < state.rank := by
  have valid := kept.flags.file running
  cases phase : state.poll with
  | starting => exact .inl (by simp [State.pollStep, Poll.step, phase])
  | guard => exact absurd phase notGuard
  | unlocked =>
      right
      simp only [State.rank, State.pollStep, phase, Poll.step, PollPhase.rank]
      omega
  | scanning i earliest =>
      right
      simp only [State.rank, State.pollStep, phase, Poll.step]
      exact scanPass_rank i earliest state.logger
  | scanned earliest =>
      rw [phase] at formats
      have found : Found state.logger state.allocations earliest :=
        kept.chosen earliest (by rw [phase]; rfl)
      have somewhere (ring : Nat) (isRing : earliest.ring = some ring) :
          0 < (state.logger.rings ring).peek.2 := by
        rcases found.somewhere ring isRing with ⟨_, _, _, held, _⟩
        exact held.peek_cons.1
      rcases scanned_step found.nowhere somewhere valid formats with guards | waits
      · left
        rw [State.pollStep, phase]
        exact guards
      · right
        have low : (state.pollStep env passes nanotime).poll = .waiting := by
          rw [State.pollStep, phase]
          exact waits
        simp only [State.rank, low, phase, PollPhase.rank]
        omega
  | waiting => exact .inl (by simp [State.pollStep, Poll.step, phase])
  | exited => exact absurd phase running

/-- The owners of all registered buffers have exited. -/
def State.Abandoned (state : State) : Prop :=
  ∀ ring ∈ state.logger.threadBuffers, (state.logger.rings ring).shouldDeallocate = true

theorem State.Abandoned.pollStep (abandoned : state.Abandoned) (nanotime : Nat) :
    (state.pollStep env passes nanotime).Abandoned := by
  cases state.polled env passes nanotime with
  | unchanged same =>
      intro ring registered
      rw [same] at registered ⊢
      exact abandoned ring registered
  | deleted found _ same =>
      intro ring registered
      rw [same] at registered ⊢
      exact abandoned ring (List.mem_of_mem_eraseIdx registered)
  | @looked changed same =>
      intro ring registered
      have marks := SameMarks.setRing state
        (StagingBuffer.peek_shouldDeallocate (state.logger.rings changed)) ring
      rw [same] at registered ⊢
      exact marks.trans (abandoned ring registered)
  | @finished changed processed ran same =>
      intro ring registered
      have marks := SameMarks.setRing state (processed_frame ran).1 ring
      rw [same] at registered ⊢
      exact marks.trans (abandoned ring registered)

theorem State.Abandoned.pollRun (abandoned : state.Abandoned) (n : Nat) :
    (state.pollRun env passes clock n).Abandoned := by
  induction n with
  | zero => exact abandoned
  | succ n induction => exact induction.pollStep (clock n)

theorem pollStep_guard (nanotime : Nat) (guard : state.poll = .guard) :
    (state.pollStep env passes nanotime).logger = state.logger := by
  simp only [State.pollStep, guard, Poll.step]
  split
  · split <;> rfl
  · rfl

/-- When the logger is being stopped, the poll thread returns only with no buffer left. -/
theorem exited_empty (reachable : (orderly env passes length).Reachable state)
    (stopping : state.control = .stopping) (running : state.poll ≠ .exited)
    (timely : ∀ n, clock n < uint64Max) (n : Nat)
    (exited : (state.pollRun env passes clock n).poll = .exited) :
    (state.pollRun env passes clock n).logger.threadBuffers = [] := by
  induction n with
  | zero => exact absurd exited running
  | succ n induction =>
      have flags := (reachable_kept (pollRun_reachable reachable timely n)).flags
      rcases step_exited exited with already | ⟨guard, ⟨_, empty⟩ | isExit⟩
      · rw [State.pollRun, pollStep_exited _ already]
        exact induction already
      · rw [State.pollRun, pollStep_guard _ guard]
        exact empty
      · rcases flags.exit isExit with joining | already
        · rw [(pollRun_frame n).1, stopping] at joining
          cases joining
        · cases already.symm.trans guard

/-- The poll thread comes to its loop condition, unless it has returned. -/
theorem exists_guard (allocates : env.libc.Allocates) (enough : 0 < passes)
    (reachable : (orderly env passes length).Reachable state)
    (timely : ∀ n, clock n < uint64Max) :
    ∃ n, (state.pollRun env passes clock n).poll = .exited ∨
      (state.pollRun env passes clock n).poll = .guard := by
  let Goal (state : State) : Prop := state.poll = .exited ∨ state.poll = .guard
  have falls (n : Nat) (away : ¬Goal (state.pollRun env passes clock n)) :
      Goal (state.pollRun env passes clock (n + 1)) ∨
        (state.pollRun env passes clock (n + 1)).rank <
          (state.pollRun env passes clock n).rank := by
    rcases not_or.mp away with ⟨running, notGuard⟩
    have reached := pollRun_reachable reachable timely n
    rcases reachable_shown allocates enough reached with ⟨held, times, shown⟩
    have kept := reachable_kept reached
    rcases pollStep_rank kept (kept.formats allocates enough shown (clock n)) running
      notGuard with guard | lower
    · exact .inl (.inr guard)
    · exact .inr lower
  rcases leads_to (state.pollRun env passes clock) Goal State.rank falls 0 with
    ⟨n, _, reached⟩
  exact ⟨n, reached⟩

/-- The entries that the registered buffers hold. -/
theorem Kept.staged (kept : Kept state) :
    ∃ entries, Staged state.logger entries ∧
      ∀ ring, ∀ entry ∈ entries ring, entry.timestamp < uint64Max := by
  classical
  choose remaining held small using kept.timely
  refine ⟨fun ring => if ring ∈ state.logger.threadBuffers then remaining ring else [],
    ⟨kept.ownership.distinct, ?_, fun ring unregistered => if_neg unregistered⟩, ?_⟩
  · intro ring registered
    rw [if_pos registered]
    exact held ring
  · intro ring entry member
    dsimp only at member
    split at member
    · exact small ring entry member
    · cases member

/-- At its loop condition the poll thread has before it what it can drain. -/
theorem drains (allocates : env.libc.Allocates) (enough : 0 < passes)
    (reachable : (orderly env passes length).Reachable state) (guard : state.poll = .guard)
    (timely : ∀ n, clock n < uint64Max) :
    ∃ entries, Staged state.logger entries ∧
      (∀ ring, ∀ entry ∈ entries ring, entry.timestamp < uint64Max) ∧
      ∀ n, EntryFormats env passes (clock n)
        (Backend.pollRun env passes clock state.logger n) := by
  rcases (reachable_kept reachable).staged with ⟨entries, staged, bounded⟩
  refine ⟨entries, staged, bounded, ?_⟩
  intro n
  have reached := pollRun_reachable reachable timely n
  rcases reachable_shown allocates enough reached with ⟨held, times, shown⟩
  rw [pollRun_eq guard]
  exact (reachable_kept reached).formats allocates enough shown (clock n)

/-- `is_exit_` is set for a poll thread that runs only while `setLogFile` waits for it. -/
theorem Flags.isExit_false (flags : Flags state) (control : state.control ≠ .joining)
    (running : state.poll ≠ .exited) : state.logger.isExit = false := by
  cases exits : state.logger.isExit with
  | false => rfl
  | true =>
      rcases flags.exit exits with joining | exited
      · exact absurd joining control
      · exact absurd exited running

/-- The poll thread returns. -/
theorem exists_exited (allocates : env.libc.Allocates) (enough : 0 < passes)
    (reachable : (orderly env passes length).Reachable state)
    (stopping : state.control = .stopping) (abandoned : state.Abandoned)
    (timely : ∀ n, clock n < uint64Max) :
    ∃ n, (state.pollRun env passes clock n).poll = .exited := by
  rcases exists_guard allocates enough reachable timely with ⟨n, exited | guard⟩
  · exact ⟨n, exited⟩
  · have reached := pollRun_reachable reachable timely n
    have kept := reachable_kept reached
    have control : (state.pollRun env passes clock n).control = .stopping :=
      (pollRun_frame n).1.trans stopping
    have running : (state.pollRun env passes clock n).poll ≠ .exited := by
      rw [guard]
      exact PollPhase.noConfusion
    have isExit := kept.flags.isExit_false (by rw [control]; exact Control.noConfusion) running
    rcases drains allocates enough reached guard (fun k => timely (n + k)) with
      ⟨entries, staged, bounded, formats⟩
    rcases pollRun_exits staged bounded (kept.flags.stopping control) isExit
      (kept.flags.file running) (abandoned.pollRun n) formats with ⟨m, exited⟩
    refine ⟨n + m, ?_⟩
    rw [pollRun_eq guard] at exited
    rw [pollRun_add]
    exact exited

/-- When the poll thread has returned, the lines of all calls have been handed over. -/
theorem exited_lines (allocates : env.libc.Allocates) (enough : 0 < passes) {start : State}
    {labels : List Label} (starts : (orderly env passes length).Initial start)
    (run : (orderly env passes length).Run start labels state)
    (stopping : state.control = .stopping) (running : state.poll ≠ .exited)
    (timely : ∀ n, clock n < uint64Max) {n : Nat}
    (exited : (state.pollRun env passes clock n).poll = .exited) (ring : Nat) :
    ∃ calls stamps,
      List.Forall₂ (fun commit (call : PrintfCall) => call.Logs env length commit.entry)
        (state.commitsTo ring) calls ∧
      stamps.Sublist (labels.flatMap Label.times ++ (List.range n).map clock) ∧
      LinesOf env
        ((state.pollRun env passes clock n).writesOf start.logger.output.held ring) calls
        stamps ∧
      stamps.length = calls.length := by
  have reachable := System.Reachable.run (.initial starts) run
  rcases pollRun_run timely state n with ⟨polls, polled, times⟩
  have reached := reachable.run polled
  have empty := exited_empty reachable stopping running timely n exited
  have settled := (reachable_kept reached).settled ring (by simp [empty])
  have shown := Shown.run allocates enough starts (run.append polled).of_restrict
  rcases shown.linesOf (reachable_of_printing reached.of_restrict) ring with
    ⟨calls, stamps, logs, sublist, lines⟩
  rw [List.flatMap_append] at sublist
  have same : (state.pollRun env passes clock n).commitsTo ring = state.commitsTo ring := by
    rw [State.commitsTo, (pollRun_frame n).2.2]
    rfl
  have all : ((state.pollRun env passes clock n).writesOf
        start.logger.output.held ring).length =
      ((state.pollRun env passes clock n).commitsTo ring).length := by
    have lengths := congrArg List.length settled
    rw [← State.map_writesOf _ start.logger.output.held, State.committedTo, List.length_map,
      List.length_map] at lengths
    exact lengths
  have complete : stamps.length = calls.length := by
    rw [lines.1, all, logs.length_eq]
  exact ⟨calls, stamps, same ▸ logs, sublist.trans ((List.Sublist.refl _).append times),
    lines, complete⟩

/-- When the destructor waits for a poll thread that has not returned and all logging
threads have exited, the poll thread returns, and by then the lines of all calls have been
handed to `write`, each once, and for each staging buffer in their order, at times that the
clock has shown. -/
theorem stop_writes_all (allocates : env.libc.Allocates) (enough : 0 < passes)
    {start : State} {labels : List Label}
    (starts : (orderly env passes length).Initial start)
    (run : (orderly env passes length).Run start labels state)
    (stopping : state.control = .stopping) (running : state.poll ≠ .exited)
    (abandoned : state.Abandoned) (timely : ∀ n, clock n < uint64Max) :
    ∃ n, (state.pollRun env passes clock n).poll = .exited ∧
      ∀ ring, ∃ calls stamps,
        List.Forall₂ (fun commit (call : PrintfCall) => call.Logs env length commit.entry)
          (state.commitsTo ring) calls ∧
        stamps.Sublist (labels.flatMap Label.times ++ (List.range n).map clock) ∧
        LinesOf env
          ((state.pollRun env passes clock n).writesOf start.logger.output.held ring) calls
          stamps ∧
        stamps.length = calls.length := by
  have reachable := System.Reachable.run (.initial starts) run
  rcases exists_exited allocates enough reachable stopping abandoned timely with ⟨n, exited⟩
  exact ⟨n, exited, exited_lines allocates enough starts run stopping running timely exited⟩

/-- Part of a run whose steps are orderly in any state. -/
theorem run_orderly {start final : State} {labels : List Label}
    (run : (system env passes).Run start labels final)
    (prints : ∀ label ∈ labels, label.Prints env length)
    (allowed : ∀ label ∈ labels, ∀ state, Orderly state label) :
    (orderly env passes length).Run start labels final :=
  (run_printing run prints).restrict allowed

end Completion

/-! ## A logger that is stopped -/

namespace Example

open Backend.Example

/-- The thread has exited, and the destructor waits. -/
def stringStopped : State := (stringLogged.destroy 0 0).stop

theorem orderly_firstLog (state : State) :
    ∀ label ∈ [Label.create 0, .register 0, .reserve 0, .commit 0 stringEntry],
      Orderly state label := by
  simp only [List.forall_mem_cons, Orderly, NoLateLog, Label.Timely, true_and]
  exact ⟨by decide, by simp⟩

theorem orderly_stringLogged :
    ∃ labels, (orderly stringEnv 1 (2 ^ 20)).Run begun labels stringLogged := by
  have here : (begun.polls stringEnv 1 nanotime 2).At 0 .idle none := by
    constructor <;> decide +kernel
  have free : (begun.polls stringEnv 1 nanotime 2).lockFree = true := by decide +kernel
  have polls : ∀ label ∈ List.replicate 2 (Label.poll nanotime),
      label.Prints stringEnv (2 ^ 20) ∧ ∀ state, Orderly state label := by
    intro label member
    rw [List.eq_of_mem_replicate member]
    exact ⟨trivial, fun _ => ⟨trivial, (by decide : nanotime < uint64Max)⟩⟩
  have unlocked : (orderly stringEnv 1 (2 ^ 20)).Run begun
      (List.replicate 2 (Label.poll nanotime)) (begun.polls stringEnv 1 nanotime 2) :=
    run_orderly (run_polls nanotime begun 2 (by decide +kernel))
      (fun label member => (polls label member).1) (fun label member => (polls label member).2)
  have living : NoLateLog (begun.polls stringEnv 1 nanotime 2) (.log 0 42) :=
    (by decide +kernel :
      ((begun.polls stringEnv 1 nanotime 2).threads 0).destroyerRun = false)
  have numbered := unlocked.snoc
    ⟨⟨living, trivial⟩, trivial, step_firstLog stringEntry here free⟩
  exact ⟨_, numbered.append (run_orderly (run_firstLog stringEntry here free) prints_firstLog
    fun label member state => orderly_firstLog state label member)⟩

theorem reachable_stringLogged :
    (orderly stringEnv 1 (2 ^ 20)).Reachable stringLogged := by
  rcases orderly_stringLogged with ⟨_, run⟩
  exact System.Reachable.run (.initial starts_begun) run

theorem orderly_stringStopped :
    ∃ labels, (orderly stringEnv 1 (2 ^ 20)).Run begun labels stringStopped := by
  have destroys : (orderly stringEnv 1 (2 ^ 20)).Step stringLogged (.destroy 0)
      (stringLogged.destroy 0 0) := by
    refine ⟨⟨trivial, trivial⟩, trivial, .destroy ?_ ?_⟩
    · constructor <;> decide +kernel
    · decide +kernel
  have stops : (orderly stringEnv 1 (2 ^ 20)).Step (stringLogged.destroy 0 0) .stop
      stringStopped :=
    ⟨⟨trivial, trivial⟩, trivial, .stop (.inl (by decide +kernel))⟩
  rcases orderly_stringLogged with ⟨_, run⟩
  exact ⟨_, (run.snoc destroys).snoc stops⟩

theorem reachable_stringStopped :
    (orderly stringEnv 1 (2 ^ 20)).Reachable stringStopped := by
  rcases orderly_stringStopped with ⟨_, run⟩
  exact System.Reachable.run (.initial starts_begun) run

theorem stringStopped_buffers : stringStopped.logger.threadBuffers = [0] := by decide +kernel

theorem abandoned_stringStopped : stringStopped.Abandoned := by
  intro ring registered
  rw [stringStopped_buffers, List.mem_singleton] at registered
  rw [registered]
  decide +kernel

end Example

theorem stop_writes_all_string :
    ∃ (labels : List Label) (n : Nat),
      (Example.stringStopped.pollRun Backend.Example.stringEnv 1
        (fun _ => Backend.Example.nanotime) n).poll = .exited ∧
      ∀ ring, ∃ calls stamps,
        List.Forall₂ (fun commit (call : PrintfCall) =>
          call.Logs Backend.Example.stringEnv (2 ^ 20) commit.entry)
          (Example.stringStopped.commitsTo ring) calls ∧
        stamps.Sublist (labels.flatMap Label.times ++
          (List.range n).map fun _ => Backend.Example.nanotime) ∧
        LinesOf Backend.Example.stringEnv
          ((Example.stringStopped.pollRun Backend.Example.stringEnv 1
            (fun _ => Backend.Example.nanotime) n).writesOf
              Example.begun.logger.output.held ring) calls stamps ∧
        stamps.length = calls.length := by
  rcases Example.orderly_stringStopped with ⟨labels, run⟩
  refine ⟨labels, stop_writes_all Decoding.Example.sample_allocates (Nat.le_refl 1)
    Example.starts_begun run ?_ ?_ Example.abandoned_stringStopped ?_⟩
  · decide +kernel
  · decide +kernel
  · exact fun _ => by decide

end StaticLog.Program
