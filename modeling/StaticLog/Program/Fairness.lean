import Mathlib.Algebra.Order.BigOperators.Group.Finset
import Mathlib.Data.Prod.Lex
import StaticLog.Foundation.Fairness
import StaticLog.Program.Overtaking

/-! # No entry waits for ever

Executions without an end in which the poll thread goes on. An entry that lies in its
buffer is written at some time, however many entries the threads go on to commit. -/

namespace StaticLog.Program

open Backend StagingBuffer Execution

section Fairness

variable {env : Environment} {passes length : Nat} {before after state : State}
  {label : Label} {ring count limit size : Nat} {entry : Entry}

/-! ## The entries to be written first -/

/-- Those that are not later than the limit. -/
def early (limit : Nat) (entries : List Entry) : List Entry :=
  entries.filter (fun entry => entry.timestamp ≤ limit)

/-- The buffers hold no more than so many of them. -/
def Backlog (limit size : Nat) (state : State) : Prop :=
  ∃ held : Nat → List Entry,
    (∀ ring < state.allocations, Holds (state.logger.rings ring) (held ring)) ∧
      ∑ ring ∈ Finset.range state.allocations, (early limit (held ring)).length ≤ size

/-- Entries that are committed are later than the limit. -/
def Label.Later (limit : Nat) : Label → Prop
  | .commit _ entry => limit < entry.timestamp
  | _ => True

theorem exists_backlog (accounted : Accounted state) (limit : Nat) :
    ∃ size, Backlog limit size state := by
  choose held holds _ using accounted.balanced
  exact ⟨_, held, fun ring _ => holds ring, Nat.le_refl _⟩

/-- A step that keeps the entries of the buffers that there are. -/
theorem Backlog.stay (backlog : Backlog limit size before)
    (allocations : after.allocations = before.allocations)
    (stays : ∀ ring entries, Holds (before.logger.rings ring) entries →
      Holds (after.logger.rings ring) entries) : Backlog limit size after := by
  rcases backlog with ⟨held, holds, few⟩
  refine ⟨held, ?_, ?_⟩
  · rw [allocations]
    intro ring older
    exact stays ring _ (holds ring older)
  · rw [allocations]
    exact few

theorem Backlog.create (backlog : Backlog limit size state) (thread bufferId : Nat)
    (nbytes : Option Nat) : Backlog limit size (state.create thread bufferId nbytes) := by
  rcases backlog with ⟨held, holds, few⟩
  refine ⟨Function.update held state.allocations [], ?_, ?_⟩
  · intro ring older
    by_cases new : ring = state.allocations
    · rw [new, Function.update_self, State.create_rings_self]
      exact holds_create bufferId
    · rw [Function.update_of_ne new, State.create_rings_of_ne new]
      exact holds ring (Nat.lt_of_le_of_ne (Nat.le_of_lt_succ older) new)
  · have others : ∀ ring ∈ Finset.range state.allocations,
        (early limit (Function.update held state.allocations [] ring)).length =
          (early limit (held ring)).length := by
      intro ring older
      rw [Function.update_of_ne (Nat.ne_of_lt (Finset.mem_range.mp older))]
    rw [State.create, Finset.sum_range_succ, Finset.sum_congr rfl others, Function.update_self]
    exact few

/-- An entry that is later does not count. -/
theorem early_append {entries : List Entry} (later : limit < entry.timestamp) :
    early limit (entries ++ [entry]) = early limit entries := by
  simp [early, later]

/-- The steps of the other threads. -/
theorem Backlog.other (backlog : Backlog limit size before) (accounted : Accounted before)
    (later : label.Later limit) (step : Step env passes before label after)
    (notPoll : ∀ nanotime, label ≠ .poll nanotime) : Backlog limit size after := by
  have kept (allocations : after.allocations = before.allocations) :
      Backlog limit size after := by
    rcases backlog with ⟨held, holds, few⟩
    have keeps (ring : Nat) : ∃ left, ring < before.allocations →
        Holds (after.logger.rings ring) left ∧ early limit left = early limit (held ring) := by
      by_cases older : ring < before.allocations
      · rcases step_holds accounted step (holds ring older) with ⟨left, stays, moved⟩
        refine ⟨left, fun _ => ⟨stays, ?_⟩⟩
        cases moved with
        | same => rfl
        | created new => exact absurd new (Nat.ne_of_lt older)
        | committed isCommit =>
            subst isCommit
            exact early_append later
        | stamped isPoll _ => exact absurd isPoll (notPoll _)
        | taken isPoll _ => exact absurd isPoll (notPoll _)
      · exact ⟨[], fun less => absurd less older⟩
    choose left keeps using keeps
    refine ⟨left, ?_, ?_⟩
    · rw [allocations]
      exact fun ring older => (keeps ring older).1
    · rw [allocations, Finset.sum_congr rfl fun ring older => by
        rw [(keeps ring (Finset.mem_range.mp older)).2]]
      exact few
  cases step with
  | poll nanotime _ => exact absurd rfl (notPoll nanotime)
  | @create thread bufferId nbytes _ => exact backlog.create thread bufferId nbytes
  | openFile path fd _ _ _ =>
      apply kept
      rw [State.openFile]
      split <;> rfl
  | _ => exact kept rfl

/-- The first entry of a buffer is taken. -/
theorem Backlog.take (backlog : Backlog limit size state) {found : Nat} {first : Entry}
    {rest : List Entry} (older : found < state.allocations)
    (held : Holds (state.logger.rings found) (first :: rest)) (small : first.timestamp ≤ limit)
    {stagingBuffer : StagingBuffer}
    (takes : ∀ first rest, Holds (state.logger.rings found) (first :: rest) →
      Holds stagingBuffer rest) (allocations : after.allocations = state.allocations)
    (rings : after.logger.rings = Function.update state.logger.rings found stagingBuffer) :
    ∃ fewer < size, Backlog limit fewer after := by
  rcases backlog with ⟨holding, holds, few⟩
  cases whole : holding found with
  | nil =>
      have nothing := whole ▸ holds found older
      exact absurd nothing.peek_nil.1 (Nat.ne_of_gt held.peek_cons.1)
  | cons head tail =>
      have front := whole ▸ holds found older
      have same : head.timestamp = first.timestamp :=
        congrArg LogEntry.timestamp
          (front.peek_cons.2.frontEntry_eq.symm.trans held.peek_cons.2.frontEntry_eq)
      let left := Function.update holding found tail
      have shorter : ∑ ring ∈ Finset.range state.allocations, (early limit (left ring)).length <
          ∑ ring ∈ Finset.range state.allocations, (early limit (holding ring)).length := by
        apply Finset.sum_lt_sum
        · intro ring _
          by_cases here : ring = found
          · subst here
            simp only [left, Function.update_self, whole, early]
            exact ((List.sublist_cons_self head tail).filter _).length_le
          · simp only [left, Function.update_of_ne here, le_refl]
        · refine ⟨found, Finset.mem_range.mpr older, ?_⟩
          simp [left, whole, early, same, small]
      refine ⟨_, shorter.trans_le few, left, ?_, ?_⟩
      · rw [allocations, rings]
        intro ring older
        by_cases here : ring = found
        · subst here
          simp only [left, Function.update_self]
          exact takes head tail front
        · simp only [left, Function.update_of_ne here]
          exact holds ring older
      · rw [allocations]

/-! ## How far the poll thread is from the next line -/

/-- The phase, and within the scan, what is left of it. -/
def State.place (state : State) : Nat ×ₗ Nat :=
  match state.poll with
  | .starting => toLex (4, 0)
  | .waiting => toLex (4, 0)
  | .guard => toLex (3, 0)
  | .unlocked => toLex (2, 0)
  | .scanning i earliest =>
      toLex (1, (PollPhase.scanning i earliest).rank state.logger.threadBuffers.length)
  | .scanned earliest =>
      toLex (1, (PollPhase.scanned earliest).rank state.logger.threadBuffers.length)
  | .exited => toLex (0, 0)

/-- The other threads do not set it back. -/
theorem place_other (step : Step env passes before label after)
    (notPoll : ∀ nanotime, label ≠ .poll nanotime) (control : before.control ≠ .joining) :
    after.place = before.place := by
  cases step with
  | poll nanotime _ => exact absurd rfl (notPoll nanotime)
  | register _ free =>
      have unlocked : before.poll.locks = false := by simpa [State.lockFree] using free
      simp only [State.place, State.register, State.enter]
      cases phase : before.poll with
      | scanning i earliest =>
          rw [phase] at unlocked
          cases unlocked
      | scanned earliest =>
          rw [phase] at unlocked
          cases unlocked
      | _ => rfl
  | openFile path fd joining _ _ => exact absurd joining control
  | _ => rfl

theorem control_step (step : Step env passes before label after)
    (control : before.control ≠ .joining) (stays : label ≠ .setLogFile) :
    after.control ≠ .joining := by
  cases step with
  | setLogFile _ _ => exact absurd rfl stays
  | setLogFileAgain _ _ => exact absurd rfl stays
  | openFile path fd joining _ _ => exact absurd joining control
  | stop _ => exact Control.noConfusion
  | close _ _ => exact Control.noConfusion
  | _ => exact control

/-- A pass of the scan keeps all entries. -/
theorem scanPass_holds (i : Nat) (earliest : Earliest) (logger : Logger) (ring : Nat)
    (entries : List Entry) (held : Holds (logger.rings ring) entries) :
    Holds ((scanPass i earliest logger).logger.rings ring) entries := by
  rcases scanPass_cases i earliest logger with
    ⟨_, pass⟩ | ⟨visited, _, ⟨_, deleted, _⟩ | ⟨_, pass⟩⟩
  · rw [pass]
    exact held
  · rw [deleted]
    exact held
  · rw [pass]
    exact holds_setRing held fun _ held => held.peek

theorem place_scanPass (i : Nat) (earliest : Earliest) (state : State) :
    State.place
        { state with
          poll := (scanPass i earliest state.logger).phase
          logger := (scanPass i earliest state.logger).logger } =
      toLex (1, (scanPass i earliest state.logger).phase.rank
        (scanPass i earliest state.logger).logger.threadBuffers.length) := by
  rcases scanPass_cases i earliest state.logger with
    ⟨_, pass⟩ | ⟨visited, _, ⟨_, _, goesOn | ⟨goesOn, _⟩⟩ | ⟨_, pass⟩⟩
  · simp only [State.place, pass]
  · simp only [State.place, goesOn]
  · simp only [State.place, goesOn]
  · simp only [State.place, pass]

theorem scanning_place {i : Nat} {earliest : Earliest} (phase : state.poll = .scanning i earliest)
    (nanotime : Nat) : (state.pollStep env passes nanotime).place < state.place := by
  simp only [State.pollStep, phase, Poll.step]
  have lower := scanPass_rank i earliest state.logger
  rw [place_scanPass, State.place, phase]
  simpa [Prod.Lex.toLex_lt_toLex] using lower

/-- What a scan with a result leads to. -/
theorem scanned_processes (allocates : env.libc.Allocates) (enough : 0 < passes)
    (reachable : (printing env passes length).Reachable state) {earliest : Earliest}
    (phase : state.poll = .scanned earliest) (timed : earliest.timestamp ≠ uint64Max)
    (nanotime : Nat) :
    ∃ found first rest processed, found < state.allocations ∧
      Holds (state.logger.rings found) (first :: rest) ∧
      first.timestamp = earliest.timestamp ∧
      (∀ first rest, Holds (state.logger.rings found) (first :: rest) →
        Holds processed.stagingBuffer rest) ∧
      state.pollStep env passes nanotime =
        { state with poll := .guard, logger := state.logger.finish found processed } := by
  have program := reachable_of_printing reachable
  have accounted := reachable_accounted program
  have opened := (reachable_flags program).file (by rw [phase]; exact PollPhase.noConfusion)
  have choice := reachable_chosen program earliest (by rw [phase]; rfl)
  rcases reachable.exists_run with ⟨start, labels, starts, run⟩
  have shown := Shown.run allocates enough starts run
  cases isRing : earliest.ring with
  | none => exact absurd (choice.nowhere isRing) timed
  | some found =>
      rcases choice.somewhere found isRing with ⟨older, first, rest, held, timestamp⟩
      rcases processes allocates enough shown accounted opened held nanotime with
        ⟨processed, _, ran, _⟩
      have takes := processed_takes allocates enough shown accounted opened ran
      refine ⟨found, first, rest, processed, older, held, timestamp, ?_, ?_⟩
      · exact fun first rest held => (takes first rest held).1
      · simp only [State.pollStep, phase, Poll.step, if_pos timed, processEarliest, isRing, ran]

/-- A step of the poll thread hands over a line, or it comes closer to the next one. -/
theorem Lies.approaches (lies : Lies ring limit count entry state)
    (within : Within ring limit state.logger.threadBuffers state.poll)
    (allocates : env.libc.Allocates) (enough : 0 < passes)
    (reachable : (printing env passes length).Reachable state) (running : state.poll ≠ .exited)
    (control : state.control ≠ .joining) (timely : limit < uint64Max)
    (backlog : Backlog limit size state) (nanotime : Nat) :
    (∃ fewer < size, Backlog limit fewer (state.pollStep env passes nanotime)) ∨
      Backlog limit size (state.pollStep env passes nanotime) ∧
        (state.pollStep env passes nanotime).place < state.place := by
  have stays (phase : PollPhase) : Backlog limit size { state with poll := phase } :=
    backlog.stay rfl fun _ _ held => held
  have flags := reachable_flags (reachable_of_printing reachable)
  have isExit := flags.isExit_false control running
  cases phase : state.poll with
  | starting =>
      right
      simp only [State.pollStep, State.place, phase, Poll.step]
      exact ⟨stays .guard, by simp [Prod.Lex.toLex_lt_toLex]⟩
  | waiting =>
      right
      simp only [State.pollStep, State.place, phase, Poll.step]
      exact ⟨stays .guard, by simp [Prod.Lex.toLex_lt_toLex]⟩
  | guard =>
      right
      have some : state.logger.threadBuffers ≠ [] := List.ne_nil_of_mem lies.registered
      have goesOn : state.pollStep env passes nanotime = { state with poll := .unlocked } := by
        simp [State.pollStep, phase, Poll.step, some, isExit]
      rw [goesOn]
      exact ⟨stays .unlocked, by simp [State.place, phase, Prod.Lex.toLex_lt_toLex]⟩
  | unlocked =>
      right
      simp only [State.pollStep, State.place, phase, Poll.step]
      exact ⟨stays _, by simp [Prod.Lex.toLex_lt_toLex]⟩
  | scanning i earliest =>
      right
      refine ⟨?_, scanning_place phase nanotime⟩
      simp only [State.pollStep, phase, Poll.step]
      exact backlog.stay rfl (scanPass_holds i earliest state.logger)
  | scanned earliest =>
      left
      rw [phase] at within
      rcases scanned_processes allocates enough reachable phase
        (Nat.ne_of_lt (Nat.lt_of_le_of_lt within timely)) nanotime with
        ⟨found, first, rest, processed, older, held, timestamp, takes, same⟩
      rw [same]
      exact backlog.take older held (timestamp ▸ within) takes rfl rfl
  | exited => exact absurd phase running

/-- A step of the poll thread brings a scan closer to its end. -/
theorem scan_step (allocates : env.libc.Allocates) (enough : 0 < passes)
    (reachable : (printing env passes length).Reachable before)
    (control : before.control ≠ .joining) (inside : earliestOf before.poll ≠ none)
    (step : (printing env passes length).Step before label after) :
    earliestOf after.poll = none ∨ after.place ≤ before.place ∧
      ((∃ nanotime, label = .poll nanotime) → after.place < before.place) := by
  by_cases isPoll : ∃ nanotime, label = .poll nanotime
  · rcases isPoll with ⟨nanotime, rfl⟩
    rcases step with ⟨_, step⟩
    cases step with
    | poll nanotime _ =>
        cases phase : before.poll with
        | scanning i earliest =>
            have lower : (before.pollStep env passes nanotime).place < before.place :=
              scanning_place phase nanotime
            exact .inr ⟨lower.le, fun _ => lower⟩
        | scanned earliest =>
            left
            by_cases timed : earliest.timestamp = uint64Max
            · simp [State.pollStep, phase, Poll.step, timed, earliestOf]
            · rcases scanned_processes allocates enough reachable phase timed nanotime with
                ⟨_, _, _, _, _, _, _, _, same⟩
              rw [same]
              rfl
        | _ => exact absurd (by rw [phase]; rfl) inside
  · have same := place_other step.2 (not_exists.mp isPoll) control
    exact .inr ⟨same.le, fun polls => absurd polls isPoll⟩

/-! ## Endless executions -/

/-- An entry waits that the scan has not passed by, and this is how much comes before it. -/
structure Awaits (ring limit count : Nat) (entry : Entry) (state : State)
    (rank : Nat ×ₗ (Nat ×ₗ Nat)) : Prop where
  lies : Lies ring limit count entry state
  within : Within ring limit state.logger.threadBuffers state.poll
  control : state.control ≠ .joining
  backlog : ∃ size, Backlog limit size state ∧ rank = toLex (size, state.place)

/-- No step puts the entry back, and the steps of the poll thread bring it forward. -/
theorem Awaits.step (allocates : env.libc.Allocates) (enough : 0 < passes)
    (reachable : (printing env passes length).Reachable before) {rank : Nat ×ₗ (Nat ×ₗ Nat)}
    (awaits : Awaits ring limit count entry before rank) (timely : limit < uint64Max)
    (later : label.Later limit) (stays : label ≠ .setLogFile)
    (step : (printing env passes length).Step before label after)
    (lies : Lies ring limit count entry after) :
    ∃ next, Awaits ring limit count entry after next ∧ next ≤ rank ∧
      ((∃ nanotime, label = .poll nanotime) → next < rank) := by
  rcases awaits with ⟨earlier, within, control, size, backlog, rfl⟩
  have still := control_step step.2 control stays
  have unpassed := earlier.within_step within step.2
  by_cases isPoll : ∃ nanotime, label = .poll nanotime
  · rcases isPoll with ⟨nanotime, rfl⟩
    rcases step with ⟨_, step⟩
    cases step with
    | poll nanotime running =>
        rcases earlier.approaches within allocates enough reachable running control timely
          backlog nanotime with ⟨fewer, less, backlog⟩ | ⟨backlog, closer⟩
        · have lower : toLex (fewer, (before.pollStep env passes nanotime).place) <
              toLex (size, before.place) := by
            rw [Prod.Lex.toLex_lt_toLex]
            exact .inl less
          exact ⟨_, ⟨lies, unpassed, still, fewer, backlog, rfl⟩, lower.le, fun _ => lower⟩
        · have lower : toLex (size, (before.pollStep env passes nanotime).place) <
              toLex (size, before.place) := by
            rw [Prod.Lex.toLex_lt_toLex]
            exact .inr ⟨rfl, closer⟩
          exact ⟨_, ⟨lies, unpassed, still, size, backlog, rfl⟩, lower.le, fun _ => lower⟩
  · have notPoll := not_exists.mp isPoll
    have same := place_other step.2 notPoll control
    have accounted := reachable_accounted (reachable_of_printing reachable)
    refine ⟨_, ⟨lies, unpassed, still, size, ?_, rfl⟩, ?_, ?_⟩
    · exact backlog.other accounted later step.2 notPoll
    · rw [same]
    · exact fun polls => absurd polls isPoll

/-- In an execution without an end, the poll thread goes on, the log file stays as it is,
and the entries that are committed are later than the limit. -/
structure Lasting (limit : Nat) (endless : Endless (printing env passes length)) : Prop where
  reachable : (printing env passes length).Reachable (endless.state 0)
  control : (endless.state 0).control ≠ .joining
  later : ∀ n, (endless.label n).Later limit
  stays : ∀ n, endless.label n ≠ .setLogFile
  polls : Recurs fun n => ∃ nanotime, endless.label n = .poll nanotime

section Lasting

variable {endless : Endless (printing env passes length)}

theorem Lasting.control_ne (lasting : Lasting limit endless) (n : Nat) :
    (endless.state n).control ≠ .joining := by
  induction n with
  | zero => exact lasting.control
  | succ n induction => exact control_step (endless.step n).2 induction (lasting.stays n)

theorem Lasting.suffix (lasting : Lasting limit endless) (start : Nat) :
    Lasting limit (endless.suffix start) where
  reachable := endless.reachable lasting.reachable start
  control := lasting.control_ne start
  later n := lasting.later (start + n)
  stays n := lasting.stays (start + n)
  polls := Recurs.suffix lasting.polls start

theorem WrittenSince.earlier {start middle : State}
    (grown : start.logger.writes <+: middle.logger.writes)
    (written : WrittenSince middle ring entry state) : WrittenSince start ring entry state := by
  rcases grown with ⟨more, grown⟩
  rcases written with ⟨handed, write, writes, member, facts⟩
  refine ⟨more ++ handed, write, ?_, List.mem_append_right _ member, facts⟩
  rw [writes, ← grown, List.append_assoc]

theorem endless_writes (endless : Endless (printing env passes length)) (n : Nat) :
    (endless.state 0).logger.writes <+: (endless.state n).logger.writes := by
  rcases endless.exists_run n with ⟨labels, run⟩
  exact run_writes_isPrefix (run_of_printing run)

/-- What is written is written for all time to come. -/
def Passed (ring count : Nat) (entry : Entry) (start state : State) : Prop :=
  count < (state.writtenOf ring).length ∧ WrittenSince start ring entry state

/-- An entry that the scan has not passed by is written. -/
theorem Lasting.exists_passed_outside (lasting : Lasting limit endless)
    (allocates : env.libc.Allocates) (enough : 0 < passes)
    (lies : Lies ring limit count entry (endless.state 0))
    (outside : earliestOf (endless.state 0).poll = none) (timely : limit < uint64Max) :
    ∃ n, Passed ring count entry (endless.state 0) (endless.state n) := by
  have accounted := reachable_accounted (reachable_of_printing lasting.reachable)
  rcases exists_backlog accounted limit with ⟨size, backlog⟩
  let Goal (n : Nat) := Passed ring count entry (endless.state 0) (endless.state n)
  let Ranked (n : Nat) := Awaits ring limit count entry (endless.state n)
  have begins : Ranked 0 (toLex (size, (endless.state 0).place)) :=
    ⟨lies, within_of_outside outside, lasting.control, size, backlog, rfl⟩
  have falls (n : Nat) (rank : Nat ×ₗ (Nat ×ₗ Nat)) (awaits : Ranked n rank) :
      Goal (n + 1) ∨ ∃ next, Ranked (n + 1) next ∧ next ≤ rank ∧
        ((∃ nanotime, endless.label n = .poll nanotime) → next < rank) := by
    have reached := endless.reachable lasting.reachable n
    rcases awaits.lies.step allocates enough reached (endless.step n) with
      lies | ⟨more, written⟩
    · exact .inr (awaits.step allocates enough reached timely (lasting.later n)
        (lasting.stays n) (endless.step n) lies)
    · exact .inl ⟨more, written.earlier (endless_writes endless n)⟩
  rcases fair_leads_to Goal Ranked (fun n _ _ => lasting.polls n) falls begins with ⟨n, _, goal⟩
  exact ⟨n, goal⟩

/-- A scan comes to its end. -/
theorem Lasting.exists_outside (lasting : Lasting limit endless)
    (allocates : env.libc.Allocates) (enough : 0 < passes) :
    ∃ n, earliestOf (endless.state n).poll = none := by
  by_cases outside : earliestOf (endless.state 0).poll = none
  · exact ⟨0, outside⟩
  · let Goal (n : Nat) := earliestOf (endless.state n).poll = none
    let Ranked (n : Nat) (rank : Nat ×ₗ Nat) :=
      earliestOf (endless.state n).poll ≠ none ∧ rank = (endless.state n).place
    have falls (n : Nat) (rank : Nat ×ₗ Nat) (ranked : Ranked n rank) :
        Goal (n + 1) ∨ ∃ next, Ranked (n + 1) next ∧ next ≤ rank ∧
          ((∃ nanotime, endless.label n = .poll nanotime) → next < rank) := by
      rcases ranked with ⟨inside, rfl⟩
      by_cases goal : Goal (n + 1)
      · exact .inl goal
      · rcases scan_step allocates enough (endless.reachable lasting.reachable n)
          (lasting.control_ne n) inside (endless.step n) with ends | ⟨same, lower⟩
        · exact .inl ends
        · exact .inr ⟨_, ⟨goal, rfl⟩, same, lower⟩
    rcases fair_leads_to Goal Ranked (fun n _ _ => lasting.polls n) falls ⟨outside, rfl⟩ with
      ⟨n, _, goal⟩
    exact ⟨n, goal⟩

/-- An entry waits until it is written. -/
theorem lies_until (allocates : env.libc.Allocates) (enough : 0 < passes)
    (reachable : (printing env passes length).Reachable (endless.state 0))
    (lies : Lies ring limit count entry (endless.state 0)) (n : Nat) :
    (∃ m, Passed ring count entry (endless.state 0) (endless.state m)) ∨
      Lies ring limit count entry (endless.state n) := by
  let Goal (n : Nat) := Passed ring count entry (endless.state 0) (endless.state n)
  let Waits (n : Nat) := Lies ring limit count entry (endless.state n)
  have keeps (n : Nat) (lies : Waits n) : Goal (n + 1) ∨ Waits (n + 1) := by
    rcases lies.step allocates enough (endless.reachable reachable n) (endless.step n) with
      lies | ⟨more, written⟩
    · exact .inr lies
    · exact .inl ⟨more, written.earlier (endless_writes endless n)⟩
  rcases holds_until Goal Waits keeps (Nat.zero_le n) lies with ⟨m, _, passed⟩ | lies
  · exact .inl ⟨m, passed⟩
  · exact .inr lies

theorem Lasting.exists_passed (lasting : Lasting limit endless)
    (allocates : env.libc.Allocates) (enough : 0 < passes)
    (lies : Lies ring limit count entry (endless.state 0)) (timely : limit < uint64Max) :
    ∃ n, Passed ring count entry (endless.state 0) (endless.state n) := by
  rcases lasting.exists_outside allocates enough with ⟨start, outside⟩
  rcases lies_until allocates enough lasting.reachable lies start with passed | lies
  · exact passed
  · rcases (lasting.suffix start).exists_passed_outside allocates enough lies outside timely with
      ⟨n, more, written⟩
    exact ⟨start + n, more, written.earlier (endless_writes endless start)⟩

/-- In an execution without an end, an entry that lies in a buffer is written, whatever the
order of the steps, if the poll thread goes on, the log file stays as it is, and the
entries that are committed are later than it and those ahead of it. -/
theorem eventually_written (allocates : env.libc.Allocates) (enough : 0 < passes)
    (lasting : Lasting limit endless) (timely : limit < uint64Max)
    (registered : ring ∈ (endless.state 0).logger.threadBuffers) {ahead behind : List Entry}
    (held : Holds ((endless.state 0).logger.rings ring) (ahead ++ entry :: behind))
    (early : ∀ other ∈ ahead ++ [entry], other.timestamp ≤ limit) :
    ∃ n, WrittenSince (endless.state 0) ring entry (endless.state n) := by
  have lies : Lies ring limit (((endless.state 0).writtenOf ring).length + ahead.length) entry
      (endless.state 0) := by
    refine ⟨registered, early entry (by simp), ahead, behind, held, ?_, rfl⟩
    intro other member
    exact early other (List.mem_append_left _ member)
  rcases lasting.exists_passed allocates enough lies timely with ⟨n, _, written⟩
  exact ⟨n, written⟩

end Lasting

end Fairness

/-! ## A poll thread that goes on -/

namespace Example

open Backend.Example

/-- The poll thread runs, and nobody has asked it to return. -/
structure Unstopped (state : State) : Prop where
  isStop : state.logger.isStop = false
  isExit : state.logger.isExit = false
  running : state.poll ≠ .exited

theorem Unstopped.pollStep {state : State} (unstopped : Unstopped state) :
    Unstopped (state.pollStep stringEnv 1 nanotime) := by
  have same : SameFile state.logger (state.pollStep stringEnv 1 nanotime).logger :=
    sameFile_poll nanotime state
  refine ⟨same.isStop.trans unstopped.isStop, same.isExit.trans unstopped.isExit, ?_⟩
  intro exited
  rcases step_exited exited with already | ⟨_, ⟨stopped, _⟩ | exits⟩
  · exact unstopped.running already
  · exact Bool.noConfusion (unstopped.isStop.symm.trans stopped)
  · exact Bool.noConfusion (unstopped.isExit.symm.trans exits)

theorem unstopped_stringLogged : Unstopped stringLogged := by constructor <;> decide +kernel

theorem polls_unstopped (n : Nat) : Unstopped (stringLogged.polls stringEnv 1 nanotime n) := by
  induction n with
  | zero => exact unstopped_stringLogged
  | succ n induction => exact induction.pollStep

def polling : Endless (printing stringEnv 1 (2 ^ 20)) where
  state := stringLogged.polls stringEnv 1 nanotime
  label _ := .poll nanotime
  step n := ⟨trivial, .poll nanotime (polls_unstopped n).running⟩

end Example

theorem eventually_written_string :
    ∃ n, WrittenSince Example.stringLogged 0 Backend.Example.stringEntry
      (Example.polling.state n) := by
  have lasting : Lasting 1000 Example.polling :=
    { reachable := Example.reachable_stringLogged.of_restrict
      control := by decide +kernel
      later := fun _ => trivial
      stays := fun _ => Label.noConfusion
      polls := fun n => ⟨n, Nat.le_refl n, Backend.Example.nanotime, rfl⟩ }
  have registered : 0 ∈ Example.stringLogged.logger.threadBuffers := by decide +kernel
  have held : Holds (Example.stringLogged.logger.rings 0)
      ([] ++ Backend.Example.stringEntry :: []) := Example.holds_stringLogged
  exact eventually_written Decoding.Example.sample_allocates (Nat.le_refl 1) lasting
    (by decide) registered held (by decide)

end StaticLog.Program
