import StaticLog.Program.Completion
import StaticLog.Program.Histories

/-! # Earlier entries come first

An entry that lies in its buffer before the poll thread begins a scan. Until its own line
is written, no line of a later entry is, whatever the logging threads do meanwhile. -/

namespace StaticLog.Program

open Backend StagingBuffer Execution

section Overtaking

variable {env : Environment} {passes length : Nat} {before after state final : State}
  {label : Label} {labels : List Label} {ring limit count nanotime : Nat} {entry : Entry}

/-! ## Writes up to one of a buffer -/

/-- No write is later than the limit, up to the one that follows `room` others of the
buffer. -/
def Unpassed (ring limit room : Nat) (writes : List Write) : Prop :=
  ∀ earlier write later, writes = earlier ++ write :: later →
    (earlier.filter (fun write => write.ring = ring)).length ≤ room → write.timestamp ≤ limit

theorem Unpassed.append {room : Nat} {writes handed : List Write}
    (unpassed : Unpassed ring limit room writes)
    (within : (writes.filter (fun write => write.ring = ring)).length ≤ room →
      ∀ write ∈ handed, write.timestamp ≤ limit) :
    Unpassed ring limit room (writes ++ handed) := by
  intro earlier write later split few
  have old (shared : List Write) (isEarlier : earlier = writes ++ shared)
      (isHanded : handed = shared ++ write :: later) : write.timestamp ≤ limit := by
    apply within
    · rw [isEarlier, List.filter_append, List.length_append] at few
      omega
    · rw [isHanded]
      simp
  rcases List.append_eq_append_iff.mp split with ⟨shared, isEarlier, isHanded⟩ |
      ⟨shared, isWrites, isLater⟩
  · exact old shared isEarlier isHanded
  · cases shared with
    | nil => exact old [] (by simpa using isWrites.symm) (by simpa using isLater.symm)
    | cons first shared =>
        cases isLater
        exact unpassed earlier write shared isWrites few

/-! ## What a step does to an entry that waits -/

/-- The entry will be written when `count` others of its buffer are. Those ahead of it are
not later than the limit, and neither is it. -/
structure Lies (ring limit count : Nat) (entry : Entry) (state : State) : Prop where
  registered : ring ∈ state.logger.threadBuffers
  small : entry.timestamp ≤ limit
  waits : ∃ ahead behind, Holds (state.logger.rings ring) (ahead ++ entry :: behind) ∧
    (∀ other ∈ ahead, other.timestamp ≤ limit) ∧
    (state.writtenOf ring).length + ahead.length = count

/-- The entry has been written since the state `start`. -/
def WrittenSince (start : State) (ring : Nat) (entry : Entry) (state : State) : Prop :=
  ∃ written write, state.logger.writes = start.logger.writes ++ written ∧
    write ∈ written ∧ write.ring = ring ∧ write.entry = entry.block

/-- The entry still waits, or it has been written. -/
def Advances (ring limit count : Nat) (entry : Entry) (before after : State) : Prop :=
  Lies ring limit count entry after ∨
    count < (after.writtenOf ring).length ∧ WrittenSince before ring entry after

/-- The first entry of a buffer can be processed, and then it is written. -/
theorem processes (allocates : env.libc.Allocates) (enough : 0 < passes)
    {log : Memory UInt8} {times : List Nat} (shown : Shown env length log times state)
    (accounted : Accounted state)
    (opened : state.logger.outfd ≠ -1) {found : Nat} {first : Entry} {rest : List Entry}
    (held : Holds (state.logger.rings found) (first :: rest)) (nanotime : Nat) :
    ∃ (processed : Processed) (write : Write),
      processLogBuffer env passes nanotime state.logger.outfd (state.logger.rings found)
        state.logger.output = some processed ∧
      Holds processed.stagingBuffer rest ∧
      write.ring = found ∧ write.entry = first.block ∧
      (state.logger.finish found processed).writes = state.logger.writes ++ [write] := by
  rcases accounted.balanced found with ⟨remaining, balanced, balance⟩
  cases remaining with
  | nil => exact absurd balanced.peek_nil.1 (Nat.ne_of_gt held.peek_cons.1)
  | cons balancing later =>
      rcases Accounted.mem_commits balance with ⟨commit, member, body⟩
      rcases shown.commits commit member with ⟨call, logs⟩
      have logs := logs.of_body body.symm
      rcases processLogBuffer_prints allocates enough nanotime opened logs.known balanced
        logs.stores shown.placed (shown.length_eq ▸ logs.fits) with
        ⟨processed, line, ran, _, _, written, _⟩
      rcases held.processed ran with ⟨none, _⟩ | ⟨_, consumed⟩
      · rw [written] at none
        cases none
      · let write : Write :=
          { ring := found, entry := first.block
            file := state.logger.files state.logger.outfd, line := line }
        refine ⟨processed, write, ran, consumed, rfl, rfl, ?_⟩
        simp only [Logger.finish, written, Option.map_some, Option.toList_some,
          held.peek_cons.2.slice_eq, write]

theorem processed_takes (allocates : env.libc.Allocates) (enough : 0 < passes)
    {log : Memory UInt8} {times : List Nat} (shown : Shown env length log times state)
    (accounted : Accounted state)
    (opened : state.logger.outfd ≠ -1) {found : Nat} {processed : Processed}
    (ran : processLogBuffer env passes nanotime state.logger.outfd
      (state.logger.rings found) state.logger.output = some processed)
    (first : Entry) (rest : List Entry)
    (held : Holds (state.logger.rings found) (first :: rest)) :
    Holds processed.stagingBuffer rest ∧
      ∃ write : Write, write.ring = found ∧ write.entry = first.block ∧
        (state.logger.finish found processed).writes = state.logger.writes ++ [write] := by
  rcases processes allocates enough shown accounted opened held nanotime with
    ⟨other, write, also, left, facts⟩
  cases Option.some.inj (also.symm.trans ran)
  exact ⟨left, write, facts⟩

/-- Another buffer stays registered. -/
theorem mem_deleteBuffer {logger : Logger} (registered : ring ∈ logger.threadBuffers)
    {i visited : Nat} (found : logger.threadBuffers[i]? = some visited)
    (different : ring ≠ visited) : ring ∈ (logger.deleteBuffer i visited).threadBuffers := by
  rcases split_at found with ⟨front, behind, split, erased, _⟩
  rw [Logger.deleteBuffer, erased]
  rw [split] at registered
  simpa [different] using registered

namespace Lies

/-- The first entry of the buffer is not later than the limit. -/
theorem exists_first (lies : Lies ring limit count entry state) :
    ∃ first rest, Holds (state.logger.rings ring) (first :: rest) ∧
      first.timestamp ≤ limit := by
  rcases lies.waits with ⟨ahead, behind, held, early, _⟩
  cases ahead with
  | nil => exact ⟨entry, behind, held, lies.small⟩
  | cons first ahead => exact ⟨first, ahead ++ entry :: behind, held, early first (by simp)⟩

/-- Entries may come in behind it. -/
theorem keep (lies : Lies ring limit count entry before)
    (registered : ring ∈ after.logger.threadBuffers)
    (keeps : ∀ remaining, Holds (before.logger.rings ring) remaining →
      ∃ more, Holds (after.logger.rings ring) (remaining ++ more))
    (written : after.writtenOf ring = before.writtenOf ring) :
    Lies ring limit count entry after := by
  rcases lies.waits with ⟨ahead, behind, held, early, counted⟩
  rcases keeps _ held with ⟨more, held⟩
  refine ⟨registered, lies.small, ahead, behind ++ more, ?_, early, ?_⟩
  · rw [← List.cons_append, ← List.append_assoc]
    exact held
  · rw [written]
    exact counted

/-- A step that leaves the entries of the buffer as they are. -/
theorem stay (lies : Lies ring limit count entry before)
    (registered : ring ∈ after.logger.threadBuffers)
    (stays : ∀ remaining, Holds (before.logger.rings ring) remaining →
      Holds (after.logger.rings ring) remaining)
    (written : after.writtenOf ring = before.writtenOf ring) :
    Lies ring limit count entry after := by
  refine lies.keep registered ?_ written
  intro remaining held
  refine ⟨[], ?_⟩
  rw [List.append_nil]
  exact stays remaining held

/-- The steps of the other threads. -/
theorem other (lies : Lies ring limit count entry before) (accounted : Accounted before)
    (ownership : Ownership before) (step : Step env passes before label after)
    (notPoll : ∀ nanotime, label ≠ .poll nanotime)
    (writes : after.logger.writes = before.logger.writes) :
    Lies ring limit count entry after := by
  have older := ownership.registered ring lies.registered
  have keeps (remaining : List Entry) (held : Holds (before.logger.rings ring) remaining) :
      ∃ more, Holds (after.logger.rings ring) (remaining ++ more) := by
    rcases step_holds accounted step held with ⟨left, held, moved⟩
    cases moved with
    | same => exact ⟨[], by rwa [List.append_nil]⟩
    | created new => exact absurd new (Nat.ne_of_lt older)
    | committed _ => exact ⟨_, held⟩
    | stamped isPoll _ => exact absurd isPoll (notPoll _)
    | taken isPoll _ => exact absurd isPoll (notPoll _)
  have registered := lies.registered
  have written : after.writtenOf ring = before.writtenOf ring := by
    rw [State.writtenOf, writes, State.writtenOf]
  cases step with
  | poll nanotime _ => exact absurd rfl (notPoll nanotime)
  | register _ _ => exact lies.keep (List.mem_append_left _ registered) keeps written
  | openFile path fd _ _ _ =>
      apply lies.keep _ keeps written
      rw [State.openFile]
      split <;> exact registered
  | _ => exact lies.keep registered keeps written

/-- Another buffer is deleted. -/
theorem delete (lies : Lies ring limit count entry state) {i visited : Nat}
    (found : state.logger.threadBuffers[i]? = some visited)
    (deletable : (state.logger.rings visited).checkCanDelete = true) :
    ring ∈ (state.logger.deleteBuffer i visited).threadBuffers := by
  rcases lies.exists_first with ⟨first, rest, held, _⟩
  apply mem_deleteBuffer lies.registered found
  rintro rfl
  cases held.eq_nil_of_checkCanDelete deletable

/-- The first entry of the buffer is written. -/
theorem take (lies : Lies ring limit count entry before)
    (registered : ring ∈ after.logger.threadBuffers)
    (takes : ∀ first rest, Holds (before.logger.rings ring) (first :: rest) →
      Holds (after.logger.rings ring) rest ∧
        ∃ write : Write, write.ring = ring ∧ write.entry = first.block ∧
          after.logger.writes = before.logger.writes ++ [write]) :
    Advances ring limit count entry before after := by
  rcases lies.waits with ⟨ahead, behind, held, early, counted⟩
  cases ahead with
  | nil =>
      rcases takes entry behind held with ⟨_, write, isRing, isEntry, writes⟩
      refine .inr ⟨?_, [write], write, writes, by simp, isRing, isEntry⟩
      simp [State.writtenOf, writes, isRing] at counted ⊢
      omega
  | cons first ahead =>
      rcases takes first (ahead ++ entry :: behind) held with ⟨left, write, isRing, _, writes⟩
      refine .inl ⟨registered, lies.small, ahead, behind, left, ?_, ?_⟩
      · intro other member
        exact early other (List.mem_cons_of_mem _ member)
      · simp [State.writtenOf, writes, isRing] at counted ⊢
        omega

/-- The first entry of some buffer is processed. -/
theorem finish (lies : Lies ring limit count entry state)
    (allocates : env.libc.Allocates) (enough : 0 < passes) {log : Memory UInt8}
    {times : List Nat} (shown : Shown env length log times state) (accounted : Accounted state)
    (opened : state.logger.outfd ≠ -1) {found : Nat} {processed : Processed}
    (ran : processLogBuffer env passes nanotime state.logger.outfd
      (state.logger.rings found) state.logger.output = some processed)
    (finished : after.logger = state.logger.finish found processed) :
    Advances ring limit count entry state after := by
  have registered : ring ∈ after.logger.threadBuffers := by
    rw [finished]
    exact lies.registered
  have takes := processed_takes allocates enough shown accounted opened ran
  by_cases same : ring = found
  · subst same
    apply lies.take registered
    rw [finished]
    intro first rest held
    simp only [Logger.finish, Function.update_self]
    exact takes first rest held
  · left
    apply lies.stay registered
    · intro remaining held
      simp only [finished, Logger.finish, Function.update_of_ne same]
      exact held
    · have different : found ≠ ring := fun equal => same equal.symm
      cases written : processed.written with
      | none => simp [State.writtenOf, finished, Logger.finish, written]
      | some line => simp [State.writtenOf, finished, Logger.finish, written, different]

theorem pollStep (lies : Lies ring limit count entry state)
    (allocates : env.libc.Allocates) (enough : 0 < passes) {log : Memory UInt8}
    {times : List Nat} (shown : Shown env length log times state) (accounted : Accounted state)
    (opened : state.logger.outfd ≠ -1) (nanotime : Nat) :
    Advances ring limit count entry state (state.pollStep env passes nanotime) := by
  have written (same : (state.pollStep env passes nanotime).logger.writes =
      state.logger.writes) :
      (state.pollStep env passes nanotime).writtenOf ring = state.writtenOf ring := by
    rw [State.writtenOf, same, State.writtenOf]
  cases state.polled env passes nanotime with
  | unchanged same =>
      refine .inl (lies.stay ?_ ?_ (written (by rw [same])))
      · rw [same]
        exact lies.registered
      · rw [same]
        exact fun _ held => held
  | deleted found deletable same =>
      refine .inl (lies.stay ?_ ?_ (written (by rw [same]; rfl)))
      · rw [same]
        exact lies.delete found deletable
      · rw [same]
        exact fun _ held => held
  | looked same =>
      refine .inl (lies.stay ?_ ?_ (written (by rw [same]; rfl)))
      · rw [same]
        exact lies.registered
      · rw [same]
        exact fun _ held => holds_setRing held fun _ held => held.peek
  | finished ran same => exact lies.finish allocates enough shown accounted opened ran same

theorem step (lies : Lies ring limit count entry before)
    (allocates : env.libc.Allocates) (enough : 0 < passes)
    (reachable : (printing env passes length).Reachable before)
    (step : (printing env passes length).Step before label after) :
    Advances ring limit count entry before after := by
  have program := reachable_of_printing reachable
  have accounted := reachable_accounted program
  rcases step with ⟨_, step⟩
  by_cases isPoll : ∃ nanotime, label = .poll nanotime
  · rcases isPoll with ⟨nanotime, rfl⟩
    cases step with
    | poll nanotime running =>
        rcases reachable.exists_run with ⟨start, labels, starts, run⟩
        exact lies.pollStep allocates enough (Shown.run allocates enough starts run)
          accounted ((reachable_flags program).file running) nanotime
  · have notPoll := not_exists.mp isPoll
    rcases step_writes step with writes | ⟨nanotime, isPoll, _⟩
    · exact .inl (lies.other accounted (reachable_ownership program) step notPoll writes)
    · exact absurd isPoll (notPoll nanotime)

end Lies

/-! ## What the scan has found -/

/-- A scan that has been at the buffer has found a time not later than the limit. -/
def Within (ring limit : Nat) (threadBuffers : List Nat) : PollPhase → Prop
  | .scanning i earliest => ring ∈ threadBuffers.take i → earliest.timestamp ≤ limit
  | .scanned earliest => earliest.timestamp ≤ limit
  | _ => True

theorem within_of_outside {threadBuffers : List Nat} {phase : PollPhase}
    (outside : earliestOf phase = none) : Within ring limit threadBuffers phase := by
  cases phase with
  | scanning i earliest => cases outside
  | scanned earliest => cases outside
  | _ => trivial

theorem earliestOf_of_unlocked {phase : PollPhase} (unlocked : phase.locks = false) :
    earliestOf phase = none := by
  cases phase with
  | scanning i earliest => cases unlocked
  | scanned earliest => cases unlocked
  | _ => rfl

/-- Once the scan has been at the buffer, it has found a time not later than the limit. -/
theorem Lies.compare_le (lies : Lies ring limit count entry state) {visited : Nat}
    {earliest : Earliest} (reached : ring = visited ∨ earliest.timestamp ≤ limit) :
    (earliest.compare visited (state.logger.rings visited).peek).timestamp ≤ limit := by
  rw [Earliest.compare]
  rcases reached with rfl | found
  · rcases lies.exists_first with ⟨first, rest, held, early⟩
    have head : (frontEntry (state.logger.rings ring).peek.1).timestamp ≤ limit := by
      rw [held.peek_cons.2.frontEntry_eq]
      exact early
    split
    · exact head
    · rename_i notEarlier
      have least := not_and.mp notEarlier held.peek_cons.1
      omega
  · split
    · rename_i earlier
      exact earlier.2.le.trans found
    · exact found

/-- A pass of the scan. -/
theorem Lies.scanPass (lies : Lies ring limit count entry state) {i : Nat}
    {earliest : Earliest}
    (within : ring ∈ state.logger.threadBuffers.take i → earliest.timestamp ≤ limit) :
    Within ring limit (Backend.scanPass i earliest state.logger).logger.threadBuffers
      (Backend.scanPass i earliest state.logger).phase := by
  rcases scanPass_cases i earliest state.logger with ⟨whole, pass⟩ | ⟨visited, found, pass⟩
  · rw [pass]
    apply within
    rw [List.take_of_length_le whole]
    exact lies.registered
  · rcases pass with ⟨deletable, deleted, goesOn⟩ | ⟨_, pass⟩
    · have registered := lies.delete found deletable
      rw [deleted]
      rcases goesOn with goesOn | ⟨_, nothing⟩
      · rw [goesOn]
        intro member
        rw [Logger.deleteBuffer, List.take_eraseIdx_eq_take_of_le _ _ _ (Nat.le_refl i)] at member
        exact within member
      · rw [nothing] at registered
        cases registered
    · rw [pass]
      intro member
      rw [Logger.setRing, List.take_add_one, found, List.mem_append] at member
      apply lies.compare_le
      rcases member with member | here
      · exact .inr (within member)
      · exact .inl (by simpa using here)

theorem Lies.within_pollStep (lies : Lies ring limit count entry state)
    (within : Within ring limit state.logger.threadBuffers state.poll) (nanotime : Nat) :
    Within ring limit (state.pollStep env passes nanotime).logger.threadBuffers
      (state.pollStep env passes nanotime).poll := by
  cases phase : state.poll with
  | starting =>
      simp only [State.pollStep, phase, Poll.step]
      trivial
  | guard =>
      simp only [State.pollStep, phase, Poll.step]
      split
      · split <;> trivial
      · trivial
  | unlocked =>
      simp only [State.pollStep, phase, Poll.step]
      intro member
      cases member
  | scanning i earliest =>
      rw [phase] at within
      simp only [State.pollStep, phase, Poll.step]
      exact lies.scanPass within
  | scanned earliest =>
      rw [phase] at within
      simp only [State.pollStep, phase, Poll.step]
      split
      · simp only [processEarliest]
        split
        · exact within
        · split
          · exact within
          · trivial
      · trivial
  | waiting =>
      simp only [State.pollStep, phase, Poll.step]
      trivial
  | exited =>
      simp only [State.pollStep, phase, Poll.step]
      trivial

theorem Lies.within_step (lies : Lies ring limit count entry before)
    (within : Within ring limit before.logger.threadBuffers before.poll)
    (step : Step env passes before label after) :
    Within ring limit after.logger.threadBuffers after.poll := by
  cases step with
  | poll nanotime _ => exact lies.within_pollStep within nanotime
  | register _ free =>
      have unlocked : before.poll.locks = false := by simpa [State.lockFree] using free
      exact within_of_outside (earliestOf_of_unlocked unlocked)
  | openFile path fd _ _ _ =>
      rw [State.openFile]
      split
      · exact within
      · trivial
  | _ => exact within

/-- What is written is what the scan has found. -/
theorem handed_early (allocates : env.libc.Allocates) (enough : 0 < passes)
    (reachable : (printing env passes length).Reachable before)
    (within : Within ring limit before.logger.threadBuffers before.poll)
    (step : (printing env passes length).Step before label after) :
    ∃ handed, after.logger.writes = before.logger.writes ++ handed ∧
      ∀ write ∈ handed, write.timestamp ≤ limit := by
  have quiet (same : after.logger.writes = before.logger.writes) :
      ∃ handed, after.logger.writes = before.logger.writes ++ handed ∧
        ∀ write ∈ handed, write.timestamp ≤ limit := ⟨[], by rw [same, List.append_nil], by simp⟩
  have program := reachable_of_printing reachable
  rcases step with ⟨_, step⟩
  rcases step_writes step with same | ⟨nanotime, rfl, rfl⟩
  · exact quiet same
  · rcases Poll.step_logger env passes nanotime
      { phase := before.poll, logger := before.logger } with same |
      ⟨_, _, _, _, _, ⟨_, same⟩ | same⟩ | ⟨earliest, found, processed, scanned, isRing, ran, same⟩
    · exact quiet (congrArg Logger.writes same)
    · exact quiet ((congrArg Logger.writes same).trans rfl)
    · exact quiet ((congrArg Logger.writes same).trans rfl)
    · have phase : before.poll = .scanned earliest := scanned
      have opened := (reachable_flags program).file (by rw [phase]; exact PollPhase.noConfusion)
      rcases (reachable_chosen program earliest (by rw [phase]; rfl)).somewhere found isRing with
        ⟨_, first, rest, held, timestamp⟩
      rcases reachable.exists_run with ⟨start, labels, starts, run⟩
      rcases processed_takes allocates enough (Shown.run allocates enough starts run)
        (reachable_accounted program) opened ran first rest held with
        ⟨_, write, _, isFirst, writes⟩
      refine ⟨[write], (congrArg Logger.writes same).trans writes, ?_⟩
      intro other member
      rw [List.mem_singleton.mp member, Write.timestamp, isFirst, Entry.value_take_block,
        timestamp]
      rw [phase] at within
      exact within

/-! ## Runs -/

/-- Nothing later than the limit passes the entry. -/
theorem Lies.run {room : Nat} (allocates : env.libc.Allocates) (enough : 0 < passes)
    (reachable : (printing env passes length).Reachable state)
    (lies : Lies ring limit ((state.writtenOf ring).length + room) entry state)
    (within : Within ring limit state.logger.threadBuffers state.poll)
    (run : (printing env passes length).Run state labels final) :
    ∃ written, final.logger.writes = state.logger.writes ++ written ∧
      Unpassed ring limit room written ∧
      ((written.filter (fun write => write.ring = ring)).length ≤ room →
        Lies ring limit ((state.writtenOf ring).length + room) entry final ∧
          Within ring limit final.logger.threadBuffers final.poll) := by
  induction run with
  | nil =>
      refine ⟨[], (List.append_nil _).symm, ?_, fun _ => ⟨lies, within⟩⟩
      intro earlier write later split
      simp at split
  | @snoc labels before after label earlier taken induction =>
      rcases induction with ⟨written, writes, unpassed, waits⟩
      by_cases few : (written.filter (fun write => write.ring = ring)).length ≤ room
      · have reached := reachable.run earlier
        rcases waits few with ⟨lies, within⟩
        rcases handed_early allocates enough reached within taken with ⟨handed, more, early⟩
        refine ⟨written ++ handed, ?_, unpassed.append fun _ => early, ?_⟩
        · rw [more, writes, List.append_assoc]
        · intro fewer
          rcases lies.step allocates enough reached taken with next | ⟨passed, _⟩
          · exact ⟨next, lies.within_step within taken.2⟩
          · simp only [State.writtenOf, more, writes, List.filter_append, List.map_append,
              List.length_append, List.length_map] at passed fewer
            omega
      · rcases step_writes_isPrefix taken.2 with ⟨handed, more⟩
        refine ⟨written ++ handed, ?_, unpassed.append fun fewer => absurd fewer few, ?_⟩
        · rw [← more, writes, List.append_assoc]
        · intro fewer
          rw [List.filter_append, List.length_append] at fewer
          omega

/-- An entry lies in its buffer behind others that are not later, and no scan is going on.
Then whatever is written before it, in whatever order the threads go on, is not later. -/
theorem never_overtaken (allocates : env.libc.Allocates) (enough : 0 < passes)
    (reachable : (printing env passes length).Reachable state)
    (outside : earliestOf state.poll = none) (registered : ring ∈ state.logger.threadBuffers)
    {ahead behind : List Entry}
    (held : Holds (state.logger.rings ring) (ahead ++ entry :: behind))
    (ordered : ∀ other ∈ ahead, other.timestamp ≤ entry.timestamp)
    (run : (printing env passes length).Run state labels final) :
    ∃ written, final.logger.writes = state.logger.writes ++ written ∧
      ∀ earlier write later, written = earlier ++ write :: later →
        (earlier.filter (fun write => write.ring = ring)).length ≤ ahead.length →
          write.timestamp ≤ entry.timestamp := by
  have lies : Lies ring entry.timestamp ((state.writtenOf ring).length + ahead.length) entry
      state := ⟨registered, Nat.le_refl _, ahead, behind, held, ordered, rfl⟩
  rcases lies.run allocates enough reachable (within_of_outside outside) run with
    ⟨written, writes, unpassed, _⟩
  exact ⟨written, writes, unpassed⟩

end Overtaking

/-! ## Two threads -/

namespace Example

open Backend.Example

theorem holds_stringLogged : Holds (stringLogged.logger.rings 0) [stringEntry] := by
  have held := (holds_create 0).commit (StagingBuffer.FreeSpaceSound.create 0) stringEntry
    (by decide)
  exact held.congr (by decide +kernel) (by decide +kernel) (by decide +kernel) rfl

end Example

theorem never_overtaken_string :
    ∃ written,
      Example.bothWritten.logger.writes = Example.stringLogged.logger.writes ++ written ∧
      ∀ earlier write later, written = earlier ++ write :: later →
        (earlier.filter (fun write => write.ring = 0)).length ≤ 0 →
          write.timestamp ≤ Backend.Example.stringEntry.timestamp := by
  rcases Example.run_bothWritten with ⟨labels, run⟩
  have outside : earliestOf Example.stringLogged.poll = none := by decide +kernel
  have registered : 0 ∈ Example.stringLogged.logger.threadBuffers := by decide +kernel
  have held : Holds (Example.stringLogged.logger.rings 0)
      ([] ++ Backend.Example.stringEntry :: []) := Example.holds_stringLogged
  exact never_overtaken Decoding.Example.sample_allocates (Nat.le_refl 1)
    Example.reachable_stringLogged.of_restrict outside registered held (by simp) run

end StaticLog.Program
