import StaticLog.Program.Lines

/-! # What the staging buffers hold in the course of a run

What a step of the program does to the entries of one buffer, and what follows for the
entries that the poll thread comes across. -/

namespace StaticLog.Program

open Backend StagingBuffer Execution

variable {env : Environment} {passes : Nat} {before after state : State} {ring : Nat}
  {remaining left : List Entry} {label : Label}

/-- What a step can do to the entries of a buffer. -/
inductive Moved (allocations ring : Nat) (label : Label) (remaining : List Entry) :
    List Entry → Prop
  | same : Moved allocations ring label remaining remaining
  | created : ring = allocations → Moved allocations ring label remaining []
  | committed {thread : Nat} {entry : Entry} : label = .commit thread entry →
      Moved allocations ring label remaining (remaining ++ [entry])
  | stamped {nanotime : Nat} {entry : Entry} {later : List Entry} :
      label = .poll nanotime → remaining = entry :: later →
      Moved allocations ring label remaining (entry.stamp nanotime :: later)
  | taken {nanotime : Nat} {entry : Entry} {later : List Entry} :
      label = .poll nanotime → remaining = entry :: later →
      Moved allocations ring label remaining later

/-- A step that sets one buffer, which keeps its entries. -/
theorem holds_setRing {logger : Logger} {changed : Nat} {stagingBuffer : StagingBuffer}
    (held : Holds (logger.rings ring) remaining)
    (keeps : ∀ entries, Holds (logger.rings changed) entries → Holds stagingBuffer entries) :
    Holds ((logger.setRing changed stagingBuffer).rings ring) remaining := by
  by_cases same : ring = changed
  · subst same
    simp only [Logger.setRing, Function.update_self]
    exact keeps remaining held
  · simp only [Logger.setRing, Function.update_of_ne same]
    exact held

theorem pollStep_holds (nanotime : Nat) (held : Holds (state.logger.rings ring) remaining) :
    ∃ left, Holds ((state.pollStep env passes nanotime).logger.rings ring) left ∧
      Moved state.allocations ring (.poll nanotime) remaining left := by
  cases state.polled env passes nanotime with
  | unchanged same =>
      rw [same]
      exact ⟨remaining, held, .same⟩
  | deleted _ _ same =>
      rw [same]
      exact ⟨remaining, held, .same⟩
  | looked same =>
      rw [same]
      exact ⟨remaining, holds_setRing held fun _ held => held.peek, .same⟩
  | @finished changed processed ran same =>
      rw [same]
      by_cases here : ring = changed
      · subst here
        simp only [Logger.finish, Function.update_self]
        cases remaining with
        | nil =>
            rcases processLogBuffer_cases ran with ⟨_, _, unchanged⟩ | ⟨some, _⟩ | ⟨some, _⟩
            · rw [unchanged]
              exact ⟨[], held.peek, .same⟩
            · exact absurd held.peek_nil.1 (Nat.ne_of_gt some)
            · exact absurd held.peek_nil.1 (Nat.ne_of_gt some)
        | cons entry later =>
            rcases held.processed ran with ⟨_, stays⟩ | ⟨_, consumed⟩
            · exact ⟨_, stays, .stamped rfl rfl⟩
            · exact ⟨_, consumed, .taken rfl rfl⟩
      · simp only [Logger.finish, Function.update_of_ne here]
        exact ⟨remaining, held, .same⟩

theorem commit_holds (accounted : Accounted state) {thread owned nbytes : Nat} (entry : Entry)
    (here : state.At thread (.reserved nbytes) (some owned))
    (sized : entry.record.entrySize = nbytes)
    (held : Holds (state.logger.rings ring) remaining) :
    ∃ left, Holds ((state.commit thread owned entry).logger.rings ring) left ∧
      Moved state.allocations ring (.commit thread entry) remaining left := by
  by_cases same : ring = owned
  · subst same
    have room := accounted.granted thread nbytes ring here.1 here.2
    refine ⟨remaining ++ [entry], ?_, .committed rfl⟩
    simp only [State.commit, State.setRing, Logger.setRing, Function.update_self]
    exact held.commit (accounted.space ring) entry (sized ▸ room)
  · refine ⟨remaining, ?_, .same⟩
    simp only [State.commit, State.setRing, Logger.setRing, Function.update_of_ne same]
    exact held

theorem step_holds (accounted : Accounted before) (step : Step env passes before label after)
    (held : Holds (before.logger.rings ring) remaining) :
    ∃ left, Holds (after.logger.rings ring) left ∧
      Moved before.allocations ring label remaining left := by
  have control := step.control
  cases step with
  | preallocate _ _ => exact ⟨remaining, held, .same⟩
  | firstLog _ _ => exact ⟨remaining, held, .same⟩
  | log _ => exact ⟨remaining, held, .same⟩
  | @create thread bufferId nbytes _ =>
      by_cases new : ring = before.allocations
      · subst new
        rw [State.create_rings_self]
        exact ⟨[], holds_create bufferId, .created rfl⟩
      · rw [State.create_rings_of_ne new]
        exact ⟨remaining, held, .same⟩
  | register _ _ => exact ⟨remaining, held, .same⟩
  | reserve _ =>
      refine ⟨remaining, holds_setRing held ?_, .same⟩
      intro entries held
      exact held.congr rfl rfl rfl rfl
  | @retry thread changed nbytes _ =>
      exact ⟨remaining, holds_setRing held fun _ held => held.reservePass nbytes, .same⟩
  | commit entry here sized => exact commit_holds accounted entry here sized held
  | destroy _ _ =>
      refine ⟨remaining, holds_setRing held ?_, .same⟩
      intro entries held
      exact held.congr rfl rfl rfl rfl
  | poll nanotime _ => exact pollStep_holds nanotime held
  | _ =>
      rw [(control id).rings]
      exact ⟨remaining, held, .same⟩

/-! ## The times of the entries -/

/-- The clock stays below `UINT64_MAX`. -/
def Label.Timely : Label → Prop
  | .commit _ entry => entry.timestamp < uint64Max
  | .poll nanotime => nanotime < uint64Max
  | _ => True

/-- The entries that the buffers hold have times that the poll thread can tell from no
time. -/
def State.Timely (state : State) : Prop :=
  ∀ ring, ∃ remaining, Holds (state.logger.rings ring) remaining ∧
    ∀ entry ∈ remaining, entry.timestamp < uint64Max

theorem State.Timely.step (timely : before.Timely) (accounted : Accounted before)
    (allowed : label.Timely) (step : Step env passes before label after) : after.Timely := by
  intro ring
  rcases timely ring with ⟨remaining, held, small⟩
  rcases step_holds accounted step held with ⟨left, held, moved⟩
  refine ⟨left, held, ?_⟩
  cases moved with
  | same => exact small
  | created _ => simp
  | committed isCommit =>
      subst isCommit
      intro entry member
      rcases List.mem_append.mp member with member | member
      · exact small entry member
      · rw [List.mem_singleton.mp member]
        exact allowed
  | stamped isPoll whole =>
      subst isPoll whole
      intro entry member
      rcases List.mem_cons.mp member with rfl | member
      · exact (Nat.mod_le _ _).trans_lt allowed
      · exact small entry (List.mem_cons_of_mem _ member)
  | taken _ whole =>
      subst whole
      intro entry member
      exact small entry (List.mem_cons_of_mem _ member)

/-! ## The entry that the scan has found -/

/-- What the scan has found so far. -/
def earliestOf : PollPhase → Option Earliest
  | .scanning _ earliest => some earliest
  | .scanned earliest => some earliest
  | _ => none

/-- If the scan has found no buffer, it has found no time, and the buffer that it has found
holds an entry of the time that it has found. -/
structure Found (logger : Logger) (allocations : Nat) (earliest : Earliest) : Prop where
  nowhere : earliest.ring = none → earliest.timestamp = uint64Max
  somewhere : ∀ ring, earliest.ring = some ring → ring < allocations ∧
    ∃ entry later, Holds (logger.rings ring) (entry :: later) ∧
      entry.timestamp = earliest.timestamp

def State.Chosen (state : State) : Prop :=
  ∀ earliest, earliestOf state.poll = some earliest →
    Found state.logger state.allocations earliest

theorem Found.nothing (logger : Logger) (allocations : Nat) :
    Found logger allocations { timestamp := uint64Max, ring := none } where
  nowhere := fun _ => rfl
  somewhere := fun _ isRing => by cases isRing

/-- Buffers may change as long as their first entries stay. -/
theorem Found.keep {logger changed : Logger} {allocations more : Nat} {earliest : Earliest}
    (found : Found logger allocations earliest) (fresh : allocations ≤ more)
    (keeps : ∀ ring < allocations, ∀ entry later, Holds (logger.rings ring) (entry :: later) →
      ∃ later, Holds (changed.rings ring) (entry :: later)) :
    Found changed more earliest where
  nowhere := found.nowhere
  somewhere := by
    intro ring isRing
    rcases found.somewhere ring isRing with ⟨older, entry, later, held, timestamp⟩
    rcases keeps ring older entry later held with ⟨others, held⟩
    exact ⟨older.trans_le fresh, entry, others, held, timestamp⟩

/-- A look into a buffer. -/
theorem Found.look {logger : Logger} {allocations : Nat} {earliest : Earliest}
    (found : Found logger allocations earliest) {ring : Nat} (older : ring < allocations)
    {remaining : List Entry} (held : Holds (logger.rings ring) remaining) :
    Found (logger.setRing ring (logger.rings ring).peek.1) allocations
      (earliest.compare ring (logger.rings ring).peek) := by
  have kept : Found (logger.setRing ring (logger.rings ring).peek.1) allocations earliest := by
    apply found.keep (Nat.le_refl _)
    intro other _ entry later otherHeld
    exact ⟨later, holds_setRing otherHeld fun _ held => held.peek⟩
  rw [Earliest.compare]
  split
  · rename_i earlier
    constructor
    · intro nowhere
      cases nowhere
    · intro other isRing
      cases isRing
      cases remaining with
      | nil => exact absurd held.peek_nil.1 (Nat.ne_of_gt earlier.1)
      | cons entry later =>
          refine ⟨older, entry, later, holds_setRing held fun _ held => held.peek, ?_⟩
          exact (congrArg LogEntry.timestamp held.peek_cons.2.frontEntry_eq).symm
  · exact kept

/-- A step of the poll thread, which knows what it has found. -/
theorem found_step {poll : Poll} {allocations nanotime : Nat}
    (found : ∀ earliest, earliestOf poll.phase = some earliest →
      Found poll.logger allocations earliest)
    (registered : ∀ ring ∈ poll.logger.threadBuffers, ring < allocations)
    (holds : ∀ ring, ∃ remaining, Holds (poll.logger.rings ring) remaining) :
    ∀ earliest, earliestOf (poll.step env passes nanotime).phase = some earliest →
      Found (poll.step env passes nanotime).logger allocations earliest := by
  rcases poll with ⟨phase, logger⟩
  intro earliest isEarliest
  cases phase with
  | starting => cases isEarliest
  | guard =>
      simp only [Poll.step] at isEarliest
      split at isEarliest
      · split at isEarliest <;> cases isEarliest
      · cases isEarliest
  | unlocked =>
      cases isEarliest
      exact Found.nothing logger allocations
  | scanning i before =>
      have before := found before rfl
      simp only [Poll.step] at isEarliest ⊢
      rcases scanPass_cases i _ logger with ⟨_, pass⟩ | ⟨ring, member, pass⟩
      · rw [pass] at isEarliest ⊢
        cases isEarliest
        exact before
      · rcases pass with ⟨_, deleted, goesOn⟩ | ⟨_, pass⟩
        · rw [deleted]
          rcases goesOn with goesOn | ⟨goesOn, _⟩
          all_goals
            rw [goesOn] at isEarliest
            cases isEarliest
            exact before.keep (Nat.le_refl _) fun _ _ _ later held => ⟨later, held⟩
        · rw [pass] at isEarliest ⊢
          cases isEarliest
          rcases holds ring with ⟨remaining, held⟩
          exact before.look (registered ring (List.mem_of_getElem? member)) held
  | scanned before =>
      have before := found before rfl
      simp only [Poll.step] at isEarliest ⊢
      split at isEarliest
      · rename_i some
        rw [if_pos some]
        simp only [processEarliest] at isEarliest ⊢
        split at isEarliest
        · cases isEarliest
          exact before
        · split at isEarliest
          · cases isEarliest
            exact before
          · cases isEarliest
      · cases isEarliest
  | waiting => cases isEarliest
  | exited => cases isEarliest

theorem State.Chosen.step (chosen : before.Chosen) (accounted : Accounted before)
    (ownership : Ownership before) (step : Step env passes before label after) :
    after.Chosen := by
  have balanced (ring : Nat) : ∃ remaining, Holds (before.logger.rings ring) remaining := by
    rcases accounted.balanced ring with ⟨remaining, held, _⟩
    exact ⟨remaining, held⟩
  -- A step of another thread leaves the entries where they are.
  have others (poll : after.poll = before.poll) (fresh : before.allocations ≤ after.allocations)
      (notPoll : ∀ nanotime, label ≠ .poll nanotime) : after.Chosen := by
    intro earliest isEarliest
    rw [poll] at isEarliest
    refine (chosen earliest isEarliest).keep fresh ?_
    intro ring older entry later held
    rcases step_holds accounted step held with ⟨left, held, moved⟩
    cases moved with
    | same => exact ⟨later, held⟩
    | created new => exact absurd new (Nat.ne_of_lt older)
    | committed _ => exact ⟨_, held⟩
    | stamped isPoll _ => exact absurd isPoll (notPoll _)
    | taken isPoll _ => exact absurd isPoll (notPoll _)
  cases step with
  | poll nanotime _ => exact found_step chosen ownership.registered balanced
  | create _ => exact others rfl (Nat.le_succ _) (by simp)
  | openFile path fd _ exited _ =>
      intro earliest isEarliest
      rw [State.openFile] at isEarliest
      split at isEarliest
      · rw [exited] at isEarliest
        cases isEarliest
      · cases isEarliest
  | _ => exact others rfl (Nat.le_refl _) (by simp)

theorem reachable_chosen (reachable : (system env passes).Reachable state) : state.Chosen := by
  induction reachable with
  | initial starts =>
      rcases starts with ⟨files, fd, output, _, rfl⟩
      intro earliest isEarliest
      cases isEarliest
  | step earlier taken induction =>
      exact induction.step (reachable_accounted earlier) (reachable_ownership earlier) taken

/-! ## Buffers that are not registered -/

/-- All that was committed to a buffer that is not registered was written. -/
def State.Settled (state : State) : Prop :=
  ∀ ring ∉ state.logger.threadBuffers, state.writtenOf ring = state.committedTo ring

theorem State.Settled.quiet (settled : before.Settled)
    (threadBuffers : ∀ ring ∈ before.logger.threadBuffers, ring ∈ after.logger.threadBuffers)
    (writes : after.logger.writes = before.logger.writes)
    (commits : after.commits = before.commits) : after.Settled := by
  intro ring unregistered
  have same := settled ring fun registered => unregistered (threadBuffers ring registered)
  rw [State.writtenOf, State.committedTo, writes, commits]
  exact same

theorem State.Settled.commit (settled : state.Settled) {thread owned : Nat} {entry : Entry}
    (registered : owned ∈ state.logger.threadBuffers) :
    (state.commit thread owned entry).Settled := by
  intro ring unregistered
  have different : owned ≠ ring := by
    rintro rfl
    exact unregistered registered
  have committed : (state.commit thread owned entry).committedTo ring =
      state.committedTo ring := by
    simp [State.committedTo, State.commit, different]
  rw [committed]
  exact settled ring unregistered

/-- Nothing is left of a buffer when all that was committed to it was written. -/
theorem Accounted.eq_nil (accounted : Accounted state)
    (written : state.writtenOf ring = state.committedTo ring) :
    Holds (state.logger.rings ring) [] := by
  rcases accounted.balanced ring with ⟨remaining, held, balance⟩
  rw [written, List.append_right_eq_self, List.map_eq_nil_iff] at balance
  rw [balance] at held
  exact held

theorem State.Settled.pollStep (settled : state.Settled) (accounted : Accounted state)
    (nanotime : Nat) : (state.pollStep env passes nanotime).Settled := by
  cases state.polled env passes nanotime with
  | unchanged same =>
      exact settled.quiet (by rw [same]; exact fun _ member => member) (by rw [same]) rfl
  | looked same =>
      exact settled.quiet (by rw [same]; exact fun _ member => member) (by rw [same]; rfl) rfl
  | @deleted i deleted found deletable same =>
      intro ring unregistered
      have written : (state.pollStep env passes nanotime).writtenOf ring =
          state.writtenOf ring := by
        rw [State.writtenOf, same]
        rfl
      rw [written]
      by_cases here : ring = deleted
      · subst here
        rcases accounted.balanced ring with ⟨remaining, held, balance⟩
        rw [held.eq_nil_of_checkCanDelete deletable, List.map_nil, List.append_nil] at balance
        exact balance
      · apply settled ring
        intro registered
        apply unregistered
        rcases split_at found with ⟨front, behind, split, erased, _⟩
        rw [same, Logger.deleteBuffer, erased]
        rw [split] at registered
        simp only [List.mem_append, List.mem_cons, here, false_or] at registered ⊢
        exact registered
  | @finished changed processed ran same =>
      intro ring unregistered
      have before : ring ∉ state.logger.threadBuffers := by
        rw [same] at unregistered
        exact unregistered
      have all := settled ring before
      have written : (state.pollStep env passes nanotime).writtenOf ring =
          state.writtenOf ring := by
        rw [State.writtenOf, same, State.writtenOf]
        by_cases here : ring = changed
        · subst here
          have nothing : processed.written = none := by
            have held := accounted.eq_nil all
            rcases processLogBuffer_cases ran with ⟨_, none, _⟩ | ⟨some, _⟩ | ⟨some, _⟩
            · exact none
            · exact absurd held.peek_nil.1 (Nat.ne_of_gt some)
            · exact absurd held.peek_nil.1 (Nat.ne_of_gt some)
          simp [Logger.finish, nothing]
        · have different : changed ≠ ring := fun equal => here equal.symm
          cases handed : processed.written with
          | none => simp [Logger.finish, handed]
          | some line => simp [Logger.finish, handed, different]
      rw [written]
      exact all

theorem State.Settled.control (settled : before.Settled) (same : before.SameEntries after) :
    after.Settled := by
  apply settled.quiet _ same.writes same.commits
  rw [same.threadBuffers]
  exact fun _ member => member

theorem State.Settled.step (settled : before.Settled) (accounted : Accounted before)
    (alive : Alive before) (step : Step env passes before label after) : after.Settled := by
  have control := step.control
  have unchanged : ∀ ring ∈ before.logger.threadBuffers,
      ring ∈ before.logger.threadBuffers := fun _ member => member
  cases step with
  | preallocate _ _ => exact settled.quiet unchanged rfl rfl
  | firstLog _ _ => exact settled.quiet unchanged rfl rfl
  | log _ => exact settled.quiet unchanged rfl rfl
  | create _ => exact settled.quiet unchanged rfl rfl
  | register _ _ => exact settled.quiet (fun _ => List.mem_append_left _) rfl rfl
  | reserve _ => exact settled.quiet unchanged rfl rfl
  | retry _ => exact settled.quiet unchanged rfl rfl
  | @commit thread owned _ entry here _ =>
      have living : (before.threads thread).destroyerRun = false :=
        alive.living (by simp [here.1])
      exact settled.commit (alive.registered thread owned here.2 living (by simp [here.1]))
  | destroy _ _ => exact settled.quiet unchanged rfl rfl
  | poll nanotime _ => exact settled.pollStep accounted nanotime
  | _ => exact settled.control (control id)

end StaticLog.Program
