import StaticLog.Program.Ownership

/-! # What becomes of the committed entries

In every state of every run, what was written of a staging buffer and what the buffer
still holds are the entries that were committed to it, in their order. An entry whose
processing failed has another time than at its commit, so entries are compared without
their times. -/

namespace StaticLog.Program

open Backend StagingBuffer Execution

variable {env : Environment} {passes : Nat}

/-- The entries that were committed to the buffer. -/
def State.committedTo (state : State) (ring : Nat) : List (List UInt8) :=
  (state.commits.filter (fun commit => commit.ring = ring)).map
    (fun commit => commit.entry.body)

/-- The entries of the buffer that were handed to `write`. -/
def State.writtenOf (state : State) (ring : Nat) : List (List UInt8) :=
  (state.logger.writes.filter (fun write => write.ring = ring)).map
    (fun write => write.entry.drop 8)

/-- The buffer holds what is committed and not written. -/
def State.Balanced (state : State) (ring : Nat) : Prop :=
  ∃ remaining, Holds (state.logger.rings ring) remaining ∧
    state.writtenOf ring ++ remaining.map Entry.body = state.committedTo ring

structure Accounted (state : State) : Prop where
  fresh : ∀ commit ∈ state.commits, commit.ring < state.allocations
  balanced : ∀ ring, state.Balanced ring
  space : ∀ ring, FreeSpaceSound (state.logger.rings ring)
  granted : ∀ thread nbytes ring, (state.threads thread).phase = .reserved nbytes →
    state.Owns thread ring → nbytes < (state.logger.rings ring).minFreeSpace

namespace Accounted

variable {before after state : State}

theorem initial (files : Int → Option File) (fd : Int) (output : Decoding.Output) :
    Accounted (initial files fd output) where
  fresh := by simp [Program.initial]
  balanced := fun _ => ⟨[], holds_create 0, rfl⟩
  space := fun _ => FreeSpaceSound.create 0
  granted := by
    intro thread nbytes ring reserved
    cases reserved

/-- The step of a thread that changes its own buffer and commits nothing. -/
theorem change (accounted : Accounted before) (ownership : Ownership before)
    {thread ring : Nat} {stagingBuffer : StagingBuffer} (owns : before.Owns thread ring)
    (logger : after.logger = before.logger.setRing ring stagingBuffer)
    (commits : after.commits = before.commits)
    (allocations : after.allocations = before.allocations)
    (owners : ∀ other, (after.threads other).stagingBuffer =
      (before.threads other).stagingBuffer)
    (holds : ∀ remaining, Holds (before.logger.rings ring) remaining →
      Holds stagingBuffer remaining)
    (space : FreeSpaceSound stagingBuffer)
    (granted : ∀ other nbytes, (after.threads other).phase = .reserved nbytes →
      other = thread ∧ nbytes < stagingBuffer.minFreeSpace ∨
        other ≠ thread ∧ (before.threads other).phase = .reserved nbytes) :
    Accounted after := by
  have itself : after.logger.rings ring = stagingBuffer := by
    simp [logger, Logger.setRing]
  have others {other : Nat} (different : other ≠ ring) :
      after.logger.rings other = before.logger.rings other := by
    simp [logger, Logger.setRing, Function.update_of_ne different]
  have writes : after.logger.writes = before.logger.writes := by
    rw [logger, Logger.setRing]
  constructor
  · rw [commits, allocations]
    exact accounted.fresh
  · intro other
    rcases accounted.balanced other with ⟨remaining, held, balance⟩
    refine ⟨remaining, ?_, ?_⟩
    · by_cases same : other = ring
      · subst same
        rw [itself]
        exact holds remaining held
      · rw [others same]
        exact held
    · simp only [State.writtenOf, State.committedTo, writes, commits]
      exact balance
  · intro other
    by_cases same : other = ring
    · rw [same, itself]
      exact space
    · rw [others same]
      exact accounted.space other
  · intro other nbytes owned reserved ownsOther
    rw [State.Owns, owners] at ownsOther
    rcases granted other nbytes reserved with ⟨rfl, fits⟩ | ⟨different, reserved⟩
    · have same : owned = ring := Option.some.inj (ownsOther.symm.trans owns)
      rw [same, itself]
      exact fits
    · have notSame : owned ≠ ring := by
        intro equal
        subst equal
        exact different (ownership.unique other thread owned ownsOther owns)
      rw [others notSame]
      exact accounted.granted other nbytes owned reserved ownsOther

/-- A step that leaves the buffers and the histories as they are. -/
theorem quiet (accounted : Accounted before)
    (rings : after.logger.rings = before.logger.rings)
    (writes : after.logger.writes = before.logger.writes)
    (commits : after.commits = before.commits)
    (allocations : after.allocations = before.allocations)
    (owners : ∀ other, (after.threads other).stagingBuffer =
      (before.threads other).stagingBuffer)
    (granted : ∀ other nbytes, (after.threads other).phase = .reserved nbytes →
      (before.threads other).phase = .reserved nbytes) : Accounted after := by
  constructor
  · rw [commits, allocations]
    exact accounted.fresh
  · intro ring
    rw [State.Balanced, State.writtenOf, State.committedTo, rings, writes, commits]
    exact accounted.balanced ring
  · rw [rings]
    exact accounted.space
  · intro thread nbytes ring reserved owns
    rw [State.Owns, owners] at owns
    rw [rings]
    exact accounted.granted thread nbytes ring (granted thread nbytes reserved) owns

theorem committedTo_new (accounted : Accounted state) :
    state.committedTo state.allocations = [] := by
  rw [State.committedTo, List.map_eq_nil_iff, List.filter_eq_nil_iff]
  intro commit member same
  have old := accounted.fresh commit member
  rw [of_decide_eq_true same] at old
  exact Nat.lt_irrefl _ old

theorem create (accounted : Accounted state) (ownership : Ownership state)
    (thread bufferId : Nat) (nbytes : Option Nat) :
    Accounted (state.create thread bufferId nbytes) := by
  constructor
  · intro commit member
    have old := accounted.fresh commit member
    simp only [State.create]
    omega
  · intro ring
    rcases accounted.balanced ring with ⟨remaining, held, balance⟩
    by_cases same : ring = state.allocations
    · subst same
      refine ⟨[], ?_, ?_⟩
      · rw [State.create_rings_self]
        exact holds_create bufferId
      · rw [accounted.committedTo_new, List.append_eq_nil_iff] at balance
        have nothing : state.writtenOf state.allocations ++ [] =
            state.committedTo state.allocations := by
          rw [accounted.committedTo_new, balance.1]
          rfl
        exact nothing
    · refine ⟨remaining, ?_, balance⟩
      rw [State.create_rings_of_ne same]
      exact held
  · intro ring
    by_cases same : ring = state.allocations
    · rw [same, State.create_rings_self]
      exact FreeSpaceSound.create bufferId
    · rw [State.create_rings_of_ne same]
      exact accounted.space ring
  · intro other reservedBytes ring reserved owns
    by_cases same : other = thread
    · rw [same, State.create_threads_self] at reserved
      cases reserved
    · rw [State.create_threads_of_ne same] at reserved
      rw [State.Owns, State.create_threads_of_ne same] at owns
      rw [State.create_rings_of_ne (Nat.ne_of_lt (ownership.fresh other ring owns))]
      exact accounted.granted other reservedBytes ring reserved owns

theorem commit (accounted : Accounted state) (ownership : Ownership state)
    {thread ring nbytes : Nat} {entry : Entry}
    (here : state.At thread (.reserved nbytes) (some ring))
    (sized : entry.record.entrySize = nbytes) :
    Accounted (state.commit thread ring entry) := by
  have room := accounted.granted thread nbytes ring here.1 here.2
  rw [← sized] at room
  have threads : (state.commit thread ring entry).threads =
      (state.enter thread .idle).threads := rfl
  have itself : (state.commit thread ring entry).logger.rings ring =
      ((state.logger.rings ring).store entry.block).finishReservation
        entry.record.entrySize := by
    simp [State.commit, State.setRing, Logger.setRing]
  have others {other : Nat} (different : other ≠ ring) :
      (state.commit thread ring entry).logger.rings other = state.logger.rings other := by
    simp [State.commit, State.setRing, Logger.setRing, State.enter,
      Function.update_of_ne different]
  have commits (other : Nat) : (state.commit thread ring entry).committedTo other =
      state.committedTo other ++ if other = ring then [entry.body] else [] := by
    by_cases same : other = ring
    · subst same
      simp [State.committedTo, State.commit]
    · have different : ring ≠ other := fun equal => same equal.symm
      simp [State.committedTo, State.commit, same, different]
  constructor
  · intro commit member
    simp only [State.commit, List.mem_append, List.mem_singleton] at member
    rcases member with member | rfl
    · exact accounted.fresh commit member
    · exact ownership.fresh thread ring here.2
  · intro other
    rcases accounted.balanced other with ⟨remaining, held, balance⟩
    by_cases same : other = ring
    · subst same
      refine ⟨remaining ++ [entry], ?_, ?_⟩
      · rw [itself]
        exact held.commit (accounted.space other) entry room
      · rw [commits, if_pos rfl, ← balance, List.map_append, List.append_assoc]
        rfl
    · refine ⟨remaining, ?_, ?_⟩
      · rw [others same]
        exact held
      · rw [commits, if_neg same, List.append_nil]
        exact balance
  · intro other
    by_cases same : other = ring
    · rw [same, itself]
      have stored : FreeSpaceSound ((state.logger.rings ring).store entry.block) :=
        (accounted.space ring).congr rfl rfl rfl
      exact stored.finishReservation room
    · rw [others same]
      exact accounted.space other
  · intro other reservedBytes owned reserved owns
    rw [threads] at reserved
    simp only [State.Owns, threads, State.enter_stagingBuffer] at owns
    rcases State.enter_phase reserved with ⟨_, idle⟩ | ⟨different, reserved⟩
    · cases idle
    · have notSame : owned ≠ ring := by
        intro equal
        subst equal
        exact different (ownership.unique other thread owned owns here.2)
      rw [others notSame]
      exact accounted.granted other reservedBytes owned reserved owns

/-- The poll thread changes one buffer, and possibly writes an entry of it. -/
theorem consume (accounted : Accounted before) {ring : Nat}
    {stagingBuffer : StagingBuffer} (threads : after.threads = before.threads)
    (commits : after.commits = before.commits)
    (allocations : after.allocations = before.allocations)
    (rings : after.logger.rings =
      Function.update before.logger.rings ring stagingBuffer)
    (writtenOf : ∀ other ≠ ring, after.writtenOf other = before.writtenOf other)
    (balanced : after.Balanced ring) (space : FreeSpaceSound stagingBuffer)
    (minFreeSpace : stagingBuffer.minFreeSpace =
      (before.logger.rings ring).minFreeSpace) : Accounted after := by
  have others {other : Nat} (different : other ≠ ring) :
      after.logger.rings other = before.logger.rings other := by
    rw [rings, Function.update_of_ne different]
  have itself : after.logger.rings ring = stagingBuffer := by
    rw [rings, Function.update_self]
  constructor
  · rw [commits, allocations]
    exact accounted.fresh
  · intro other
    by_cases same : other = ring
    · subst same
      exact balanced
    · rw [State.Balanced, others same, writtenOf other same, State.committedTo, commits]
      exact accounted.balanced other
  · intro other
    by_cases same : other = ring
    · rw [same, itself]
      exact space
    · rw [others same]
      exact accounted.space other
  · intro thread nbytes other reserved owns
    rw [threads] at reserved
    rw [State.Owns, threads] at owns
    have old := accounted.granted thread nbytes other reserved owns
    by_cases same : other = ring
    · subst same
      rw [itself, minFreeSpace]
      exact old
    · rw [others same]
      exact old

/-- A processed entry moves from what the buffer holds to what was written, or stays
where it is. -/
theorem finish (accounted : Accounted state) {nanotime ring : Nat}
    {processed : Processed}
    (ran : processLogBuffer env passes nanotime state.logger.outfd
      (state.logger.rings ring) state.logger.output = some processed)
    (threads : after.threads = state.threads) (commits : after.commits = state.commits)
    (allocations : after.allocations = state.allocations)
    (finished : after.logger = state.logger.finish ring processed) : Accounted after := by
  rcases accounted.balanced ring with ⟨remaining, held, balance⟩
  have committed : after.committedTo ring = state.committedTo ring := by
    rw [State.committedTo, commits]
    rfl
  have itself : after.logger.rings ring = processed.stagingBuffer := by
    simp [finished, Logger.finish]
  have space := held.processed_space (accounted.space ring) ran
  apply accounted.consume threads commits allocations (by rw [finished]; rfl) ?_ ?_ space
    (processed_frame ran).2
  · intro other different
    have notSame : ring ≠ other := fun equal => different equal.symm
    cases written : processed.written with
    | none => simp [State.writtenOf, finished, Logger.finish, written]
    | some line => simp [State.writtenOf, finished, Logger.finish, written, notSame]
  · cases remaining with
    | nil =>
        rcases processLogBuffer_cases ran with ⟨_, none, same⟩ | ⟨some, _⟩ | ⟨some, _⟩
        · refine ⟨[], ?_, ?_⟩
          · rw [itself, same]
            exact held.peek
          · rw [committed, ← balance]
            simp [State.writtenOf, finished, Logger.finish, none]
        · exact absurd held.peek_nil.1 (Nat.ne_of_gt some)
        · exact absurd held.peek_nil.1 (Nat.ne_of_gt some)
    | cons entry later =>
        rcases held.processed ran with ⟨none, stays⟩ | ⟨⟨line, some⟩, consumed⟩
        · refine ⟨entry.stamp nanotime :: later, ?_, ?_⟩
          · rw [itself]
            exact stays
          · rw [committed, ← balance]
            simp [State.writtenOf, finished, Logger.finish, none]
        · refine ⟨later, ?_, ?_⟩
          · rw [itself]
            exact consumed
          · rw [committed, ← balance]
            simp [State.writtenOf, finished, Logger.finish, some,
              held.peek_cons.2.slice_eq, Entry.body]

theorem pollStep (accounted : Accounted state) (nanotime : Nat) :
    Accounted (state.pollStep env passes nanotime) := by
  cases state.polled env passes nanotime with
  | unchanged same =>
      exact accounted.quiet (by rw [same]) (by rw [same]) rfl rfl (fun _ => rfl)
        (fun _ _ reserved => reserved)
  | deleted _ _ same =>
      exact accounted.quiet (by rw [same]; rfl) (by rw [same]; rfl) rfl rfl
        (fun _ => rfl) (fun _ _ reserved => reserved)
  | @looked ring same =>
      rcases accounted.balanced ring with ⟨remaining, held, balance⟩
      refine accounted.consume (by rfl) (by rfl) (by rfl) (by rw [same]; rfl) ?_ ?_
        (accounted.space ring).peek (peek_minFreeSpace _)
      · intro other _
        rw [State.writtenOf, same]
        rfl
      · refine ⟨remaining, ?_, ?_⟩
        · rw [same]
          simp only [Logger.setRing, Function.update_self]
          exact held.peek
        · rw [State.writtenOf, same]
          exact balance
  | finished ran finished => exact accounted.finish ran rfl rfl rfl finished

/-- A thread moves on in its code, and changes nothing else. -/
theorem enter (accounted : Accounted before) {thread : Nat} {phase : ThreadPhase}
    (notReserved : ∀ nbytes, phase ≠ .reserved nbytes)
    (threads : after.threads = (before.enter thread phase).threads)
    (rings : after.logger.rings = before.logger.rings)
    (writes : after.logger.writes = before.logger.writes)
    (commits : after.commits = before.commits)
    (allocations : after.allocations = before.allocations) : Accounted after := by
  apply accounted.quiet rings writes commits allocations
  · intro other
    rw [threads, State.enter_stagingBuffer]
  · intro other nbytes reserved
    rw [threads] at reserved
    rcases State.enter_phase reserved with ⟨_, here⟩ | ⟨_, there⟩
    · exact absurd here (notReserved nbytes)
    · exact there

/-- A thread tries to reserve space. The reservation was granted if the thread has got
so far. -/
theorem reserve (accounted : Accounted before) (ownership : Ownership before)
    {thread ring : Nat} (nbytes : Nat) {stagingBuffer : StagingBuffer}
    (owns : before.Owns thread ring)
    (holds : ∀ remaining, Holds (before.logger.rings ring) remaining →
      Holds stagingBuffer remaining) (space : FreeSpaceSound stagingBuffer) :
    Accounted ((before.enter thread (State.granted nbytes stagingBuffer)).setRing ring
      stagingBuffer) := by
  refine accounted.change ownership owns rfl rfl rfl State.enter_stagingBuffer holds
    space ?_
  intro other reservedBytes reserved
  rcases State.enter_phase reserved with ⟨same, here⟩ | there
  · refine .inl ⟨same, ?_⟩
    rcases State.granted_cases nbytes stagingBuffer with ⟨fits, granted⟩ | granted
    · rw [granted] at here
      rw [← ThreadPhase.reserved.inj here]
      exact fits
    · rw [granted] at here
      cases here
  · exact .inr there

theorem destroy (accounted : Accounted state) (ownership : Ownership state)
    {thread ring : Nat} (here : state.At thread .idle (some ring)) :
    Accounted (state.destroy thread ring) := by
  let marked : StagingBuffer :=
    { state.logger.rings ring with shouldDeallocate := true }
  have logger : (state.destroy thread ring).logger = state.logger.setRing ring marked := rfl
  have space : FreeSpaceSound marked := (accounted.space ring).congr rfl rfl rfl
  refine accounted.change ownership here.2 logger rfl rfl
    (State.destroy_stagingBuffer ring) ?_ space ?_
  · intro remaining held
    exact held.congr rfl rfl rfl rfl
  · intro other nbytes reserved
    rw [State.destroy_phase] at reserved
    refine .inr ⟨?_, reserved⟩
    intro same
    rw [same, here.1] at reserved
    cases reserved

theorem control (accounted : Accounted before) (same : before.SameEntries after) :
    Accounted after := by
  apply accounted.quiet same.rings same.writes same.commits same.allocations
  · intro thread
    rw [same.threads]
  · intro thread nbytes reserved
    rw [same.threads] at reserved
    exact reserved

theorem step (accounted : Accounted before) (ownership : Ownership before)
    {label : Label} (step : Step env passes before label after) : Accounted after := by
  have control := step.control
  cases step with
  | preallocate _ _ => exact accounted.enter (by simp) rfl rfl rfl rfl rfl
  | firstLog _ _ => exact accounted.enter (by simp) rfl rfl rfl rfl rfl
  | log _ => exact accounted.enter (by simp) rfl rfl rfl rfl rfl
  | create _ => exact accounted.create ownership _ _ _
  | @register thread ring nbytes _ _ =>
      have notReserved (reservedBytes : Nat) :
          nbytes.elim .idle .entering ≠ ThreadPhase.reserved reservedBytes := by
        cases nbytes <;> simp
      exact accounted.enter notReserved rfl rfl rfl rfl rfl
  | @reserve thread ring nbytes here =>
      have space : FreeSpaceSound (before.logger.rings ring).countAllocation :=
        (accounted.space ring).congr rfl rfl rfl
      apply accounted.reserve ownership nbytes here.2 ?_ space
      intro remaining held
      exact held.congr rfl rfl rfl rfl
  | @retry thread ring nbytes here =>
      rcases accounted.balanced ring with ⟨_, held, _⟩
      exact accounted.reserve ownership nbytes here.2
        (fun _ held => held.reservePass nbytes) (held.freeSpaceSound nbytes)
  | commit entry here sized => exact accounted.commit ownership here sized
  | destroy here _ => exact accounted.destroy ownership here
  | poll nanotime _ => exact accounted.pollStep nanotime
  | _ => exact accounted.control (control id)

end Accounted

theorem reachable_accounted {state : State}
    (reachable : (system env passes).Reachable state) : Accounted state := by
  have both : Ownership state ∧ Accounted state := by
    apply reachable.invariant (fun state => Ownership state ∧ Accounted state)
    · intro state starts
      rcases starts with ⟨files, fd, output, _, rfl⟩
      exact ⟨Ownership.initial files fd output, Accounted.initial files fd output⟩
    · intro before label after both step
      exact ⟨both.1.step step, both.2.step both.1 step⟩
  exact both.2

/-- What was written of a buffer is a leading part of what was committed to it: no entry
is written twice, and none before an older one. -/
theorem writtenOf_isPrefix {state : State}
    (reachable : (system env passes).Reachable state) (ring : Nat) :
    state.writtenOf ring <+: state.committedTo ring := by
  rcases (reachable_accounted reachable).balanced ring with ⟨remaining, _, balance⟩
  exact ⟨_, balance⟩

end StaticLog.Program
