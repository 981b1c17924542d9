import StaticLog.Program.Completion

/-! # What becomes of the staging buffers

Each staging buffer is created by one thread, registered once and deleted at most once.
When the logger has been stopped, all of them are deleted. -/

namespace StaticLog.Program

open Backend Execution

section Tracked

variable {env : Environment} {passes : Nat} {before after state : State}

/-- The thread that has created the buffer is about to register it. -/
def State.Registering (state : State) (ring : Nat) : Prop :=
  ∃ thread nbytes, state.At thread (.created nbytes) (some ring)

/-- No buffer is lost, and none is deleted twice. -/
structure Tracked (state : State) : Prop where
  covered : ∀ ring < state.allocations,
    ring ∈ state.logger.threadBuffers ∨ ring ∈ state.logger.deleted ∨
      state.Registering ring
  once : state.logger.deleted.Nodup

namespace Tracked

theorem initial (files : Int → Option File) (fd : Int) (output : Decoding.Output) :
    Tracked (initial files fd output) where
  covered := fun ring created => absurd created (Nat.not_lt_zero ring)
  once := List.nodup_nil

/-- A step that neither registers nor deletes. -/
theorem quiet (tracked : Tracked before)
    (threadBuffers : after.logger.threadBuffers = before.logger.threadBuffers)
    (deleted : after.logger.deleted = before.logger.deleted)
    (allocations : after.allocations = before.allocations)
    (registering : ∀ ring, before.Registering ring → after.Registering ring) :
    Tracked after := by
  constructor
  · intro ring created
    rw [allocations] at created
    rw [threadBuffers, deleted]
    exact (tracked.covered ring created).imp_right fun other =>
      other.imp_right (registering ring)
  · rw [deleted]
    exact tracked.once

/-- A thread that does not register a buffer moves on in its code. -/
theorem enter (tracked : Tracked before) {thread : Nat} {phase now : ThreadPhase}
    {stagingBuffer : Option Nat} (here : before.At thread now stagingBuffer)
    (notCreated : ∀ nbytes, now ≠ .created nbytes)
    (threadBuffers : after.logger.threadBuffers = before.logger.threadBuffers)
    (deleted : after.logger.deleted = before.logger.deleted)
    (allocations : after.allocations = before.allocations)
    (threads : after.threads = (before.enter thread phase).threads) : Tracked after := by
  apply tracked.quiet threadBuffers deleted allocations
  rintro ring ⟨other, nbytes, created, owns⟩
  have different : other ≠ thread := by
    rintro rfl
    exact notCreated nbytes (here.1.symm.trans created)
  refine ⟨other, nbytes, ?_, ?_⟩
  · rw [threads, State.enter_phase_of_ne different]
    exact created
  · rw [threads, State.enter_stagingBuffer]
    exact owns

theorem create (tracked : Tracked state) {thread bufferId : Nat} {nbytes : Option Nat}
    (here : state.At thread (.numbered bufferId nbytes) none) :
    Tracked (state.create thread bufferId nbytes) := by
  refine ⟨?_, tracked.once⟩
  intro ring created
  rcases Nat.lt_succ_iff_lt_or_eq.mp created with old | rfl
  · rcases tracked.covered ring old with registered | deleted | ⟨other, others, there⟩
    · exact .inl registered
    · exact .inr (.inl deleted)
    · have different : other ≠ thread := by
        rintro rfl
        cases here.1.symm.trans there.1
      refine .inr (.inr ⟨other, others, ?_⟩)
      rw [State.At, State.create_threads_of_ne different]
      exact there
  · refine .inr (.inr ⟨thread, nbytes, ?_⟩)
    rw [State.At, State.create_threads_self]
    exact ⟨rfl, rfl⟩

theorem register (tracked : Tracked state) {thread ring : Nat} {nbytes : Option Nat}
    (here : state.At thread (.created nbytes) (some ring)) :
    Tracked (state.register thread ring nbytes) := by
  refine ⟨?_, tracked.once⟩
  intro other created
  have buffers : (state.register thread ring nbytes).logger.threadBuffers =
      state.logger.threadBuffers ++ [ring] := rfl
  rw [buffers, List.mem_append, List.mem_singleton]
  rcases tracked.covered other created with registered | deleted | ⟨owner, others, there⟩
  · exact .inl (.inl registered)
  · exact .inr (.inl deleted)
  · by_cases same : owner = thread
    · subst same
      exact .inl (.inr (Option.some.inj (there.2.symm.trans here.2)))
    · refine .inr (.inr ⟨owner, others, ?_, ?_⟩)
      · exact (State.enter_phase_of_ne same).trans there.1
      · exact (State.enter_stagingBuffer owner).trans there.2

/-- The poll thread moves a buffer from the registered ones to the deleted ones. -/
theorem delete (tracked : Tracked before) (ownership : Ownership before) {i ring : Nat}
    (found : before.logger.threadBuffers[i]? = some ring)
    (logger : after.logger = before.logger.deleteBuffer i ring)
    (threads : after.threads = before.threads)
    (allocations : after.allocations = before.allocations) : Tracked after := by
  rcases split_at found with ⟨front, behind, split, erased, _⟩
  have remaining : after.logger.threadBuffers = front ++ behind := by
    rw [logger, Logger.deleteBuffer, erased]
  have deleted : after.logger.deleted = before.logger.deleted ++ [ring] := by
    rw [logger, Logger.deleteBuffer]
  have registered : ring ∈ before.logger.threadBuffers := by simp [split]
  constructor
  · intro other created
    rw [allocations] at created
    rw [remaining, deleted]
    rcases tracked.covered other created with member | old | ⟨thread, nbytes, there⟩
    · rw [split, List.mem_append, List.mem_cons] at member
      rcases member with member | rfl | member
      · exact .inl (List.mem_append_left _ member)
      · exact .inr (.inl (by simp))
      · exact .inl (List.mem_append_right _ member)
    · exact .inr (.inl (List.mem_append_left _ old))
    · refine .inr (.inr ⟨thread, nbytes, ?_⟩)
      rw [State.At, threads]
      exact there
  · rw [deleted, List.nodup_append]
    refine ⟨tracked.once, List.pairwise_singleton _ _, ?_⟩
    intro other old last only
    rw [List.mem_singleton] at only
    rintro rfl
    exact (ownership.deleted other old).2 (only ▸ registered)

theorem pollStep (tracked : Tracked state) (ownership : Ownership state) (nanotime : Nat) :
    Tracked (state.pollStep env passes nanotime) := by
  have same {logger : Logger}
      (result : (state.pollStep env passes nanotime).logger = logger)
      (threadBuffers : logger.threadBuffers = state.logger.threadBuffers)
      (deleted : logger.deleted = state.logger.deleted) :
      Tracked (state.pollStep env passes nanotime) :=
    tracked.quiet (result ▸ threadBuffers) (result ▸ deleted) rfl (fun _ there => there)
  cases state.polled env passes nanotime with
  | unchanged unchanged => exact same unchanged rfl rfl
  | deleted found _ deleted => exact tracked.delete ownership found deleted rfl rfl
  | looked looked => exact same looked rfl rfl
  | finished _ finished => exact same finished rfl rfl

theorem step (tracked : Tracked before) (ownership : Ownership before) {label : Label}
    (step : Step env passes before label after) : Tracked after := by
  have control := step.control
  cases step with
  | preallocate here _ => exact tracked.enter here (by simp) rfl rfl rfl rfl
  | firstLog here _ => exact tracked.enter here (by simp) rfl rfl rfl rfl
  | log here => exact tracked.enter here (by simp) rfl rfl rfl rfl
  | create here => exact tracked.create here
  | register here _ => exact tracked.register here
  | reserve here => exact tracked.enter here (by simp) rfl rfl rfl rfl
  | retry here => exact tracked.enter here (by simp) rfl rfl rfl rfl
  | commit entry here _ => exact tracked.enter here (by simp) rfl rfl rfl rfl
  | destroy _ _ =>
      refine tracked.quiet (by rfl) (by rfl) (by rfl) ?_
      rintro ring ⟨thread, nbytes, there⟩
      refine ⟨thread, nbytes, ?_⟩
      rw [State.At, State.destroy_phase, State.destroy_stagingBuffer]
      exact there
  | poll nanotime _ => exact tracked.pollStep ownership nanotime
  | _ =>
      have same := control id
      refine tracked.quiet same.threadBuffers same.deleted same.allocations ?_
      rintro ring ⟨thread, nbytes, there⟩
      refine ⟨thread, nbytes, ?_⟩
      rw [State.At, same.threads]
      exact there

end Tracked

theorem reachable_tracked (reachable : (system env passes).Reachable state) :
    Tracked state := by
  induction reachable with
  | initial starts =>
      rcases starts with ⟨files, fd, output, _, rfl⟩
      exact Tracked.initial files fd output
  | step earlier taken induction =>
      exact induction.step (reachable_ownership earlier) taken

/-- In every state of every run, each staging buffer that was allocated is either about to
be registered, or it is registered or deleted, and in either list once. -/
theorem buffers_accounted (reachable : (system env passes).Reachable state) :
    (state.logger.threadBuffers ++ state.logger.deleted).Nodup ∧
      ∀ ring,
        (ring < state.allocations ↔
          ring ∈ state.logger.threadBuffers ++ state.logger.deleted ∨
            state.Registering ring) ∧
        (state.Registering ring →
          ring ∉ state.logger.threadBuffers ++ state.logger.deleted) := by
  have tracked := reachable_tracked reachable
  have ownership := reachable_ownership reachable
  constructor
  · rw [List.nodup_append]
    refine ⟨ownership.distinct, tracked.once, ?_⟩
    rintro ring registered other deleted rfl
    exact (ownership.deleted ring deleted).2 registered
  · intro ring
    constructor
    · constructor
      · intro created
        rw [List.mem_append, or_assoc]
        exact tracked.covered ring created
      · rw [List.mem_append]
        rintro ((registered | deleted) | ⟨thread, nbytes, there⟩)
        · exact ownership.registered ring registered
        · exact (ownership.deleted ring deleted).1
        · exact ownership.fresh thread ring there.2
    · rintro ⟨thread, nbytes, there⟩ member
      have new := ownership.unregistered thread nbytes ring there.1 there.2
      exact (List.mem_append.mp member).elim new.1 new.2

end Tracked

namespace Example

theorem stopped_accounted :
    (stringStopped.logger.threadBuffers ++ stringStopped.logger.deleted).Nodup ∧
      ∀ ring,
        (ring < stringStopped.allocations ↔
          ring ∈ stringStopped.logger.threadBuffers ++ stringStopped.logger.deleted ∨
            stringStopped.Registering ring) ∧
        (stringStopped.Registering ring →
          ring ∉ stringStopped.logger.threadBuffers ++ stringStopped.logger.deleted) :=
  buffers_accounted (reachable_of_printing reachable_stringStopped.of_restrict)

end Example

/-! ## A logger that is stopped -/

section Stopped

variable {env : Environment} {passes length : Nat} {state : State} {clock : Nat → Nat}

theorem pollRun_allocations (n : Nat) :
    (state.pollRun env passes clock n).allocations = state.allocations := by
  induction n with
  | zero => rfl
  | succ n induction => exact induction

/-- When the destructor waits for the poll thread and all logging threads have exited, the
poll thread deletes each staging buffer once before it returns. -/
theorem stop_deletes_all (allocates : env.libc.Allocates) (enough : 0 < passes)
    (reachable : (orderly env passes length).Reachable state)
    (stopping : state.control = .stopping) (running : state.poll ≠ .exited)
    (abandoned : state.Abandoned) (settled : ∀ ring, ¬state.Registering ring)
    (timely : ∀ n, clock n < uint64Max) :
    ∃ n, (state.pollRun env passes clock n).poll = .exited ∧
      (state.pollRun env passes clock n).logger.deleted.Perm
        (List.range state.allocations) := by
  rcases exists_exited allocates enough reachable stopping abandoned timely with ⟨n, exited⟩
  refine ⟨n, exited, ?_⟩
  have reached := reachable_of_printing (pollRun_reachable reachable timely n).of_restrict
  have empty := exited_empty reachable stopping running timely n exited
  have tracked := reachable_tracked reached
  have ownership := reachable_ownership reached
  have threads : (state.pollRun env passes clock n).threads = state.threads :=
    (pollRun_frame n).2.1
  rw [List.perm_ext_iff_of_nodup tracked.once List.nodup_range]
  intro ring
  rw [List.mem_range, ← pollRun_allocations n]
  constructor
  · intro deleted
    exact (ownership.deleted ring deleted).1
  · intro created
    rcases tracked.covered ring created with registered | deleted | ⟨thread, nbytes, there⟩
    · rw [empty] at registered
      cases registered
    · exact deleted
    · rw [State.At, threads] at there
      exact absurd ⟨thread, nbytes, there⟩ (settled ring)

end Stopped

namespace Example

open Backend.Example

/-- The only buffer is registered already. -/
theorem stringStopped_settled (ring : Nat) : ¬stringStopped.Registering ring := by
  rintro ⟨thread, nbytes, there⟩
  have ownership := reachable_ownership
    (reachable_of_printing reachable_stringStopped.of_restrict)
  have only : stringStopped.allocations = 1 := by decide +kernel
  have created := ownership.fresh thread ring there.2
  rw [only, Nat.lt_one_iff] at created
  have new := ownership.unregistered thread nbytes ring there.1 there.2
  rw [created, stringStopped_buffers] at new
  exact new.1 (List.mem_singleton_self 0)

theorem stopped_deletes :
    ∃ n, (stringStopped.pollRun stringEnv 1 (fun _ => nanotime) n).poll = .exited ∧
      (stringStopped.pollRun stringEnv 1 (fun _ => nanotime) n).logger.deleted.Perm
        (List.range stringStopped.allocations) := by
  apply stop_deletes_all Decoding.Example.sample_allocates (Nat.le_refl 1)
    reachable_stringStopped
  · decide +kernel
  · decide +kernel
  · exact abandoned_stringStopped
  · exact stringStopped_settled
  · exact fun _ => by decide

end Example

end StaticLog.Program
