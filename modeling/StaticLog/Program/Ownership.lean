import Mathlib.Data.List.Nodup
import StaticLog.Backend.Draining
import StaticLog.Program.Threads

/-! # Whose staging buffer is whose

What holds in every state of every run: a staging buffer belongs to one thread, it is
registered at most once, and a deleted buffer is never registered again. -/

namespace StaticLog.Program

open Backend Execution

variable {env : Environment} {passes : Nat}

/-- `staging_buffer_` of the thread points to the buffer. -/
def State.Owns (state : State) (thread ring : Nat) : Prop :=
  (state.threads thread).stagingBuffer = some ring

structure Ownership (state : State) : Prop where
  fresh : ∀ thread ring, state.Owns thread ring → ring < state.allocations
  unique : ∀ left right ring, state.Owns left ring → state.Owns right ring → left = right
  registered : ∀ ring ∈ state.logger.threadBuffers, ring < state.allocations
  distinct : state.logger.threadBuffers.Nodup
  deleted : ∀ ring ∈ state.logger.deleted,
    ring < state.allocations ∧ ring ∉ state.logger.threadBuffers
  unregistered : ∀ thread nbytes ring,
    (state.threads thread).phase = .created nbytes → state.Owns thread ring →
      ring ∉ state.logger.threadBuffers ∧ ring ∉ state.logger.deleted

namespace Ownership

variable {before after state : State}

theorem initial (files : Int → Option File) (fd : Int) (output : Decoding.Output) :
    Ownership (initial files fd output) where
  fresh := by
    intro thread ring owns
    cases owns
  unique := by
    intro left right ring owns
    cases owns
  registered := by simp [Program.initial]
  distinct := List.nodup_nil
  deleted := by simp [Program.initial]
  unregistered := by
    intro thread nbytes ring created
    cases created

/-- Most steps change neither who owns what nor what is registered. -/
theorem quiet (ownership : Ownership before)
    (threadBuffers : after.logger.threadBuffers = before.logger.threadBuffers)
    (deleted : after.logger.deleted = before.logger.deleted)
    (allocations : after.allocations = before.allocations)
    (stagingBuffer : ∀ thread, (after.threads thread).stagingBuffer =
      (before.threads thread).stagingBuffer)
    (phase : ∀ thread nbytes, (after.threads thread).phase = .created nbytes →
      (before.threads thread).phase = .created nbytes) : Ownership after := by
  constructor
  all_goals simp only [State.Owns, threadBuffers, deleted, allocations, stagingBuffer]
  · exact ownership.fresh
  · exact ownership.unique
  · exact ownership.registered
  · exact ownership.distinct
  · exact ownership.deleted
  · intro thread nbytes ring created
    exact ownership.unregistered thread nbytes ring (phase thread nbytes created)

theorem control (ownership : Ownership before) (same : before.SameEntries after) :
    Ownership after := by
  apply ownership.quiet same.threadBuffers same.deleted same.allocations
  · intro thread
    rw [same.threads]
  · intro thread nbytes created
    rw [same.threads] at created
    exact created

/-- A thread moves on in its code. -/
theorem enter (ownership : Ownership before) {thread : Nat} {phase : ThreadPhase}
    (notCreated : ∀ nbytes, phase ≠ .created nbytes)
    (threadBuffers : after.logger.threadBuffers = before.logger.threadBuffers)
    (deleted : after.logger.deleted = before.logger.deleted)
    (allocations : after.allocations = before.allocations)
    (threads : after.threads = (before.enter thread phase).threads) : Ownership after := by
  apply ownership.quiet threadBuffers deleted allocations
  · intro other
    rw [threads, State.enter_stagingBuffer]
  · intro other nbytes created
    rw [threads] at created
    rcases State.enter_phase created with ⟨_, here⟩ | ⟨_, there⟩
    · exact absurd here (notCreated nbytes)
    · exact there

theorem create (ownership : Ownership state) (thread bufferId : Nat)
    (nbytes : Option Nat) : Ownership (state.create thread bufferId nbytes) := by
  have owns {other ring : Nat}
      (owned : (state.create thread bufferId nbytes).Owns other ring) :
      other = thread ∧ ring = state.allocations ∨
        other ≠ thread ∧ state.Owns other ring := by
    by_cases same : other = thread
    · rw [State.Owns, same, State.create_threads_self] at owned
      exact .inl ⟨same, (Option.some.inj owned).symm⟩
    · rw [State.Owns, State.create_threads_of_ne same] at owned
      exact .inr ⟨same, owned⟩
  constructor
  · intro other ring owned
    simp only [State.create]
    rcases owns owned with ⟨_, rfl⟩ | ⟨_, owned⟩
    · omega
    · have old := ownership.fresh other ring owned
      omega
  · intro left right ring leftOwns rightOwns
    rcases owns leftOwns with ⟨leftIs, new⟩ | ⟨_, leftOwned⟩
    · rcases owns rightOwns with ⟨rightIs, _⟩ | ⟨_, rightOwned⟩
      · exact leftIs.trans rightIs.symm
      · have old := ownership.fresh right ring rightOwned
        omega
    · rcases owns rightOwns with ⟨_, new⟩ | ⟨_, rightOwned⟩
      · have old := ownership.fresh left ring leftOwned
        omega
      · exact ownership.unique left right ring leftOwned rightOwned
  · intro ring registered
    have old := ownership.registered ring registered
    simp only [State.create]
    omega
  · exact ownership.distinct
  · intro ring deleted
    have old := ownership.deleted ring deleted
    simp only [State.create]
    exact ⟨by omega, old.2⟩
  · intro other nbytes' ring created owned
    rcases owns owned with ⟨_, rfl⟩ | ⟨different, owned⟩
    · constructor
      · intro registered
        exact absurd (ownership.registered _ registered) (Nat.lt_irrefl _)
      · intro deleted
        exact absurd (ownership.deleted _ deleted).1 (Nat.lt_irrefl _)
    · rw [State.create_threads_of_ne different] at created
      exact ownership.unregistered other nbytes' ring created owned

theorem register (ownership : Ownership state) {thread ring : Nat}
    {nbytes : Option Nat} (here : state.At thread (.created nbytes) (some ring)) :
    Ownership (state.register thread ring nbytes) := by
  have new := ownership.unregistered thread nbytes ring here.1 here.2
  have threads : (state.register thread ring nbytes).threads =
      (state.enter thread (nbytes.elim .idle .entering)).threads := rfl
  constructor
  · intro other owned
    simp only [State.Owns, threads, State.enter_stagingBuffer]
    exact ownership.fresh other owned
  · intro left right owned
    simp only [State.Owns, threads, State.enter_stagingBuffer]
    exact ownership.unique left right owned
  · intro other member
    simp only [State.register, List.mem_append, List.mem_singleton] at member
    rcases member with member | rfl
    · exact ownership.registered other member
    · exact ownership.fresh thread other here.2
  · simp only [State.register, List.nodup_append]
    refine ⟨ownership.distinct, List.pairwise_singleton _ _, ?_⟩
    intro other member last only
    rw [List.mem_singleton] at only
    rw [only]
    intro same
    exact new.1 (same ▸ member)
  · intro other deleted
    have old := ownership.deleted other deleted
    refine ⟨old.1, ?_⟩
    intro member
    simp only [State.register, List.mem_append, List.mem_singleton] at member
    rcases member with member | rfl
    · exact old.2 member
    · exact new.2 deleted
  · intro other nbytes' owned created owns
    rw [threads] at created
    simp only [State.Owns, threads, State.enter_stagingBuffer] at owns
    rcases State.enter_phase created with ⟨_, reached⟩ | ⟨different, created⟩
    · cases nbytes <;> cases reached
    · have old := ownership.unregistered other nbytes' owned created owns
      refine ⟨?_, old.2⟩
      intro member
      simp only [State.register, List.mem_append, List.mem_singleton] at member
      rcases member with member | rfl
      · exact old.1 member
      · exact different (ownership.unique other thread owned owns here.2)

/-- The poll thread moves a buffer from the registered ones to the deleted ones. -/
theorem delete (ownership : Ownership before) {i ring : Nat}
    (found : before.logger.threadBuffers[i]? = some ring)
    (logger : after.logger = before.logger.deleteBuffer i ring)
    (threads : after.threads = before.threads)
    (allocations : after.allocations = before.allocations) : Ownership after := by
  rcases split_at found with ⟨front, behind, split, erased, _⟩
  have remaining : after.logger.threadBuffers = front ++ behind := by
    rw [logger, Logger.deleteBuffer, erased]
  have still : ∀ other ∈ after.logger.threadBuffers,
      other ∈ before.logger.threadBuffers := by
    intro other member
    rw [remaining, List.mem_append] at member
    rw [split, List.mem_append, List.mem_cons]
    rcases member with member | member
    · exact .inl member
    · exact .inr (.inr member)
  have distinct := ownership.distinct
  rw [split, List.nodup_middle, List.nodup_cons] at distinct
  have registered : ring ∈ before.logger.threadBuffers := by
    rw [split]
    simp
  have deleted : after.logger.deleted = before.logger.deleted ++ [ring] := by
    rw [logger, Logger.deleteBuffer]
  constructor
  · simp only [State.Owns, threads, allocations]
    exact ownership.fresh
  · simp only [State.Owns, threads]
    exact ownership.unique
  · intro other member
    rw [allocations]
    exact ownership.registered other (still other member)
  · rw [remaining]
    exact distinct.2
  · intro other member
    rw [allocations]
    rw [deleted, List.mem_append, List.mem_singleton] at member
    rcases member with member | rfl
    · have old := ownership.deleted other member
      exact ⟨old.1, fun again => old.2 (still other again)⟩
    · rw [remaining]
      exact ⟨ownership.registered other registered, distinct.1⟩
  · intro thread nbytes other created owned
    simp only [State.Owns, threads] at created owned
    have old := ownership.unregistered thread nbytes other created owned
    refine ⟨fun again => old.1 (still other again), ?_⟩
    rw [deleted, List.mem_append, List.mem_singleton]
    intro member
    rcases member with member | rfl
    · exact old.2 member
    · exact old.1 registered

theorem pollStep (ownership : Ownership state) (nanotime : Nat) :
    Ownership (state.pollStep env passes nanotime) := by
  have same {logger : Logger}
      (result : (state.pollStep env passes nanotime).logger = logger)
      (threadBuffers : logger.threadBuffers = state.logger.threadBuffers)
      (deleted : logger.deleted = state.logger.deleted) :
      Ownership (state.pollStep env passes nanotime) :=
    ownership.quiet (result ▸ threadBuffers) (result ▸ deleted) rfl (fun _ => rfl)
      (fun _ _ created => created)
  cases state.polled env passes nanotime with
  | unchanged unchanged => exact same unchanged rfl rfl
  | deleted found _ deleted => exact ownership.delete found deleted rfl rfl
  | looked looked => exact same looked rfl rfl
  | finished _ finished => exact same finished rfl rfl

theorem step (ownership : Ownership before) {label : Label}
    (step : Step env passes before label after) : Ownership after := by
  have control := step.control
  cases step with
  | preallocate _ _ => exact ownership.enter (by simp) rfl rfl rfl rfl
  | firstLog _ _ => exact ownership.enter (by simp) rfl rfl rfl rfl
  | log _ => exact ownership.enter (by simp) rfl rfl rfl rfl
  | create _ => exact ownership.create _ _ _
  | register here _ => exact ownership.register here
  | reserve _ => exact ownership.enter (State.granted_ne_created _ _) rfl rfl rfl rfl
  | retry _ => exact ownership.enter (State.granted_ne_created _ _) rfl rfl rfl rfl
  | commit entry _ _ => exact ownership.enter (by simp) rfl rfl rfl rfl
  | destroy _ _ =>
      refine ownership.quiet (by rfl) (by rfl) (by rfl) (State.destroy_stagingBuffer _) ?_
      intro other nbytes created
      rw [State.destroy_phase] at created
      exact created
  | poll nanotime _ => exact ownership.pollStep nanotime
  | _ => exact ownership.control (control id)

end Ownership

theorem reachable_ownership {state : State}
    (reachable : (system env passes).Reachable state) : Ownership state := by
  apply reachable.invariant Ownership
  · intro state starts
    rcases starts with ⟨files, fd, output, _, rfl⟩
    exact Ownership.initial files fd output
  · intro before label after ownership step
    exact ownership.step step

end StaticLog.Program
