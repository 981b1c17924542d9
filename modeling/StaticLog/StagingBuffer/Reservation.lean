import StaticLog.StagingBuffer.Occupancy

/-! # A reservation is sound however old the free-space bound is

The fast path trusts `min_free_space_` without a look at the consumer. The bound
holds at every point of the code but one: after `producer_pos_` has been set back
to `storage_` and before `min_free_space_` is computed anew. -/

namespace StaticLog.StagingBuffer.Ring

open StaticLog.Execution

/-- `producer_pos_ = storage_` is done, the assignment to `min_free_space_` that
follows it is not. -/
def Wrapping : Producer → Prop
  | .wrapped _ _ _ => True
  | _ => False

/-- The two operands of the subtraction into `min_free_space_` that the next step
of the producer makes, if it makes one. -/
def nextSubtraction (state : State) : Option (Nat × Nat) :=
  match state.producer with
  | .cached _ _ cachedConsumerPos =>
      if cachedConsumerPos ≤ state.buffer.producerPos then
        some (stagingBufferSize, state.buffer.producerPos)
      else
        some (cachedConsumerPos, state.buffer.producerPos)
  | .wrapped _ _ cachedConsumerPos =>
      some (cachedConsumerPos, state.buffer.producerPos)
  | .reserved nbytes _ => some (state.buffer.minFreeSpace, nbytes)
  | _ => none

/-- Only `finishReservation` ends a reservation. -/
theorem Step.keeps_reserved {before after : State} {label : Label}
    {nbytes pointer : Nat} (taken : Step before label after)
    (reserved : before.producer = .reserved nbytes pointer) (held : label ≠ .finish) :
    after.producer = .reserved nbytes pointer := by
  cases taken with
  | reserveProducerSpace size idle => simp [reserved] at idle
  | tryReserve size idle => simp [reserved] at idle
  | reserve => simp only [reserveStep, reserved]
  | store block size start _ fits => exact reserved
  | finish size start _ => exact absurd rfl held
  | beginPeek available ready => exact reserved
  | peek =>
      simp only [peekStep]
      split
      · exact reserved
      · split
        · split
          · exact reserved
          · exact reserved
        · exact reserved
      · exact reserved
      · exact reserved
  | consume size available ready within => exact reserved
  | retire => exact reserved

theorem ProducerFacts.bound {buffer : StagingBuffer} {producer : Producer}
    (facts : ProducerFacts buffer producer) (settled : ¬Wrapping producer) :
    FreeSpaceSound buffer := by
  cases producer with
  | idle => exact facts
  | loop size blocking => exact facts
  | cached size blocking cached => exact facts.1
  | marked size blocking cached => exact facts.1
  | wrapped size blocking cached => exact absurd trivial settled
  | reserved size pointer => exact facts.1

theorem ProducerFacts.toEnd {buffer : StagingBuffer} {producer : Producer}
    (facts : ProducerFacts buffer producer)
    (inBounds : buffer.producerPos < stagingBufferSize) :
    buffer.producerPos + buffer.minFreeSpace ≤ stagingBufferSize := by
  by_cases settled : Wrapping producer
  · cases producer with
    | wrapped size blocking cached =>
        have atStart := facts.1
        have limit := facts.2.1
        omega
    | _ => exact False.elim settled
  · have limit := (facts.bound settled).toEnd
    omega

theorem Invariant.nextSubtraction {state : State} {back front minuend subtrahend : Nat}
    (invariant : Invariant state back front)
    (next : nextSubtraction state = some (minuend, subtrahend)) :
    subtrahend ≤ minuend := by
  have facts := invariant.producer
  have within := invariant.occupied.inBounds
  rw [Ring.nextSubtraction] at next
  split at next
  case h_1 size blocking cached at_cached =>
    split at next
    · cases next
      exact within.le
    case isFalse behind =>
      cases next
      exact Nat.le_of_not_le behind
  case h_2 size blocking cached at_wrapped =>
    rw [at_wrapped] at facts
    cases next
    have atStart := facts.1
    omega
  case h_3 nbytes pointer at_reserved =>
    rw [at_reserved] at facts
    cases next
    exact facts.2.1.le
  case h_4 => cases next

/-- Whenever a pointer has been returned, the space behind it lies in the storage
and is disjoint from all pending bytes, it stays reserved until it is finished,
and both assertions of `finishReservation` hold. No subtraction into
`min_free_space_` wraps. The bound never reaches beyond the end of the storage,
nor beyond a consumer that is ahead, except while it is being replaced. -/
theorem reservation_sound {state : State} (reachable : system.Reachable state) :
    (∀ nbytes pointer, state.producer = .reserved nbytes pointer →
      pointer + nbytes ≤ stagingBufferSize ∧
      (∀ offset ∈ state.pending, offset < pointer ∨ pointer + nbytes ≤ offset) ∧
      (∀ label after, Step state label after → label ≠ .finish →
        after.producer = .reserved nbytes pointer) ∧
      nbytes < state.buffer.minFreeSpace ∧
      state.buffer.producerPos + nbytes < stagingBufferSize) ∧
    (∀ minuend subtrahend, nextSubtraction state = some (minuend, subtrahend) →
      subtrahend ≤ minuend) ∧
    state.buffer.producerPos + state.buffer.minFreeSpace ≤ stagingBufferSize ∧
    (¬Wrapping state.producer → state.buffer.producerPos < state.buffer.consumerPos →
      state.buffer.producerPos + state.buffer.minFreeSpace ≤ state.buffer.consumerPos) := by
  rcases reachable_invariant reachable with ⟨back, front, invariant⟩
  have facts := invariant.producer
  have toEnd := facts.toEnd invariant.occupied.inBounds
  refine ⟨?_, fun _ _ next => invariant.nextSubtraction next, toEnd, ?_⟩
  · intro nbytes pointer at_reserved
    rw [at_reserved] at facts
    rcases facts with ⟨sound, granted, rfl⟩
    refine ⟨by omega, ?_, ?_, granted, by omega⟩
    · intro offset member
      rw [invariant.pending] at member
      exact invariant.occupied.disjoint_of_granted sound granted member
    · intro label after taken held
      exact taken.keeps_reserved at_reserved held
  · intro settled behind
    have limit := (facts.bound settled).toConsumer behind
    omega

/-! ## The instant at which the bound is stale -/

/-- Two bytes are committed and one of them is consumed. -/
def oneOfTwoConsumed : State :=
  let committed := finish 2 0 (reserveProducerSpace 2 (initial 0))
  consumeStep 1 2 (peekStep (beginPeek committed))

theorem oneOfTwoConsumed_reachable : system.Reachable oneOfTwoConsumed := by
  have start : system.Reachable (initial 0) := .initial ⟨0, rfl⟩
  have committed := (start.step (.reserveProducerSpace _ 2 rfl)).step (.finish _ 2 0 rfl)
  exact ((committed.step (.beginPeek _ 0 rfl)).step (.peek _)).step
    (.consume _ 1 2 rfl (by decide))

/-- The producer wants nearly the whole storage and has just wrapped around. -/
def staleBound : State :=
  reserveStep (reserveStep (reserveStep
    (reserveProducerSpace (stagingBufferSize - 1) oneOfTwoConsumed)))

theorem staleBound_reachable : system.Reachable staleBound := by
  have requested := oneOfTwoConsumed_reachable.step
    (.reserveProducerSpace _ (stagingBufferSize - 1) rfl)
  exact ((requested.step (.reserve _)).step (.reserve _)).step (.reserve _)

theorem bound_not_always_below_consumer :
    ¬∀ state, system.Reachable state →
      state.buffer.producerPos < state.buffer.consumerPos →
      state.buffer.producerPos + state.buffer.minFreeSpace ≤ state.buffer.consumerPos := by
  intro always
  have limit := always staleBound staleBound_reachable (by decide)
  exact absurd limit (by decide)

theorem reservation_sound_oneOfTwoConsumed :
    (reserveProducerSpace 5 oneOfTwoConsumed).producer = .reserved 5 2 ∧
      2 + 5 ≤ stagingBufferSize ∧
      ∀ offset ∈ (reserveProducerSpace 5 oneOfTwoConsumed).pending,
        offset < 2 ∨ 2 + 5 ≤ offset := by
  have granted : (reserveProducerSpace 5 oneOfTwoConsumed).producer = .reserved 5 2 := rfl
  have sound := (reservation_sound (oneOfTwoConsumed_reachable.step
    (.reserveProducerSpace _ 5 rfl))).1 5 2 granted
  exact ⟨granted, sound.1, sound.2.1⟩

end StaticLog.StagingBuffer.Ring
