import StaticLog.StagingBuffer.Occupancy

/-! # Exactly the requests below the size of the storage can be served

Where the two cursors meet on a drained buffer is up to its history. A request
that fits neither behind them nor before them is served all the same, once the
producer has wrapped around and the consumer has rolled over. A request of the
size of the storage or more is never served. -/

namespace StaticLog.StagingBuffer

open StaticLog.Execution

/-! ## The attempts on a drained buffer -/

theorem reserveSpaceInternal_fast {nbytes : Nat} {buffer : StagingBuffer}
    (room : nbytes < buffer.minFreeSpace) :
    reserveSpaceInternal nbytes buffer = (buffer, some buffer.producerPos) := by
  rw [reserveSpaceInternal, if_neg (Nat.not_le.mpr room)]

theorem reserveSpaceInternal_slow {nbytes : Nat} {buffer : StagingBuffer}
    (full : buffer.minFreeSpace ≤ nbytes) :
    reserveSpaceInternal nbytes buffer =
      (buffer.reservePass nbytes,
        if (buffer.reservePass nbytes).minFreeSpace ≤ nbytes then none
        else some (buffer.reservePass nbytes).producerPos) := by
  rw [reserveSpaceInternal, if_pos full]
  split
  case isTrue still => rw [if_pos still]
  case isFalse enough => rw [if_neg enough]

/-- A pass that finds the room serves the request. -/
theorem reserveSpaceInternal_served {nbytes : Nat} {buffer : StagingBuffer}
    (room : nbytes < (buffer.reservePass nbytes).minFreeSpace) :
    ∃ pointer, (reserveSpaceInternal nbytes buffer).2 = some pointer := by
  rcases Nat.lt_or_ge nbytes buffer.minFreeSpace with fast | full
  · exact ⟨_, congrArg Prod.snd (reserveSpaceInternal_fast fast)⟩
  · rw [reserveSpaceInternal_slow full, if_neg (Nat.not_le.mpr room)]
    exact ⟨_, rfl⟩

theorem freeToEnd_minFreeSpace {buffer : StagingBuffer}
    (within : buffer.producerPos ≤ stagingBufferSize) :
    buffer.freeToEnd.minFreeSpace = stagingBufferSize - buffer.producerPos :=
  wrappingSub_of_le within

/-- With both cursors at the start every smaller request is served. -/
theorem served_at_start {nbytes : Nat} {buffer : StagingBuffer}
    (small : nbytes < stagingBufferSize) (producerAtStart : buffer.producerPos = 0)
    (consumerAtStart : buffer.consumerPos = 0) :
    ∃ pointer, (reserveSpaceInternal nbytes buffer).2 = some pointer := by
  have whole : buffer.freeToEnd.minFreeSpace = stagingBufferSize := by
    rw [freeToEnd_minFreeSpace (producerAtStart ▸ Nat.zero_le _), producerAtStart,
      Nat.sub_zero]
  have together : buffer.consumerPos ≤ buffer.producerPos := by
    rw [producerAtStart, consumerAtStart]
  have pass : buffer.reservePass nbytes = buffer.freeToEnd := by
    simp only [reservePass, if_pos together, whole, if_pos small]
  apply reserveSpaceInternal_served
  rw [pass, whole]
  exact small

/-- The producer has wrapped around and the consumer stands at the end of what was
recorded: there is nothing left to consume. -/
structure WrappedDrained (buffer : StagingBuffer) : Prop where
  producerPos : buffer.producerPos = 0
  consumerPos : 0 < buffer.consumerPos
  endOfRecordedSpace : buffer.endOfRecordedSpace = buffer.consumerPos

/-- There `peek` rolls over and both cursors are at the start. -/
theorem WrappedDrained.peek {buffer : StagingBuffer} (drained : WrappedDrained buffer) :
    buffer.peek.1 = buffer.rollOver := by
  have behind : buffer.producerPos < buffer.consumerPos :=
    drained.producerPos ▸ drained.consumerPos
  have nothing : wrappingSub buffer.endOfRecordedSpace buffer.consumerPos = 0 := by
    rw [drained.endOfRecordedSpace, wrappingSub_self]
  simp only [StagingBuffer.peek, if_pos behind, nothing, Nat.lt_irrefl, if_false]

theorem WrappedDrained.served {nbytes : Nat} {buffer : StagingBuffer}
    (drained : WrappedDrained buffer) (small : nbytes < stagingBufferSize) :
    ∃ pointer, (reserveSpaceInternal nbytes buffer.peek.1).2 = some pointer := by
  rw [drained.peek]
  exact served_at_start small drained.producerPos rfl

/-- An attempt in front of the consumer moves no cursor. -/
theorem WrappedDrained.attempt {buffer : StagingBuffer} (drained : WrappedDrained buffer)
    (nbytes : Nat) : WrappedDrained (reserveSpaceInternal nbytes buffer).1 := by
  rcases Nat.lt_or_ge nbytes buffer.minFreeSpace with fast | full
  · rw [reserveSpaceInternal_fast fast]
    exact drained
  · have behind : ¬buffer.consumerPos ≤ buffer.producerPos :=
      Nat.not_le.mpr (drained.producerPos ▸ drained.consumerPos)
    have pass : buffer.reservePass nbytes = buffer.freeToConsumer buffer.consumerPos := by
      simp only [reservePass, if_neg behind]
    rw [reserveSpaceInternal_slow full, pass]
    exact ⟨drained.producerPos, drained.consumerPos, drained.endOfRecordedSpace⟩

/-- Where the cursors meet, an attempt that fails has wrapped around. -/
theorem attempt_where_cursors_meet {nbytes : Nat} {buffer : StagingBuffer}
    (small : nbytes < stagingBufferSize) (inBounds : buffer.producerPos < stagingBufferSize)
    (meet : buffer.producerPos = buffer.consumerPos) :
    (∃ pointer, (reserveSpaceInternal nbytes buffer).2 = some pointer) ∨
      WrappedDrained (reserveSpaceInternal nbytes buffer).1 := by
  rcases Nat.lt_or_ge nbytes buffer.minFreeSpace with fast | full
  · exact .inl ⟨_, congrArg Prod.snd (reserveSpaceInternal_fast fast)⟩
  have together : buffer.consumerPos ≤ buffer.producerPos := meet.ge
  have toEnd := freeToEnd_minFreeSpace inBounds.le
  by_cases behind : nbytes < stagingBufferSize - buffer.producerPos
  · left
    have pass : buffer.reservePass nbytes = buffer.freeToEnd := by
      simp only [reservePass, if_pos together, toEnd, if_pos behind]
    apply reserveSpaceInternal_served
    rw [pass, toEnd]
    exact behind
  · right
    have moved : buffer.consumerPos ≠ 0 := by omega
    have pass : buffer.reservePass nbytes =
        buffer.freeToEnd.markEnd.wrapAround.freeToConsumer buffer.consumerPos := by
      simp only [reservePass, if_pos together, toEnd, if_neg behind, ne_eq, moved,
        not_false_eq_true, if_true]
    rw [reserveSpaceInternal_slow full, pass]
    exact ⟨rfl, Nat.pos_of_ne_zero moved, meet⟩

namespace Ring

/-- What is drained has its cursors together, or is wrapped around. -/
theorem Occupied.drained {buffer : StagingBuffer} (occupied : Occupied buffer 0 0) :
    buffer.producerPos = buffer.consumerPos ∨ WrappedDrained buffer := by
  rcases Nat.lt_or_ge buffer.producerPos buffer.consumerPos with behind | ahead
  · have region := occupied.wrapped behind
    exact .inr ⟨region.2.2, by omega, region.1⟩
  · exact .inl (occupied.flat ahead).1

theorem Occupied.served {buffer : StagingBuffer} {nbytes : Nat}
    (occupied : Occupied buffer 0 0) (small : nbytes < stagingBufferSize) :
    let first := reserveSpaceInternal nbytes buffer
    (∃ pointer, first.2 = some pointer) ∨
      ∃ pointer, (reserveSpaceInternal nbytes first.1.peek.1).2 = some pointer := by
  intro first
  rcases occupied.drained with meet | wrapped
  · rcases attempt_where_cursors_meet small occupied.inBounds meet with granted | wrapped
    · exact .inl granted
    · exact .inr (wrapped.served small)
  · exact .inr ((wrapped.attempt nbytes).served small)

/-! ## Requests that are too large -/

/-- The producer is inside a blocking call for so many bytes. -/
def Blocked (nbytes : Nat) : Producer → Prop
  | .loop size blocking => size = nbytes ∧ blocking = true
  | .cached size blocking _ => size = nbytes ∧ blocking = true
  | .marked size blocking _ => size = nbytes ∧ blocking = true
  | .wrapped size blocking _ => size = nbytes ∧ blocking = true
  | _ => False

theorem Blocked.afterPass (nbytes : Nat) (buffer : StagingBuffer) :
    Blocked nbytes (afterPass nbytes true buffer) := by
  simp [Ring.afterPass, Blocked]

/-- The bound is never above the size of the storage. -/
theorem Invariant.minFreeSpace_le {state : State} {back front : Nat}
    (invariant : Invariant state back front) (nbytes cached : Nat) (blocking : Bool)
    (inCall : state.producer = .loop nbytes blocking ∨
      state.producer = .cached nbytes blocking cached) :
    state.buffer.minFreeSpace ≤ stagingBufferSize := by
  have facts := invariant.producer
  rcases inCall with at_loop | at_cached
  · rw [at_loop] at facts
    exact facts.toEnd.trans (Nat.sub_le _ _)
  · rw [at_cached] at facts
    exact facts.1.toEnd.trans (Nat.sub_le _ _)

/-- A step of the producer leaves it in its call. -/
theorem Invariant.blocked_reserveStep {state : State} {back front nbytes : Nat}
    (invariant : Invariant state back front) (large : stagingBufferSize ≤ nbytes)
    (blocked : Blocked nbytes state.producer) :
    Blocked nbytes (Ring.reserveStep state).producer := by
  rcases state with
    ⟨buffer, producer, consumer, committed, consumed, reported, committedSince⟩
  cases producer with
  | idle => exact blocked
  | loop size blocking =>
      have limit : buffer.minFreeSpace ≤ stagingBufferSize :=
        invariant.minFreeSpace_le size 0 blocking (.inl rfl)
      rcases blocked with ⟨rfl, rfl⟩
      simp only [Ring.reserveStep, if_pos (limit.trans large)]
      exact ⟨rfl, rfl⟩
  | cached size blocking cached =>
      rcases blocked with ⟨rfl, rfl⟩
      have toEnd := freeToEnd_minFreeSpace invariant.occupied.inBounds.le
      have short : ¬size < buffer.freeToEnd.minFreeSpace := by
        rw [toEnd]
        omega
      simp only [Ring.reserveStep]
      split
      · exact ⟨rfl, rfl⟩
      · exact Blocked.afterPass size (buffer.freeToConsumer cached)
  | marked size blocking cached =>
      rcases blocked with ⟨rfl, rfl⟩
      simp only [Ring.reserveStep]
      split
      · exact ⟨rfl, rfl⟩
      · exact Blocked.afterPass size buffer
  | wrapped size blocking cached =>
      rcases blocked with ⟨rfl, rfl⟩
      exact Blocked.afterPass size (buffer.freeToConsumer cached)
  | reserved size pointer => exact blocked

/-- The consumer's steps are none of the producer's business. -/
theorem peekStep_producer (state : State) : (peekStep state).producer = state.producer := by
  simp only [peekStep]
  split
  · rfl
  · split
    · split <;> rfl
    · rfl
  · rfl
  · rfl

theorem Invariant.step_blocked {before after : State} {label : Label}
    {back front nbytes : Nat} (invariant : Invariant before back front)
    (large : stagingBufferSize ≤ nbytes) (taken : Step before label after)
    (blocked : Blocked nbytes before.producer) : Blocked nbytes after.producer := by
  cases taken with
  | reserveProducerSpace size idle => simp [Blocked, idle] at blocked
  | tryReserve size idle => simp [Blocked, idle] at blocked
  | reserve => exact invariant.blocked_reserveStep large blocked
  | store block size pointer reserved fits => simp [Blocked, reserved] at blocked
  | finish size pointer reserved => simp [Blocked, reserved] at blocked
  | beginPeek available ready => exact blocked
  | peek =>
      rw [peekStep_producer]
      exact blocked
  | consume size available ready within => exact blocked
  | retire => exact blocked

theorem run_blocked {start final : State} {labels : List Label} {nbytes : Nat}
    (reachable : system.Reachable start) (large : stagingBufferSize ≤ nbytes)
    (blocked : Blocked nbytes start.producer) (run : system.Run start labels final) :
    Blocked nbytes final.producer := by
  induction run with
  | nil => exact blocked
  | snoc earlier taken induction =>
      rcases reachable_invariant (reachable.run earlier) with ⟨back, front, invariant⟩
      exact invariant.step_blocked large taken induction

/-- From every reachable state: where the consumer's last `peek` reported nothing
and nothing was committed since, an attempt, a `peek` and a second attempt serve
every request below the size of the storage; and a call for that size or more is
never left, whatever steps are taken. -/
theorem served_iff_below_size {state : State} (reachable : system.Reachable state)
    (idle : state.producer = .idle) :
    (∀ available, state.consumer = .ready available → state.reported = some 0 →
      state.committedSince = false → ∀ nbytes, nbytes < stagingBufferSize →
        let first := reserveSpaceInternal nbytes state.buffer
        (∃ pointer, first.2 = some pointer) ∨
          ∃ pointer, (reserveSpaceInternal nbytes first.1.peek.1).2 = some pointer) ∧
    ∀ nbytes, stagingBufferSize ≤ nbytes → ∀ labels final,
      system.Run (reserveProducerSpace nbytes state) labels final →
        Blocked nbytes final.producer := by
  rcases reachable_invariant reachable with ⟨back, front, invariant⟩
  constructor
  · intro available ready nothing uncommitted nbytes small
    have facts := invariant.consumer
    rw [ready] at facts
    rcases facts.2 nothing uncommitted with ⟨rfl, rfl⟩
    exact invariant.occupied.served small
  · intro nbytes large labels final run
    have facts := invariant.producer
    rw [idle] at facts
    have limit : state.buffer.minFreeSpace ≤ nbytes :=
      (facts.toEnd.trans (Nat.sub_le _ _)).trans large
    have blocked : Blocked nbytes (reserveProducerSpace nbytes state).producer := by
      simp only [reserveProducerSpace, if_neg (Nat.not_lt.mpr limit)]
      exact ⟨rfl, rfl⟩
    exact run_blocked (reachable.step (.reserveProducerSpace state nbytes idle)) large
      blocked run

/-- Half of the storage was used and consumed, and the consumer has looked again. -/
def foundDrained : State :=
  let half := stagingBufferSize / 2
  let committed := finish half 0 (reserveProducerSpace half (initial 0))
  let drained := consumeStep half half (peekStep (beginPeek committed))
  peekStep (beginPeek drained)

theorem foundDrained_reachable : system.Reachable foundDrained := by
  have start : system.Reachable (initial 0) := .initial ⟨0, rfl⟩
  have committed := (start.step (.reserveProducerSpace _ (stagingBufferSize / 2) rfl)).step
    (.finish _ _ 0 rfl)
  have drained := ((committed.step (.beginPeek _ 0 rfl)).step (.peek _)).step
    (.consume _ _ (stagingBufferSize / 2) rfl (Nat.le_refl _))
  exact (drained.step (.beginPeek _ _ rfl)).step (.peek _)

/-- The first attempt wraps around and fails. -/
theorem served_iff_below_size_foundDrained :
    let first := reserveSpaceInternal (stagingBufferSize - 1) foundDrained.buffer
    first.2 = none ∧
      ((∃ pointer, first.2 = some pointer) ∨
        ∃ pointer, (reserveSpaceInternal (stagingBufferSize - 1) first.1.peek.1).2 =
          some pointer) ∧
      Blocked stagingBufferSize
        (reserveStep (reserveProducerSpace stagingBufferSize foundDrained)).producer :=
  have served := served_iff_below_size foundDrained_reachable rfl
  ⟨by decide, served.1 _ rfl rfl rfl _ (by decide),
    served.2 _ (Nat.le_refl _) _ _ (.snoc .nil (.reserve _))⟩

end Ring

end StaticLog.StagingBuffer
