import StaticLog.StagingBuffer.Capacity

/-! # A staging buffer is deleted when everything in it has been consumed

`checkCanDelete` compares the two cursors. They meet only where nothing is
pending; where nothing is pending they meet, or do so after one `peek`. -/

namespace StaticLog.StagingBuffer.Ring

open StaticLog.Execution

theorem checkCanDelete_iff (buffer : StagingBuffer) :
    buffer.checkCanDelete = true ↔
      buffer.shouldDeallocate = true ∧ buffer.consumerPos = buffer.producerPos := by
  rw [checkCanDelete, Bool.and_eq_true, beq_iff_eq]

/-- Where the cursors meet there is nothing between them. -/
theorem Occupied.nothing_of_meet {buffer : StagingBuffer} {back front : Nat}
    (occupied : Occupied buffer back front)
    (meet : buffer.consumerPos = buffer.producerPos) : back = 0 ∧ front = 0 := by
  have region := occupied.flat meet.le
  omega

theorem Invariant.consumed_iff {state : State} {back front : Nat}
    (invariant : Invariant state back front) :
    state.consumed = state.committed.length ↔ back = 0 ∧ front = 0 := by
  have kept := invariant.consumed
  have amount := congrArg List.length invariant.pending
  simp only [State.pending, offsets, List.length_drop, List.length_append,
    List.length_range'] at amount
  omega

/-- The steps that are left when the owner of the buffer is gone. -/
def Label.OfConsumer : Label → Prop
  | .beginPeek | .peek | .consume _ | .retire => True
  | _ => False

/-- The cursors meet, or a `peek` will make them meet; if one has begun, it is on
its way to the roll-over. -/
def Repairing (begun : Prop) (state : State) : Prop :=
  state.buffer.consumerPos = state.buffer.producerPos ∨
    WrappedDrained state.buffer ∧
      (begun → state.consumer = .peeking 0 ∨ ∃ cached, state.consumer = .drained cached)

theorem Invariant.repairing {state : State} (invariant : Invariant state 0 0) :
    Repairing False state := by
  rcases invariant.occupied.drained with meet | wrapped
  · exact .inl meet.symm
  · exact .inr ⟨wrapped, False.elim⟩

theorem Repairing.meet {state : State} {available : Nat} (repairing : Repairing True state)
    (ready : state.consumer = .ready available) :
    state.buffer.consumerPos = state.buffer.producerPos := by
  rcases repairing with meet | ⟨_, onTheWay⟩
  · exact meet
  · rcases onTheWay trivial with peeking | ⟨cached, drained⟩
    · simp [ready] at peeking
    · simp [ready] at drained

theorem Repairing.peekStep {state : State} {begun : Prop}
    (repairing : Repairing begun state) (invariant : Invariant state 0 0) :
    Repairing begun (peekStep state) := by
  rcases state with
    ⟨buffer, producer, consumer, committed, consumed, reported, committedSince⟩
  have facts : ConsumerFacts buffer 0 0 reported committedSince consumer :=
    invariant.consumer
  cases consumer with
  | ready available => exact repairing
  | peeking cached =>
      simp only [Ring.peekStep]
      rcases repairing with meet | ⟨wrapped, onTheWay⟩
      · split
        case isTrue before =>
          have behind : buffer.producerPos < buffer.consumerPos := (facts.2 before).1
          exact absurd meet behind.ne'
        case isFalse => exact .inl meet
      · have nothing : wrappingSub buffer.endOfRecordedSpace buffer.consumerPos = 0 := by
          rw [wrapped.endOfRecordedSpace, wrappingSub_self]
        simp only [nothing, Nat.lt_irrefl, if_false]
        split
        case isTrue => exact .inr ⟨wrapped, fun _ => .inr ⟨cached, rfl⟩⟩
        case isFalse notBefore =>
          refine .inr ⟨wrapped, ?_⟩
          intro hasBegun
          have moved := wrapped.consumerPos
          rcases onTheWay hasBegun with peeking | ⟨other, drained⟩
          · cases peeking
            exact absurd moved notBefore
          · cases drained
  | drained cached =>
      rcases repairing with meet | ⟨wrapped, _⟩
      · exact absurd meet facts.1.ne'
      · exact .inl wrapped.producerPos.symm
  | rolledOver cached =>
      rcases repairing with meet | ⟨wrapped, _⟩
      · exact .inl meet
      · exact absurd facts.1 wrapped.consumerPos.ne'

/-- What the steps of the consumer keep on a drained buffer whose owner is gone. -/
structure Abandoned (begun : Prop) (state : State) : Prop where
  reachable : system.Reachable state
  ownerGone : state.buffer.shouldDeallocate = true
  everything : state.consumed = state.committed.length
  repairing : Repairing begun state

theorem peekStep_keeps (state : State) :
    (peekStep state).buffer.shouldDeallocate = state.buffer.shouldDeallocate ∧
      (peekStep state).consumed = state.consumed ∧
      (peekStep state).committed = state.committed := by
  simp only [peekStep]
  split
  · exact ⟨rfl, rfl, rfl⟩
  · split
    · split <;> exact ⟨rfl, rfl, rfl⟩
    · exact ⟨rfl, rfl, rfl⟩
  · exact ⟨rfl, rfl, rfl⟩
  · exact ⟨rfl, rfl, rfl⟩

theorem Abandoned.step {before after : State} {label : Label} {begun : Prop}
    (abandoned : Abandoned begun before) (ofConsumer : label.OfConsumer)
    (taken : Step before label after) :
    Abandoned (begun ∨ label = .beginPeek) after := by
  have reached := abandoned.reachable.step taken
  rcases reachable_invariant abandoned.reachable with ⟨back, front, invariant⟩
  rcases invariant.consumed_iff.mp abandoned.everything with ⟨rfl, rfl⟩
  cases taken with
  | beginPeek available ready =>
      refine ⟨reached, abandoned.ownerGone, abandoned.everything, ?_⟩
      rcases abandoned.repairing with meet | ⟨wrapped, _⟩
      · exact .inl meet
      · exact .inr ⟨wrapped, fun _ => .inl (congrArg Consumer.peeking wrapped.producerPos)⟩
  | peek =>
      have keeps := peekStep_keeps before
      refine ⟨reached, ?_, ?_, ?_⟩
      · rw [keeps.1]
        exact abandoned.ownerGone
      · rw [keeps.2.1, keeps.2.2]
        exact abandoned.everything
      · simpa using abandoned.repairing.peekStep invariant
  | consume nbytes available ready within =>
      have facts := invariant.consumer
      rw [ready] at facts
      obtain rfl : nbytes = 0 := by
        have limit := facts.1
        omega
      refine ⟨reached, abandoned.ownerGone, abandoned.everything, ?_⟩
      rcases abandoned.repairing with meet | ⟨wrapped, onTheWay⟩
      · exact .inl meet
      · refine .inr ⟨wrapped, ?_⟩
        intro hasBegun
        simp [ready] at onTheWay
        simp [onTheWay] at hasBegun
  | retire =>
      refine ⟨reached, rfl, abandoned.everything, ?_⟩
      rcases abandoned.repairing with meet | ⟨wrapped, onTheWay⟩
      · exact .inl meet
      · have unchanged : WrappedDrained (Ring.retire before).buffer :=
          ⟨wrapped.producerPos, wrapped.consumerPos, wrapped.endOfRecordedSpace⟩
        exact .inr ⟨unchanged, fun hasBegun => onTheWay (by simpa using hasBegun)⟩
  | _ => exact False.elim ofConsumer

theorem Abandoned.run {start final : State} {labels : List Label}
    (abandoned : Abandoned False start)
    (run : (system.restrict fun _ label => label.OfConsumer).Run start labels final) :
    Abandoned (.beginPeek ∈ labels) final := by
  induction run with
  | nil => simpa using abandoned
  | @snoc labels before after label earlier taken induction =>
      have both := induction.step taken.1 taken.2
      simpa [eq_comm] using both

/-- `checkCanDelete` says yes only when every byte ever committed has been
consumed; and when that is so and the owner is gone, it says yes as soon as one
further `peek` has returned. -/
theorem deletion_loses_nothing {state : State} (reachable : system.Reachable state) :
    (state.buffer.checkCanDelete = true → state.consumed = state.committed.length) ∧
    (state.buffer.shouldDeallocate = true → state.consumed = state.committed.length →
      ∀ labels final,
        (system.restrict fun _ label => label.OfConsumer).Run state labels final →
        .beginPeek ∈ labels → (∃ available, final.consumer = .ready available) →
        final.buffer.checkCanDelete = true) := by
  rcases reachable_invariant reachable with ⟨back, front, invariant⟩
  constructor
  · intro deletable
    have meet := ((checkCanDelete_iff _).mp deletable).2
    exact invariant.consumed_iff.mpr (invariant.occupied.nothing_of_meet meet)
  · intro ownerGone everything labels final run begun returned
    rcases returned with ⟨available, ready⟩
    rcases invariant.consumed_iff.mp everything with ⟨rfl, rfl⟩
    have start : Abandoned False state :=
      ⟨reachable, ownerGone, everything, invariant.repairing⟩
    have abandoned := start.run run
    simp only [begun] at abandoned
    exact (checkCanDelete_iff _).mpr ⟨abandoned.ownerGone, abandoned.repairing.meet ready⟩

/-- Two bytes were committed and consumed; an attempt to reserve nearly the whole
storage has then wrapped the producer around, and the owner is gone. -/
def abandoned : State :=
  let committed := finish 2 0 (reserveProducerSpace 2 (initial 0))
  let drained := consumeStep 2 2 (peekStep (beginPeek committed))
  retire (reserveStep (reserveStep (reserveStep (reserveStep
    (tryReserve (stagingBufferSize - 1) drained)))))

theorem abandoned_reachable : system.Reachable abandoned := by
  have start : system.Reachable (initial 0) := .initial ⟨0, rfl⟩
  have committed := (start.step (.reserveProducerSpace _ 2 rfl)).step (.finish _ 2 0 rfl)
  have drained := ((committed.step (.beginPeek _ 0 rfl)).step (.peek _)).step
    (.consume _ 2 2 rfl (by decide))
  have attempted := drained.step (.tryReserve _ (stagingBufferSize - 1) rfl)
  exact ((((attempted.step (.reserve _)).step (.reserve _)).step (.reserve _)).step
    (.reserve _)).step (.retire _)

theorem deletion_loses_nothing_abandoned :
    abandoned.buffer.checkCanDelete = false ∧
      (peekStep (peekStep (peekStep (beginPeek abandoned)))).buffer.checkCanDelete = true := by
  have start : (system.restrict fun _ label => label.OfConsumer).Run abandoned []
      abandoned := .nil
  have looks : Label.OfConsumer .beginPeek := trivial
  have goesOn : Label.OfConsumer .peek := trivial
  have run := (((start.snoc ⟨looks, .beginPeek _ 0 rfl⟩).snoc ⟨goesOn, .peek _⟩).snoc
    ⟨goesOn, .peek _⟩).snoc ⟨goesOn, .peek _⟩
  exact ⟨rfl, (deletion_loses_nothing abandoned_reachable).2 rfl rfl _ _ run
    (by simp) ⟨0, rfl⟩⟩

end StaticLog.StagingBuffer.Ring
