import StaticLog.StagingBuffer.Lossless
import StaticLog.StagingBuffer.Ring

/-! # The steps of the ring against its methods

Taken without interruption, the steps of a call do what the method says; and
every interleaving of the lossless-queue model is one of the ring. -/

namespace StaticLog.StagingBuffer.Ring

open StaticLog.Execution

/-- How `reserveSpaceInternal` leaves the producer. -/
def returned (nbytes : Nat) : Option Nat → Producer
  | none => .idle
  | some pointer => .reserved nbytes pointer

/-- The steps of a call of `peek` when the producer does not move. -/
theorem peek_uninterrupted (state : State) :
    peekStep (peekStep (peekStep (beginPeek state))) =
      { state with
        buffer := state.buffer.peek.1
        consumer := .ready state.buffer.peek.2
        reported := some state.buffer.peek.2
        committedSince := false } := by
  rcases state with
    ⟨buffer, producer, consumer, committed, consumed, reported, committedSince⟩
  simp only [beginPeek, peek]
  by_cases behind : buffer.producerPos < buffer.consumerPos
  · by_cases some : 0 < wrappingSub buffer.endOfRecordedSpace buffer.consumerPos
    · simp [peekStep, report, behind, some]
    · simp [peekStep, report, behind, some]
  · simp [peekStep, report, behind]

/-- The steps of a call that must not block when the consumer does not move. -/
theorem reserveSpaceInternal_uninterrupted (nbytes : Nat) (state : State) :
    reserveStep (reserveStep (reserveStep (reserveStep (reserveStep
        (tryReserve nbytes state))))) =
      { state with
        buffer := (reserveSpaceInternal nbytes state.buffer).1
        producer := returned nbytes (reserveSpaceInternal nbytes state.buffer).2 } := by
  rcases state with
    ⟨buffer, producer, consumer, committed, consumed, reported, committedSince⟩
  simp only [tryReserve, reserveSpaceInternal, reservePass]
  by_cases full : buffer.minFreeSpace ≤ nbytes
  · by_cases ahead : buffer.consumerPos ≤ buffer.producerPos
    · by_cases room : nbytes < buffer.freeToEnd.minFreeSpace
      · simp [reserveStep, full, ahead, room, returned, Nat.not_le.mpr room]
        exact rfl
      · have short : buffer.freeToEnd.markEnd.minFreeSpace ≤ nbytes := Nat.le_of_not_lt room
        by_cases atStart : buffer.consumerPos = 0
        · simp [reserveStep, full, room, atStart, afterPass, short, returned]
        · let wrapped := buffer.freeToEnd.markEnd.wrapAround.freeToConsumer buffer.consumerPos
          by_cases still : wrapped.minFreeSpace ≤ nbytes
          · simp [wrapped, reserveStep, full, ahead, room, atStart, afterPass, still, returned]
          · simp [wrapped, reserveStep, full, ahead, room, atStart, afterPass, still, returned]
    · by_cases still : (buffer.freeToConsumer buffer.consumerPos).minFreeSpace ≤ nbytes
      · simp [reserveStep, full, ahead, afterPass, still, returned]
      · simp [reserveStep, full, ahead, afterPass, still, returned]
  · simp [reserveStep, full, returned]

/-! ## The lossless queue is a use of the ring -/

/-- Where the ring has a producer that logs blocks. -/
def producerOf (buffer : StagingBuffer) : Interleaving.Producer → Producer
  | .idle => .idle
  | .loop block => .loop block.length true
  | .cached block cachedConsumerPos => .cached block.length true cachedConsumerPos
  | .marked block cachedConsumerPos => .marked block.length true cachedConsumerPos
  | .wrapped block cachedConsumerPos => .wrapped block.length true cachedConsumerPos
  | .reserved block => .reserved block.length buffer.producerPos
  | .stored block => .reserved block.length buffer.producerPos

/-- Where the ring may have a consumer that takes one entry after each `peek`. -/
def ConsumerFollows : Consumer → Interleaving.Consumer → Prop
  | .ready _, .idle => True
  | .ready available, .available announced => available = announced
  | .ready available, .taken block => block.length ≤ available
  | .peeking cached, .peeking other => cached = other
  | .drained cached, .drained other => cached = other
  | .rolledOver cached, .rolledOver other => cached = other
  | _, _ => False

structure Follows (ring : State) (state : Interleaving.State) : Prop where
  buffer : ring.buffer = state.buffer
  producer : ring.producer = producerOf state.buffer state.producer
  consumer : ConsumerFollows ring.consumer state.consumer

/-- The consumer's steps do not move the producer. -/
theorem producerOf_congr {buffer changed : StagingBuffer} (producer : Interleaving.Producer)
    (producerPos : changed.producerPos = buffer.producerPos) :
    producerOf buffer producer = producerOf changed producer := by
  cases producer with
  | reserved block => simp only [producerOf, producerPos]
  | stored block => simp only [producerOf, producerPos]
  | _ => rfl

theorem follows_afterPeek (bytesAvailable : Nat) :
    ConsumerFollows (.ready bytesAvailable) (Interleaving.afterPeek bytesAvailable) := by
  rw [Interleaving.afterPeek]
  split
  · exact rfl
  · trivial

theorem Follows.producerStep {ring : State} {state : Interleaving.State}
    (follows : Follows ring state) (next : Block) :
    ∃ label after, Step ring label after ∧
      Follows after (Interleaving.producerStep next state) := by
  rcases ring with
    ⟨buffer, producer, consumer, committed, consumed, reported, committedSince⟩
  rcases state with ⟨sameBuffer, other, otherConsumer, blocks, blocksRead, count⟩
  rcases follows with ⟨equal, at_phase, consumerFollows⟩
  have same : buffer = sameBuffer := equal
  subst same
  have phase : producer = producerOf buffer other := at_phase
  subst phase
  cases other with
  | idle =>
      refine ⟨_, _, .reserveProducerSpace _ next.length rfl, rfl, ?_, consumerFollows⟩
      simp only [reserveProducerSpace, Interleaving.producerStep]
      split
      · rfl
      · rfl
  | loop block =>
      refine ⟨_, _, .reserve _, ?_⟩
      simp only [reserveStep, producerOf, Interleaving.producerStep]
      split
      · exact ⟨rfl, rfl, consumerFollows⟩
      · exact ⟨rfl, rfl, consumerFollows⟩
  | cached block cached =>
      refine ⟨_, _, .reserve _, ?_⟩
      simp only [reserveStep, producerOf, Interleaving.producerStep]
      split
      · split
        · exact ⟨rfl, rfl, consumerFollows⟩
        · exact ⟨rfl, rfl, consumerFollows⟩
      · exact ⟨rfl, rfl, consumerFollows⟩
  | marked block cached =>
      refine ⟨_, _, .reserve _, ?_⟩
      simp only [reserveStep, producerOf, Interleaving.producerStep]
      split
      · exact ⟨rfl, rfl, consumerFollows⟩
      · exact ⟨rfl, rfl, consumerFollows⟩
  | wrapped block cached => exact ⟨_, _, .reserve _, rfl, rfl, consumerFollows⟩
  | reserved block =>
      exact ⟨_, _, .store _ block _ _ rfl (Nat.le_refl _), rfl, rfl, consumerFollows⟩
  | stored block => exact ⟨_, _, .finish _ _ _ rfl, rfl, rfl, consumerFollows⟩

theorem Follows.consumerStep {ring : State} {state : Interleaving.State}
    {old back front : List Block} (follows : Follows ring state)
    (invariant : Interleaving.Invariant state old back front) :
    ∃ labels after, system.Run ring labels after ∧
      Follows after (Interleaving.consumerStep state) := by
  have facts := invariant.consumer
  have sizeOfFirst {rest : List Block} {block : Block} (first : back = block :: rest) :
      Interleaving.firstEntrySize state = block.length :=
    Interleaving.Invariant.firstEntrySize (first ▸ invariant)
  have one {label : Label} {after : State} (taken : Step ring label after) :
      system.Run ring [label] after := .snoc .nil taken
  rcases ring with
    ⟨buffer, producer, consumer, committed, consumed, reported, committedSince⟩
  rcases state with ⟨sameBuffer, other, otherConsumer, blocks, blocksRead, count⟩
  rcases follows with ⟨equal, producerFollows, at_phase⟩
  have same : buffer = sameBuffer := equal
  subst same
  have phase : ConsumerFollows consumer otherConsumer := at_phase
  cases otherConsumer with
  | idle =>
      cases consumer with
      | ready available =>
          exact ⟨_, _, one (.beginPeek _ available rfl), rfl, producerFollows, rfl⟩
      | _ => exact False.elim phase
  | peeking cached =>
      cases consumer with
      | peeking other =>
          obtain rfl : other = cached := phase
          refine ⟨_, _, one (.peek _), ?_⟩
          simp only [peekStep, Interleaving.consumerStep]
          split
          · split
            · exact ⟨rfl, producerFollows, rfl⟩
            · exact ⟨rfl, producerFollows, rfl⟩
          · exact ⟨rfl, producerFollows, follows_afterPeek _⟩
      | _ => exact False.elim phase
  | drained cached =>
      cases consumer with
      | drained other =>
          obtain rfl : other = cached := phase
          exact ⟨_, _, one (.peek _), rfl,
            producerFollows.trans (producerOf_congr _ rfl), rfl⟩
      | _ => exact False.elim phase
  | rolledOver cached =>
      cases consumer with
      | rolledOver other =>
          obtain rfl : other = cached := phase
          exact ⟨_, _, one (.peek _), rfl, producerFollows, follows_afterPeek _⟩
      | _ => exact False.elim phase
  | available announced =>
      cases consumer with
      | ready available =>
          obtain rfl : available = announced := phase
          rcases Interleaving.first_of_available facts with ⟨block, rest, first, complete⟩
          refine ⟨[], _, .nil, rfl, producerFollows, ?_⟩
          simp only [Interleaving.consumerStep, ConsumerFollows, sizeOfFirst first]
          rwa [Memory.slice_length]
      | _ => exact False.elim phase
  | taken block =>
      cases consumer with
      | ready available =>
          exact ⟨_, _, one (.consume _ block.length available rfl phase), rfl,
            producerFollows.trans (producerOf_congr _ rfl), trivial⟩
      | _ => exact False.elim phase

/-- Every state of the lossless queue is a state of the ring. -/
theorem lossless_queue_uses_ring {state : Interleaving.State}
    (reachable : Interleaving.system.Reachable state) :
    ∃ ring, system.Reachable ring ∧ Follows ring state := by
  induction reachable with
  | initial starts =>
      rcases starts with ⟨bufferId, rfl⟩
      exact ⟨initial bufferId, .initial ⟨bufferId, rfl⟩, rfl, rfl, trivial⟩
  | step earlier taken induction =>
      rcases induction with ⟨ring, reached, follows⟩
      cases taken with
      | producer next positive fits =>
          rcases follows.producerStep next with ⟨label, after, step, follows⟩
          exact ⟨after, reached.step step, follows⟩
      | consumer =>
          rcases Interleaving.refinesChannel.invariant earlier with
            ⟨old, back, front, invariant⟩
          rcases follows.consumerStep invariant with ⟨labels, after, run, follows⟩
          exact ⟨after, reached.run run, follows⟩

end StaticLog.StagingBuffer.Ring
