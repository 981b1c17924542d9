import StaticLog.StagingBuffer.Interleaving

/-! # The staging buffer is a lossless queue of blocks

The invariant of the interleaved system says where the blocks lie that are
committed and not yet consumed, and what each party's old copy of the other's
cursor still tells it. It makes the system a refinement of a first-in first-out
channel. -/

namespace StaticLog.StagingBuffer.Interleaving

open Memory StaticLog.Execution

/-- `stop` is where some leading part of `blocks`, laid from `start` on, ends. -/
def Boundary (start : Nat) (blocks : List Block) (stop : Nat) : Prop :=
  ∃ seen later, blocks = seen ++ later ∧ stop = start + seen.flatten.length

theorem Boundary.snoc {start stop : Nat} {blocks : List Block}
    (boundary : Boundary start blocks stop) (block : Block) :
    Boundary start (blocks ++ [block]) stop := by
  rcases boundary with ⟨seen, later, rfl, stops⟩
  exact ⟨seen, later ++ [block], List.append_assoc _ _ _, stops⟩

theorem Boundary.of_laid {memory : Memory UInt8} {start stop : Nat}
    {blocks : List Block} (laid : Laid memory start blocks stop) :
    Boundary start blocks stop :=
  ⟨blocks, [], (List.append_nil _).symm, laid.stop_eq⟩

/-- What a consumer position that the producer read earlier still says. -/
structure OldConsumerPos (buffer : StagingBuffer) (cached : Nat) : Prop where
  bounded : cached ≤ stagingBufferSize
  ahead : cached ≤ buffer.producerPos →
    cached ≤ buffer.consumerPos ∧ buffer.consumerPos ≤ buffer.producerPos
  behind : buffer.producerPos < buffer.consumerPos → cached ≤ buffer.consumerPos

/-- What holds of the buffer at each point of the producer's code. -/
def ProducerFacts (buffer : StagingBuffer) : Producer → Prop
  | .idle => FreeSpaceSound buffer
  | .loop block => FreeSpaceSound buffer ∧ block ≠ []
  | .cached block cached =>
      FreeSpaceSound buffer ∧ block ≠ [] ∧ OldConsumerPos buffer cached
  | .marked block cached =>
      FreeSpaceSound buffer ∧ block ≠ [] ∧ cached ≤ buffer.consumerPos ∧
        buffer.consumerPos ≤ buffer.producerPos ∧
        buffer.endOfRecordedSpace = buffer.producerPos
  | .wrapped block cached =>
      -- `min_free_space_` is stale here and not read.
      block ≠ [] ∧ buffer.producerPos = 0 ∧ cached ≤ stagingBufferSize ∧
        (buffer.producerPos < buffer.consumerPos → cached ≤ buffer.consumerPos)
  | .reserved block =>
      FreeSpaceSound buffer ∧ block ≠ [] ∧ block.length < buffer.minFreeSpace
  | .stored block =>
      FreeSpaceSound buffer ∧ block ≠ [] ∧ block.length < buffer.minFreeSpace ∧
        slice buffer.storage buffer.producerPos block.length = block

/-- What holds of the buffer and its blocks at each point of the consumer's
code. -/
def ConsumerFacts (buffer : StagingBuffer) (back front : List Block) :
    Consumer → Prop
  | .idle => True
  | .peeking cached =>
      (buffer.consumerPos ≤ cached → Boundary buffer.consumerPos back cached) ∧
        (cached < buffer.consumerPos →
          buffer.producerPos < buffer.consumerPos ∧ Boundary 0 front cached)
  | .drained cached =>
      buffer.producerPos < buffer.consumerPos ∧
        buffer.consumerPos = buffer.endOfRecordedSpace ∧ Boundary 0 front cached
  | .rolledOver cached => buffer.consumerPos = 0 ∧ Boundary 0 back cached
  | .available bytesAvailable =>
      0 < bytesAvailable ∧
        Boundary buffer.consumerPos back (buffer.consumerPos + bytesAvailable)
  | .taken block => ∃ rest, back = block :: rest

/-- The block that has been read and is not yet consumed. -/
def Consumer.held : Consumer → List Block
  | .taken block => [block]
  | _ => []

structure Invariant (state : State) (old back front : List Block) : Prop where
  layout : Layout state.buffer back front
  committed : state.committed = old ++ (back ++ front)
  consumed : state.consumed = old.length
  blocksRead : state.blocksRead = old ++ state.consumer.held
  producer : ProducerFacts state.buffer state.producer
  consumer : ConsumerFacts state.buffer back front state.consumer

/-! ## What one party's step means to the other -/

/-- The consumer does not notice a step of the producer that moves no cursor. -/
theorem ConsumerFacts.congr {buffer changed : StagingBuffer}
    {back front : List Block} {consumer : Consumer}
    (facts : ConsumerFacts buffer back front consumer)
    (producerPos : changed.producerPos = buffer.producerPos)
    (consumerPos : changed.consumerPos = buffer.consumerPos)
    (endOfRecordedSpace : buffer.producerPos < buffer.consumerPos →
      changed.endOfRecordedSpace = buffer.endOfRecordedSpace) :
    ConsumerFacts changed back front consumer := by
  cases consumer with
  | idle => trivial
  | peeking cached =>
      simpa only [ConsumerFacts, producerPos, consumerPos] using facts
  | drained cached =>
      refine ⟨by rw [producerPos, consumerPos]; exact facts.1, ?_, facts.2.2⟩
      rw [consumerPos, endOfRecordedSpace facts.1]
      exact facts.2.1
  | rolledOver cached => simpa only [ConsumerFacts, consumerPos] using facts
  | available bytesAvailable =>
      simpa only [ConsumerFacts, consumerPos] using facts
  | taken block => exact facts

/-- While the producer wraps around, the consumer is between the start and the
old producer position. -/
theorem ConsumerFacts.wrapAround {buffer : StagingBuffer} {back front : List Block}
    {consumer : Consumer} (facts : ConsumerFacts buffer back front consumer)
    (ahead : buffer.consumerPos ≤ buffer.producerPos)
    (moved : buffer.consumerPos ≠ 0) :
    ConsumerFacts buffer.wrapAround back front consumer := by
  cases consumer with
  | idle => trivial
  | peeking cached =>
      refine ⟨facts.1, ?_⟩
      intro before
      exact absurd (facts.2 before).1 (Nat.not_lt.mpr ahead)
  | drained cached => exact absurd facts.1 (Nat.not_lt.mpr ahead)
  | rolledOver cached => exact absurd facts.1 moved
  | available bytesAvailable => exact facts
  | taken block => exact facts

/-- A block committed behind the back part. -/
theorem ConsumerFacts.commitBack {buffer : StagingBuffer} {back front : List Block}
    {consumer : Consumer} (facts : ConsumerFacts buffer back front consumer)
    (ahead : buffer.consumerPos ≤ buffer.producerPos) (block : Block) :
    ConsumerFacts (buffer.finishReservation block.length) (back ++ [block]) front
      consumer := by
  cases consumer with
  | idle => trivial
  | peeking cached =>
      refine ⟨fun within => (facts.1 within).snoc block, ?_⟩
      intro before
      exact absurd (facts.2 before).1 (Nat.not_lt.mpr ahead)
  | drained cached => exact absurd facts.1 (Nat.not_lt.mpr ahead)
  | rolledOver cached => exact ⟨facts.1, facts.2.snoc block⟩
  | available bytesAvailable => exact ⟨facts.1, facts.2.snoc block⟩
  | taken first =>
      rcases facts with ⟨rest, rfl⟩
      exact ⟨rest ++ [block], rfl⟩

/-- A block committed behind the front part, short of the consumer. -/
theorem ConsumerFacts.commitFront {buffer : StagingBuffer} {back front : List Block}
    {consumer : Consumer} (facts : ConsumerFacts buffer back front consumer)
    (block : Block)
    (short : buffer.producerPos + block.length < buffer.consumerPos) :
    ConsumerFacts (buffer.finishReservation block.length) back (front ++ [block])
      consumer := by
  cases consumer with
  | idle => trivial
  | peeking cached =>
      exact ⟨facts.1, fun before => ⟨short, (facts.2 before).2.snoc block⟩⟩
  | drained cached => exact ⟨short, facts.2.1, facts.2.2.snoc block⟩
  | rolledOver cached => exact facts
  | available bytesAvailable => exact facts
  | taken first => exact facts

/-- The producer does not notice that the consumer finished an entry. -/
theorem ProducerFacts.consume {buffer : StagingBuffer} {back front : List Block}
    {block : Block} {producer : Producer} (facts : ProducerFacts buffer producer)
    (layout : Layout buffer (block :: back) front) :
    ProducerFacts (buffer.consume block.length) producer := by
  have stays : buffer.consumerPos ≤ buffer.producerPos →
      buffer.consumerPos + block.length ≤ buffer.producerPos :=
    fun ahead => (layout.flat ahead).1.2.start_le
  cases producer with
  | idle => exact FreeSpaceSound.consume facts layout
  | loop waiting => exact ⟨FreeSpaceSound.consume facts.1 layout, facts.2⟩
  | cached waiting cached =>
      refine ⟨FreeSpaceSound.consume facts.1 layout, facts.2.1,
        facts.2.2.bounded, ?_, ?_⟩
      · intro before
        have old := facts.2.2.ahead before
        have within := stays old.2
        simp only [StagingBuffer.consume]
        omega
      · intro behind
        simp only [StagingBuffer.consume] at behind ⊢
        have old := facts.2.2.behind
        omega
  | marked waiting cached =>
      have within := stays facts.2.2.2.1
      refine ⟨FreeSpaceSound.consume facts.1 layout, facts.2.1, ?_, within,
        facts.2.2.2.2⟩
      have old := facts.2.2.1
      simp only [StagingBuffer.consume]
      omega
  | wrapped waiting cached =>
      refine ⟨facts.1, facts.2.1, facts.2.2.1, ?_⟩
      intro behind
      simp only [StagingBuffer.consume] at behind ⊢
      have old := facts.2.2.2
      omega
  | reserved waiting => exact ⟨FreeSpaceSound.consume facts.1 layout, facts.2⟩
  | stored waiting => exact ⟨FreeSpaceSound.consume facts.1 layout, facts.2⟩

/-- Nor that it rolled over. -/
theorem ProducerFacts.rollOver {buffer : StagingBuffer} {producer : Producer}
    (facts : ProducerFacts buffer producer)
    (behind : buffer.producerPos < buffer.consumerPos) :
    ProducerFacts buffer.rollOver producer := by
  cases producer with
  | idle => exact FreeSpaceSound.rollOver facts
  | loop waiting => exact ⟨FreeSpaceSound.rollOver facts.1, facts.2⟩
  | cached waiting cached =>
      refine ⟨FreeSpaceSound.rollOver facts.1, facts.2.1, facts.2.2.bounded, ?_, ?_⟩
      · intro before
        exact absurd (facts.2.2.ahead before).2 (Nat.not_le.mpr behind)
      · intro impossible
        exact absurd impossible (Nat.not_lt_zero _)
  | marked waiting cached =>
      exact absurd facts.2.2.2.1 (Nat.not_le.mpr behind)
  | wrapped waiting cached =>
      exact ⟨facts.1, facts.2.1, facts.2.2.1,
        fun impossible => absurd impossible (Nat.not_lt_zero _)⟩
  | reserved waiting => exact ⟨FreeSpaceSound.rollOver facts.1, facts.2⟩
  | stored waiting => exact ⟨FreeSpaceSound.rollOver facts.1, facts.2⟩

/-! ## The steps keep the invariant -/

theorem Invariant.initial (bufferId : Nat) :
    Invariant (initial bufferId) [] [] [] where
  layout := Layout.create bufferId
  committed := rfl
  consumed := rfl
  blocksRead := rfl
  producer := FreeSpaceSound.create bufferId
  consumer := trivial

/-- A step of the producer that changes neither the blocks nor the cursors. -/
theorem Invariant.producerMoves {state : State} {old back front : List Block}
    (invariant : Invariant state old back front) {changed : StagingBuffer}
    {producer : Producer} (facts : ProducerFacts changed producer)
    (producerPos : changed.producerPos = state.buffer.producerPos)
    (consumerPos : changed.consumerPos = state.buffer.consumerPos)
    (endOfRecordedSpace : state.buffer.producerPos < state.buffer.consumerPos →
      changed.endOfRecordedSpace = state.buffer.endOfRecordedSpace)
    (storage : changed.storage = state.buffer.storage) :
    Invariant { state with buffer := changed, producer := producer }
      old back front where
  layout := invariant.layout.congr producerPos consumerPos
    (fun behind => endOfRecordedSpace (by rwa [producerPos, consumerPos] at behind))
    storage
  committed := invariant.committed
  consumed := invariant.consumed
  blocksRead := invariant.blocksRead
  producer := facts
  consumer := invariant.consumer.congr producerPos consumerPos endOfRecordedSpace

theorem Invariant.producerStep {state : State} {old back front : List Block}
    (invariant : Invariant state old back front) {next : Block} (nonempty : next ≠ []) :
    ∃ back front, Invariant (producerStep next state) old back front := by
  rcases state with ⟨buffer, producer, consumer, committed, blocksRead, consumed⟩
  have layout : Layout buffer back front := invariant.layout
  have history : committed = old ++ (back ++ front) := invariant.committed
  have facts : ProducerFacts buffer producer := invariant.producer
  cases producer with
  | idle =>
      have sound : FreeSpaceSound buffer.countAllocation :=
        FreeSpaceSound.congr facts rfl rfl rfl
      refine ⟨back, front, invariant.producerMoves ?_ rfl rfl (fun _ => rfl) rfl⟩
      by_cases fast : next.length < buffer.minFreeSpace
      · rw [if_pos fast]
        exact ⟨sound, nonempty, fast⟩
      · rw [if_neg fast]
        exact ⟨sound, nonempty⟩
  | loop block =>
      simp only [Interleaving.producerStep]
      split
      · refine ⟨back, front, invariant.producerMoves ?_ rfl rfl (fun _ => rfl) rfl⟩
        exact ⟨facts.1, facts.2, layout.consumerPos_le,
          fun ahead => ⟨Nat.le_refl _, ahead⟩, fun _ => Nat.le_refl _⟩
      · refine ⟨back, front, invariant.producerMoves ?_ rfl rfl (fun _ => rfl) rfl⟩
        exact ⟨facts.1, facts.2, by omega⟩
  | cached block cached =>
      rcases facts with ⟨sound, blockNonempty, oldPos⟩
      simp only [Interleaving.producerStep]
      split
      case isTrue before =>
        have ahead := oldPos.ahead before
        have toEnd := FreeSpaceSound.freeToEnd layout.inBounds ahead.2
        split
        case isTrue room =>
          exact ⟨back, front, invariant.producerMoves ⟨toEnd, blockNonempty, room⟩
            rfl rfl (fun _ => rfl) rfl⟩
        case isFalse =>
          refine ⟨back, front, invariant.producerMoves
            ⟨toEnd.congr rfl rfl rfl, blockNonempty, ahead.1, ahead.2, rfl⟩
            rfl rfl ?_ rfl⟩
          intro behind
          exact absurd behind (Nat.not_lt.mpr ahead.2)
      case isFalse behind =>
        have toConsumer := FreeSpaceSound.freeToConsumer
          (Nat.le_of_not_le behind) oldPos.bounded oldPos.behind
        exact ⟨back, front, invariant.producerMoves ⟨toConsumer, blockNonempty⟩
          rfl rfl (fun _ => rfl) rfl⟩
  | marked block cached =>
      rcases facts with ⟨sound, blockNonempty, old, ahead, marked⟩
      simp only [Interleaving.producerStep]
      split
      case isTrue notAtStart =>
        have moved : buffer.consumerPos ≠ 0 := by omega
        exact ⟨back, front, layout.wrapAround ahead marked moved,
          invariant.committed, invariant.consumed, invariant.blocksRead,
          ⟨blockNonempty, rfl, old.trans layout.consumerPos_le, fun _ => old⟩,
          invariant.consumer.wrapAround ahead moved⟩
      case isFalse =>
        exact ⟨back, front, invariant.producerMoves ⟨sound, blockNonempty⟩
          rfl rfl (fun _ => rfl) rfl⟩
  | wrapped block cached =>
      rcases facts with ⟨blockNonempty, atStart, bounded, old⟩
      have toConsumer := FreeSpaceSound.freeToConsumer
        (atStart ▸ Nat.zero_le _) bounded old
      exact ⟨back, front, invariant.producerMoves ⟨toConsumer, blockNonempty⟩
        rfl rfl (fun _ => rfl) rfl⟩
  | reserved block =>
      rcases facts with ⟨sound, blockNonempty, granted⟩
      exact ⟨back, front, layout.store sound granted, invariant.committed,
        invariant.consumed, invariant.blocksRead,
        ⟨sound.congr rfl rfl rfl, blockNonempty, granted, Layout.slice_store _ _⟩,
        invariant.consumer.congr rfl rfl (fun _ => rfl)⟩
  | stored block =>
      rcases facts with ⟨sound, blockNonempty, granted, stored⟩
      have spare := sound.finishReservation granted
      rcases layout.finishReservation sound granted blockNonempty stored with
        ⟨ahead, grown⟩ | ⟨behind, grown⟩
      · refine ⟨back ++ [block], front, grown, ?_, invariant.consumed,
          invariant.blocksRead, spare, invariant.consumer.commitBack ahead block⟩
        have nothing : front = [] := (layout.flat ahead).2
        simp [Interleaving.producerStep, history, nothing]
      · have short : buffer.producerPos + block.length < buffer.consumerPos := by
          have limit := sound.toConsumer behind
          omega
        refine ⟨back, front ++ [block], grown, ?_, invariant.consumed,
          invariant.blocksRead, spare, invariant.consumer.commitFront block short⟩
        simp [Interleaving.producerStep, history]

/-- What `peek` reports leads to the first blocks of the back part. -/
theorem afterPeek_facts {buffer : StagingBuffer} {back front : List Block}
    {stop : Nat} (within : buffer.consumerPos ≤ stop)
    (boundary : Boundary buffer.consumerPos back stop) :
    ConsumerFacts buffer back front
      (afterPeek (wrappingSub stop buffer.consumerPos)) := by
  rw [wrappingSub_of_le within, afterPeek]
  by_cases some : 0 < stop - buffer.consumerPos
  · rw [if_pos some]
    refine ⟨some, ?_⟩
    rwa [Nat.add_sub_cancel' within]
  · rw [if_neg some]
    trivial

theorem afterPeek_held (bytesAvailable : Nat) :
    (afterPeek bytesAvailable).held = [] := by
  rw [afterPeek]
  split <;> rfl

/-- A step of the consumer inside `peek` that leaves the buffer alone. -/
theorem Invariant.consumerMoves {state : State} {old back front : List Block}
    (invariant : Invariant state old back front) {consumer : Consumer}
    (facts : ConsumerFacts state.buffer back front consumer)
    (before : state.consumer.held = []) (after : consumer.held = []) :
    Invariant { state with consumer := consumer } old back front where
  layout := invariant.layout
  committed := invariant.committed
  consumed := invariant.consumed
  blocksRead := by simpa [before, after] using invariant.blocksRead
  producer := invariant.producer
  consumer := facts

/-- Where bytes are available, the first block is complete. -/
theorem first_of_available {buffer : StagingBuffer} {back front : List Block}
    {bytesAvailable : Nat}
    (facts : ConsumerFacts buffer back front (.available bytesAvailable)) :
    ∃ block rest, back = block :: rest ∧ block.length ≤ bytesAvailable := by
  rcases facts with ⟨positive, seen, later, rfl, stops⟩
  have seenLength : bytesAvailable = seen.flatten.length := Nat.add_left_cancel stops
  cases seen with
  | nil =>
      rw [seenLength] at positive
      exact absurd positive (Nat.lt_irrefl 0)
  | cons block seen =>
      refine ⟨block, seen ++ later, rfl, ?_⟩
      rw [seenLength, List.flatten_cons, List.length_append]
      exact Nat.le_add_right _ _

/-- The size the consumer passes to `consume` is that of the first block. -/
theorem Invariant.firstEntrySize {state : State} {old rest front : List Block}
    {block : Block} (invariant : Invariant state old (block :: rest) front) :
    firstEntrySize state = block.length := by
  rw [Interleaving.firstEntrySize, invariant.committed, invariant.consumed]
  simp

theorem Invariant.consumerStep {state : State} {old back front : List Block}
    (invariant : Invariant state old back front) :
    ∃ old back front, Invariant (consumerStep state) old back front := by
  have sizeOfFirst {rest : List Block} {block : Block} (first : back = block :: rest) :
      Interleaving.firstEntrySize state = block.length :=
    Invariant.firstEntrySize (first ▸ invariant)
  rcases state with ⟨buffer, producer, consumer, committed, blocksRead, consumed⟩
  have layout : Layout buffer back front := invariant.layout
  have facts : ConsumerFacts buffer back front consumer := invariant.consumer
  have history : committed = old ++ (back ++ front) := invariant.committed
  have count : consumed = old.length := invariant.consumed
  cases consumer with
  | idle =>
      refine ⟨old, back, front, invariant.consumerMoves ⟨?_, ?_⟩ rfl rfl⟩
      · exact fun ahead => Boundary.of_laid (layout.flat ahead).1
      · exact fun behind =>
          ⟨behind, Boundary.of_laid (layout.wrapped behind).2.2⟩
  | peeking cached =>
      simp only [Interleaving.consumerStep]
      split
      case isTrue before =>
        rcases facts.2 before with ⟨behind, frontBoundary⟩
        have region := layout.wrapped behind
        have ordered := region.2.1.start_le
        rw [wrappingSub_of_le ordered]
        split
        case isTrue some =>
          refine ⟨old, back, front, invariant.consumerMoves ⟨some, ?_⟩ rfl rfl⟩
          rw [Nat.add_sub_cancel' ordered]
          exact Boundary.of_laid region.2.1
        case isFalse none =>
          have drained : buffer.consumerPos = buffer.endOfRecordedSpace := by omega
          exact ⟨old, back, front, invariant.consumerMoves
            ⟨behind, drained, frontBoundary⟩ rfl rfl⟩
      case isFalse notBefore =>
        have within := Nat.le_of_not_lt notBefore
        exact ⟨old, back, front, invariant.consumerMoves
          (afterPeek_facts within (facts.1 within)) rfl (afterPeek_held _)⟩
  | drained cached =>
      rcases facts with ⟨behind, drained, frontBoundary⟩
      rcases layout.rollOver behind drained with ⟨nothing, rolled⟩
      refine ⟨old, front, [], rolled, ?_, invariant.consumed,
        invariant.blocksRead, invariant.producer.rollOver behind,
        rfl, frontBoundary⟩
      simpa [Interleaving.consumerStep, nothing] using history
  | rolledOver cached =>
      rcases facts with ⟨atStart, backBoundary⟩
      refine ⟨old, back, front, invariant.consumerMoves
        (afterPeek_facts (atStart ▸ Nat.zero_le _) ?_) rfl (afterPeek_held _)⟩
      rwa [atStart]
  | available bytesAvailable =>
      rcases first_of_available facts with ⟨block, rest, rfl, _⟩
      refine ⟨old, block :: rest, front, layout, invariant.committed,
        invariant.consumed, ?_, invariant.producer, rest, ?_⟩
      · have nothingHeld := invariant.blocksRead
        simpa [Interleaving.consumerStep, Consumer.held] using nothingHeld
      · simp only [sizeOfFirst rfl, layout.slice_head]
  | taken block =>
      rcases facts with ⟨rest, rfl⟩
      refine ⟨old ++ [block], rest, front, layout.consume, ?_, ?_, ?_,
        invariant.producer.consume layout, trivial⟩
      · simpa [Interleaving.consumerStep] using history
      · simp [Interleaving.consumerStep, count]
      · simpa [Interleaving.consumerStep, Consumer.held] using invariant.blocksRead

/-! ## Refinement -/

/-- Seen through its histories, the staging buffer is a lossless channel: the
step that finishes a reservation sends, the step that reads an entry receives. -/
def refinesChannel : Refinement system (Channel.system Block) where
  view state := ⟨state.committed, state.blocksRead⟩
  Invariant state := ∃ old back front, Invariant state old back front
  initial := by
    rintro state ⟨bufferId, rfl⟩
    exact ⟨⟨[], [], [], Invariant.initial bufferId⟩, rfl, rfl⟩
  keeps := by
    rintro before label after ⟨old, back, front, invariant⟩ step
    cases step with
    | producer next positive fits =>
        exact ⟨old, invariant.producerStep (List.length_pos_iff.mp positive)⟩
    | consumer => exact invariant.consumerStep
  simulates := by
    rintro before label after ⟨old, back, front, invariant⟩ step
    cases step with
    | producer next positive fits =>
        rcases before with ⟨buffer, producer, consumer, committed, blocksRead, consumed⟩
        cases producer with
        | stored block => exact .inr ⟨.send block, .send _ block⟩
        | idle => exact .inl rfl
        | wrapped block cached => exact .inl rfl
        | reserved block => exact .inl rfl
        | loop block =>
            left
            simp only [producerStep]
            split <;> rfl
        | cached block cached =>
            left
            simp only [producerStep]
            split
            · split <;> rfl
            · rfl
        | marked block cached =>
            left
            simp only [producerStep]
            split <;> rfl
    | consumer =>
        have facts := invariant.consumer
        have sizeOfFirst {rest : List Block} {block : Block}
            (first : back = block :: rest) : firstEntrySize before = block.length :=
          Invariant.firstEntrySize (first ▸ invariant)
        rcases before with ⟨buffer, producer, consumer, committed, blocksRead, consumed⟩
        cases consumer with
        | available bytesAvailable =>
            rcases first_of_available facts with ⟨block, rest, rfl, _⟩
            right
            have nothingHeld : blocksRead = old := by
              simpa [Consumer.held] using invariant.blocksRead
            refine ⟨.receive block, ?_⟩
            simp only [consumerStep, sizeOfFirst rfl, invariant.layout.slice_head]
            refine Channel.Step.receive _ block (rest ++ front) ?_
            simpa [nothingHeld] using invariant.committed
        | peeking cached =>
            left
            simp only [consumerStep]
            split
            · split <;> rfl
            · rfl
        | idle => exact .inl rfl
        | drained cached => exact .inl rfl
        | rolledOver cached => exact .inl rfl
        | taken block => exact .inl rfl

/-- The staging buffer loses, duplicates, reorders, splits and alters no block:
whatever the interleaving, the blocks read are a leading part of the blocks
committed, the block that `peek` announces is completely there, and a block that
was read is unaltered until it is consumed. -/
theorem staging_buffer_lossless {state : State} (reachable : system.Reachable state) :
    state.blocksRead <+: state.committed ∧
    (∀ bytesAvailable, state.consumer = .available bytesAvailable →
      ∃ block later, state.committed = state.blocksRead ++ block :: later ∧
        block.length ≤ bytesAvailable ∧
        slice state.buffer.storage state.buffer.consumerPos block.length = block) ∧
    (∀ block, state.consumer = .taken block →
      slice state.buffer.storage state.buffer.consumerPos block.length = block) := by
  rcases refinesChannel.invariant reachable with ⟨old, back, front, invariant⟩
  have facts := invariant.consumer
  refine ⟨Channel.received_isPrefix (refinesChannel.reachable_view reachable), ?_, ?_⟩
  · intro bytesAvailable at_available
    rw [at_available] at facts
    rcases first_of_available facts with ⟨block, rest, rfl, complete⟩
    refine ⟨block, rest ++ front, ?_, complete, invariant.layout.slice_head⟩
    have nothingHeld : state.blocksRead = old := by
      simpa [at_available, Consumer.held] using invariant.blocksRead
    simpa [nothingHeld] using invariant.committed
  · intro block at_taken
    rw [at_taken] at facts
    rcases facts with ⟨rest, rfl⟩
    exact invariant.layout.slice_head

theorem reachable_repeat {state : State} (reachable : system.Reachable state) {next : Block}
    (nonempty : 1 ≤ next.length) (small : next.length < stagingBufferSize) (count : Nat) :
    system.Reachable (Nat.repeat (producerStep next) count state) := by
  induction count with
  | zero => exact reachable
  | succ count induction => exact induction.step (.producer _ next nonempty small)

/-- Three blocks are logged, of which the first nearly fills the storage. When it has been
read, the last one is stored at the start again, and the consumer has found the second. -/
def wrapped (first : Block) : State :=
  let logged := Nat.repeat (producerStep first) 3 (initial 0)
  let firstRead := Nat.repeat consumerStep 4 logged
  let second := Nat.repeat (producerStep [1, 2]) 3 firstRead
  Nat.repeat consumerStep 2 (Nat.repeat (producerStep [3, 4, 5]) 8 second)

section Wrapped

variable {first : Block} (sized : first.length = stagingBufferSize - 4)
include sized

theorem wrapped_reachable : system.Reachable (wrapped first) := by
  have start : system.Reachable (initial 0) := .initial ⟨0, rfl⟩
  have nonempty : 1 ≤ first.length := by
    rw [sized]
    decide
  have small : first.length < stagingBufferSize := by
    rw [sized]
    decide
  have logged := reachable_repeat start nonempty small 3
  have firstRead := (((logged.step (.consumer _)).step (.consumer _)).step
    (.consumer _)).step (.consumer _)
  have second := @reachable_repeat _ firstRead [1, 2] (by decide) (by decide) 3
  have third := @reachable_repeat _ second [3, 4, 5] (by decide) (by decide) 8
  exact (third.step (.consumer _)).step (.consumer _)

/-- The producer is behind the consumer, and two blocks are still unread. -/
theorem wrapped_eq :
    (wrapped first).committed = [first, [1, 2], [3, 4, 5]] ∧
      (wrapped first).blocksRead = [first] ∧
      (wrapped first).buffer.producerPos < (wrapped first).buffer.consumerPos ∧
      (wrapped first).consumer = .available 2 := by
  have size : first.length = 1048572 := sized
  have stored : slice (overwrite (fun _ => 0) 0 first) 0 1048572 = first := by
    rw [← size]
    exact slice_overwrite_self _ _ _
  simp [wrapped, Nat.repeat, producerStep, consumerStep, initial, create, size,
    stagingBufferSize, countAllocation, store, finishReservation, consume, freeToEnd, markEnd,
    wrapAround, freeToConsumer, wrappingSub, afterPeek, firstEntrySize, stored]

end Wrapped

theorem staging_buffer_lossless_wrapped :
    let first : Block := List.replicate (stagingBufferSize - 4) 0
    (wrapped first).blocksRead = [first] ∧
      (wrapped first).buffer.producerPos < (wrapped first).buffer.consumerPos ∧
      (wrapped first).blocksRead <+: (wrapped first).committed ∧
      ∃ block later, (wrapped first).committed = (wrapped first).blocksRead ++ block :: later ∧
        block.length ≤ 2 ∧
        slice (wrapped first).buffer.storage (wrapped first).buffer.consumerPos
          block.length = block := by
  intro first
  have sized : first.length = stagingBufferSize - 4 := List.length_replicate
  rcases wrapped_eq sized with ⟨_, blocksRead, behind, available⟩
  have lossless := staging_buffer_lossless (wrapped_reachable sized)
  exact ⟨blocksRead, behind, lossless.1, lossless.2.1 2 available⟩

end StaticLog.StagingBuffer.Interleaving
