import StaticLog.Foundation.Channel
import StaticLog.StagingBuffer.Layout

/-! # Producer and consumer of one staging buffer, step by step

Each party is a little state machine whose steps read or write one of the shared
cursors `producer_pos_`, `consumer_pos_` and `end_of_recorded_space_`. The two
machines interleave in any order. -/

namespace StaticLog.StagingBuffer

open Memory StaticLog.Execution

namespace Interleaving

/-- Where the producer is in the code, with the block it is logging. -/
inductive Producer
  | idle
  /-- At the head of the loop of `reserveSpaceInternal`. -/
  | loop (block : Block)
  /-- `cached_consumer_pos` has been read. -/
  | cached (block : Block) (cachedConsumerPos : Nat)
  /-- `end_of_recorded_space_` has been set. -/
  | marked (block : Block) (cachedConsumerPos : Nat)
  /-- `producer_pos_` has been set back to `storage_`. -/
  | wrapped (block : Block) (cachedConsumerPos : Nat)
  /-- `reserveProducerSpace` has returned `producer_pos_`. -/
  | reserved (block : Block)
  /-- The bytes of the block are in the reserved space. -/
  | stored (block : Block)

/-- Where the consumer is in the code. -/
inductive Consumer
  | idle
  /-- `peek` has read `producer_pos_`. -/
  | peeking (cachedProducerPos : Nat)
  /-- `peek` found the recorded space drained and is about to roll over. -/
  | drained (cachedProducerPos : Nat)
  /-- `peek` has set `consumer_pos_` back to `storage_`. -/
  | rolledOver (cachedProducerPos : Nat)
  /-- `peek` has returned a positive number of bytes. -/
  | available (bytesAvailable : Nat)
  /-- The first entry has been read and is about to be consumed. -/
  | taken (block : Block)

/-- The buffer, both parties, and the histories of the blocks that were
committed and of those that were read. -/
structure State where
  buffer : StagingBuffer
  producer : Producer
  consumer : Consumer
  committed : List Block
  blocksRead : List Block
  consumed : Nat

def initial (bufferId : Nat) : State where
  buffer := create bufferId
  producer := .idle
  consumer := .idle
  committed := []
  blocksRead := []
  consumed := 0

/-- One step of the producer; `next` is the block it logs if it is idle. -/
def producerStep (next : Block) (state : State) : State :=
  let buffer := state.buffer
  match state.producer with
  | .idle =>
      { state with
        buffer := buffer.countAllocation
        producer :=
          if next.length < buffer.minFreeSpace then .reserved next else .loop next }
  | .loop block =>
      if buffer.minFreeSpace ≤ block.length then
        { state with producer := .cached block buffer.consumerPos }
      else
        { state with producer := .reserved block }
  | .cached block cachedConsumerPos =>
      if cachedConsumerPos ≤ buffer.producerPos then
        if block.length < buffer.freeToEnd.minFreeSpace then
          { state with buffer := buffer.freeToEnd, producer := .reserved block }
        else
          { state with
            buffer := buffer.freeToEnd.markEnd
            producer := .marked block cachedConsumerPos }
      else
        { state with
          buffer := buffer.freeToConsumer cachedConsumerPos
          producer := .loop block }
  | .marked block cachedConsumerPos =>
      if cachedConsumerPos ≠ 0 then
        { state with
          buffer := buffer.wrapAround
          producer := .wrapped block cachedConsumerPos }
      else
        { state with producer := .loop block }
  | .wrapped block cachedConsumerPos =>
      { state with
        buffer := buffer.freeToConsumer cachedConsumerPos
        producer := .loop block }
  | .reserved block =>
      { state with buffer := buffer.store block, producer := .stored block }
  | .stored block =>
      { state with
        buffer := buffer.finishReservation block.length
        producer := .idle
        committed := state.committed ++ [block] }

/-- What the consumer does with the number of bytes `peek` reports. -/
def afterPeek (bytesAvailable : Nat) : Consumer :=
  if 0 < bytesAvailable then .available bytesAvailable else .idle

/-- The first entry that was committed and not yet consumed. Its size is what
the consumer passes to `consume`; where there is no such entry the size is 0. -/
def firstEntrySize (state : State) : Nat :=
  ((state.committed[state.consumed]?).getD []).length

/-- One step of the consumer. -/
def consumerStep (state : State) : State :=
  let buffer := state.buffer
  match state.consumer with
  | .idle => { state with consumer := .peeking buffer.producerPos }
  | .peeking cachedProducerPos =>
      if cachedProducerPos < buffer.consumerPos then
        let bytesAvailable :=
          wrappingSub buffer.endOfRecordedSpace buffer.consumerPos
        if 0 < bytesAvailable then
          { state with consumer := .available bytesAvailable }
        else
          { state with consumer := .drained cachedProducerPos }
      else
        { state with
          consumer := afterPeek (wrappingSub cachedProducerPos buffer.consumerPos) }
  | .drained cachedProducerPos =>
      { state with
        buffer := buffer.rollOver
        consumer := .rolledOver cachedProducerPos }
  | .rolledOver cachedProducerPos =>
      { state with
        consumer := afterPeek (wrappingSub cachedProducerPos buffer.consumerPos) }
  | .available _ =>
      let block := slice buffer.storage buffer.consumerPos (firstEntrySize state)
      { state with
        consumer := .taken block
        blocksRead := state.blocksRead ++ [block] }
  | .taken block =>
      { state with
        buffer := buffer.consume block.length
        consumer := .idle
        consumed := state.consumed + 1 }

/-- Who takes the next step; the producer may log any block of the sizes that a
staging buffer can hold. -/
inductive Label
  | producer (next : Block)
  | consumer

inductive Step : State → Label → State → Prop
  | producer (state : State) (next : Block) :
      1 ≤ next.length → next.length < stagingBufferSize →
      Step state (.producer next) (producerStep next state)
  | consumer (state : State) : Step state .consumer (consumerStep state)

def system : System State Label where
  Initial state := ∃ bufferId, state = initial bufferId
  Step := Step

end Interleaving

end StaticLog.StagingBuffer
