import StaticLog.Foundation.Execution
import StaticLog.StagingBuffer.Layout

/-! # The cursors of the staging buffer under every use of its interface

The producer may request any number of bytes, in the blocking and in the
non-blocking way, and the consumer may consume what `peek` announced piece by
piece. As in `Interleaving` each step reads or writes one shared cursor. Which
bytes are staged is told by their offsets in `storage_`; what they hold does not
matter here. -/

namespace StaticLog.StagingBuffer

open StaticLog.Execution

/-- `reserveSpaceInternal(nbytes, false)`, when the consumer does not move: the
buffer afterwards and the pointer, if there is one. -/
def reserveSpaceInternal (nbytes : Nat) (buffer : StagingBuffer) :
    StagingBuffer × Option Nat :=
  if buffer.minFreeSpace ≤ nbytes then
    let buffer := buffer.reservePass nbytes
    if buffer.minFreeSpace ≤ nbytes then (buffer, none)
    else (buffer, some buffer.producerPos)
  else
    (buffer, some buffer.producerPos)

namespace Ring

/-- Where the producer is in the code, with the size it has requested. -/
inductive Producer
  | idle
  /-- At the head of the loop of `reserveSpaceInternal`. -/
  | loop (nbytes : Nat) (blocking : Bool)
  /-- `cached_consumer_pos` has been read. -/
  | cached (nbytes : Nat) (blocking : Bool) (cachedConsumerPos : Nat)
  /-- `end_of_recorded_space_` has been set. -/
  | marked (nbytes : Nat) (blocking : Bool) (cachedConsumerPos : Nat)
  /-- `producer_pos_` has been set back to `storage_`. -/
  | wrapped (nbytes : Nat) (blocking : Bool) (cachedConsumerPos : Nat)
  /-- A pointer has been returned. -/
  | reserved (nbytes : Nat) (pointer : Nat)

/-- Where the consumer is in the code. -/
inductive Consumer
  /-- Between two calls; so many announced bytes are not yet consumed. -/
  | ready (bytesAvailable : Nat)
  /-- `peek` has read `producer_pos_`. -/
  | peeking (cachedProducerPos : Nat)
  /-- `peek` found the recorded space drained and is about to roll over. -/
  | drained (cachedProducerPos : Nat)
  /-- `peek` has set `consumer_pos_` back to `storage_`. -/
  | rolledOver (cachedProducerPos : Nat)

/-- The buffer, both parties, and three histories: the offsets of all bytes ever
committed and how many were consumed, what the last complete `peek` reported, and
whether something was committed since `producer_pos_` was last read by `peek`. -/
structure State where
  buffer : StagingBuffer
  producer : Producer
  consumer : Consumer
  committed : List Nat
  consumed : Nat
  reported : Option Nat
  committedSince : Bool

namespace State

/-- The offsets of the bytes that are committed and not yet consumed. -/
def pending (state : State) : List Nat := state.committed.drop state.consumed

end State

def initial (bufferId : Nat) : State where
  buffer := create bufferId
  producer := .idle
  consumer := .ready 0
  committed := []
  consumed := 0
  reported := none
  committedSince := false

/-! ## The producer -/

/-- `reserveProducerSpace(nbytes)`. -/
def reserveProducerSpace (nbytes : Nat) (state : State) : State :=
  { state with
    buffer := state.buffer.countAllocation
    producer :=
      if nbytes < state.buffer.minFreeSpace then
        .reserved nbytes state.buffer.producerPos
      else
        .loop nbytes true }

/-- `reserveSpaceInternal(nbytes, false)`. -/
def tryReserve (nbytes : Nat) (state : State) : State :=
  { state with producer := .loop nbytes false }

/-- The end of the loop body: a call that must not block gives up. -/
def afterPass (nbytes : Nat) (blocking : Bool) (buffer : StagingBuffer) : Producer :=
  if !blocking && buffer.minFreeSpace ≤ nbytes then .idle else .loop nbytes blocking

/-- One step of the producer inside `reserveSpaceInternal`. -/
def reserveStep (state : State) : State :=
  let buffer := state.buffer
  match state.producer with
  | .idle => state
  | .loop nbytes blocking =>
      if buffer.minFreeSpace ≤ nbytes then
        { state with producer := .cached nbytes blocking buffer.consumerPos }
      else
        { state with producer := .reserved nbytes buffer.producerPos }
  | .cached nbytes blocking cachedConsumerPos =>
      if cachedConsumerPos ≤ buffer.producerPos then
        if nbytes < buffer.freeToEnd.minFreeSpace then
          { state with
            buffer := buffer.freeToEnd
            producer := .reserved nbytes buffer.producerPos }
        else
          { state with
            buffer := buffer.freeToEnd.markEnd
            producer := .marked nbytes blocking cachedConsumerPos }
      else
        let buffer := buffer.freeToConsumer cachedConsumerPos
        { state with buffer := buffer, producer := afterPass nbytes blocking buffer }
  | .marked nbytes blocking cachedConsumerPos =>
      if cachedConsumerPos ≠ 0 then
        { state with
          buffer := buffer.wrapAround
          producer := .wrapped nbytes blocking cachedConsumerPos }
      else
        { state with producer := afterPass nbytes blocking buffer }
  | .wrapped nbytes blocking cachedConsumerPos =>
      let buffer := buffer.freeToConsumer cachedConsumerPos
      { state with buffer := buffer, producer := afterPass nbytes blocking buffer }
  | .reserved _ _ => state

/-- The caller of `reserveProducerSpace` writes to the space that it has got. -/
def store (block : Block) (state : State) : State :=
  { state with buffer := state.buffer.store block }

/-- `finishReservation(nbytes)` for the bytes reserved from `pointer` on. -/
def finish (nbytes pointer : Nat) (state : State) : State :=
  { state with
    buffer := state.buffer.finishReservation nbytes
    producer := .idle
    committed := state.committed ++ List.range' pointer nbytes
    committedSince := true }

/-! ## The consumer -/

/-- `peek` begins by reading `producer_pos_`. -/
def beginPeek (state : State) : State :=
  { state with
    consumer := .peeking state.buffer.producerPos
    committedSince := false }

/-- `peek` returns. -/
def report (bytesAvailable : Nat) (state : State) : State :=
  { state with consumer := .ready bytesAvailable, reported := some bytesAvailable }

/-- One further step of the consumer inside `peek`. -/
def peekStep (state : State) : State :=
  let buffer := state.buffer
  match state.consumer with
  | .ready _ => state
  | .peeking cachedProducerPos =>
      if cachedProducerPos < buffer.consumerPos then
        let bytesAvailable :=
          wrappingSub buffer.endOfRecordedSpace buffer.consumerPos
        if 0 < bytesAvailable then
          report bytesAvailable state
        else
          { state with consumer := .drained cachedProducerPos }
      else
        report (wrappingSub cachedProducerPos buffer.consumerPos) state
  | .drained cachedProducerPos =>
      { state with
        buffer := buffer.rollOver
        consumer := .rolledOver cachedProducerPos }
  | .rolledOver cachedProducerPos =>
      report (wrappingSub cachedProducerPos buffer.consumerPos) state

/-- `consume(nbytes)` of the announced bytes. -/
def consumeStep (nbytes bytesAvailable : Nat) (state : State) : State :=
  { state with
    buffer := state.buffer.consume nbytes
    consumer := .ready (bytesAvailable - nbytes)
    consumed := state.consumed + nbytes }

/-- The owner of the buffer is gone: `should_deallocate_ = true`. -/
def retire (state : State) : State :=
  { state with buffer := { state.buffer with shouldDeallocate := true } }

/-! ## Interleaving -/

inductive Label
  | reserveProducerSpace (nbytes : Nat)
  | tryReserve (nbytes : Nat)
  | reserve
  | store (block : Block)
  | finish
  | beginPeek
  | peek
  | consume (nbytes : Nat)
  | retire

/-- A party begins a call only when it is not inside one, a reservation is
finished with the size it was made for, and no more is consumed than `peek` has
announced. -/
inductive Step : State → Label → State → Prop
  | reserveProducerSpace (state : State) (nbytes : Nat) : state.producer = .idle →
      Step state (.reserveProducerSpace nbytes) (reserveProducerSpace nbytes state)
  | tryReserve (state : State) (nbytes : Nat) : state.producer = .idle →
      Step state (.tryReserve nbytes) (tryReserve nbytes state)
  | reserve (state : State) : Step state .reserve (reserveStep state)
  | store (state : State) (block : Block) (nbytes pointer : Nat) :
      state.producer = .reserved nbytes pointer → block.length ≤ nbytes →
      Step state (.store block) (store block state)
  | finish (state : State) (nbytes pointer : Nat) :
      state.producer = .reserved nbytes pointer →
      Step state .finish (finish nbytes pointer state)
  | beginPeek (state : State) (bytesAvailable : Nat) :
      state.consumer = .ready bytesAvailable →
      Step state .beginPeek (beginPeek state)
  | peek (state : State) : Step state .peek (peekStep state)
  | consume (state : State) (nbytes bytesAvailable : Nat) :
      state.consumer = .ready bytesAvailable → nbytes ≤ bytesAvailable →
      Step state (.consume nbytes) (consumeStep nbytes bytesAvailable state)
  | retire (state : State) : Step state .retire (retire state)

def system : System State Label where
  Initial state := ∃ bufferId, state = initial bufferId
  Step := Step

end Ring

end StaticLog.StagingBuffer
