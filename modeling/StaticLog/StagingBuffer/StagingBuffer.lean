import StaticLog.Common

/-! # The staging buffer

The circular byte queue between one logging thread and the poll thread
(`class StagingBuffer`). Pointers into `storage_` are offsets from its start.
The methods are given as functions of the buffer; the loop of
`reserveSpaceInternal` is given by one pass of its body, since a pass reads the
position of the other party afresh. -/

namespace StaticLog

/-- The members of `StagingBuffer` that its methods read or write. -/
structure StagingBuffer where
  producerPos : Nat
  endOfRecordedSpace : Nat
  minFreeSpace : Nat
  numAllocations : Nat
  consumerPos : Nat
  shouldDeallocate : Bool
  id : Nat
  storage : Memory UInt8

namespace StagingBuffer

/-- `StagingBuffer(uint32_t bufferId)`. -/
def create (bufferId : Nat) : StagingBuffer where
  producerPos := 0
  endOfRecordedSpace := stagingBufferSize
  minFreeSpace := stagingBufferSize
  numAllocations := 0
  consumerPos := 0
  shouldDeallocate := false
  id := bufferId
  storage := fun _ => 0

/-! ## Producer side -/

/-- `++num_allocations_`. -/
def countAllocation (buffer : StagingBuffer) : StagingBuffer :=
  { buffer with numAllocations := (buffer.numAllocations + 1) % 2 ^ 64 }

/-- `min_free_space_ = end_of_buffer - producer_pos_`. -/
def freeToEnd (buffer : StagingBuffer) : StagingBuffer :=
  { buffer with minFreeSpace := wrappingSub stagingBufferSize buffer.producerPos }

/-- `end_of_recorded_space_ = producer_pos_`. -/
def markEnd (buffer : StagingBuffer) : StagingBuffer :=
  { buffer with endOfRecordedSpace := buffer.producerPos }

/-- `producer_pos_ = storage_`. -/
def wrapAround (buffer : StagingBuffer) : StagingBuffer :=
  { buffer with producerPos := 0 }

/-- `min_free_space_ = cached_consumer_pos - producer_pos_`. -/
def freeToConsumer (cachedConsumerPos : Nat) (buffer : StagingBuffer) :
    StagingBuffer :=
  { buffer with minFreeSpace := wrappingSub cachedConsumerPos buffer.producerPos }

/-- One pass of the loop body of `reserveSpaceInternal`; `consumer_pos_` is read
once, at its start. -/
def reservePass (nbytes : Nat) (buffer : StagingBuffer) : StagingBuffer :=
  let cachedConsumerPos := buffer.consumerPos
  if cachedConsumerPos ≤ buffer.producerPos then
    let buffer := buffer.freeToEnd
    if nbytes < buffer.minFreeSpace then
      buffer
    else
      let buffer := buffer.markEnd
      -- The roll-over is prevented if it would make the two positions coincide.
      if cachedConsumerPos ≠ 0 then
        buffer.wrapAround.freeToConsumer cachedConsumerPos
      else
        buffer
  else
    buffer.freeToConsumer cachedConsumerPos

/-- The producer copies an entry to the space that was reserved for it. -/
def store (block : List UInt8) (buffer : StagingBuffer) : StagingBuffer :=
  { buffer with storage := Memory.overwrite buffer.storage buffer.producerPos block }

def finishReservation (nbytes : Nat) (buffer : StagingBuffer) : StagingBuffer :=
  { buffer with
    minFreeSpace := wrappingSub buffer.minFreeSpace nbytes
    producerPos := buffer.producerPos + nbytes }

/-! ## Consumer side -/

/-- `consumer_pos_ = storage_`. -/
def rollOver (buffer : StagingBuffer) : StagingBuffer :=
  { buffer with consumerPos := 0 }

/-- `peek`: the buffer afterwards and the number of bytes available. The pointer
returned is the consumer position of that buffer. -/
def peek (buffer : StagingBuffer) : StagingBuffer × Nat :=
  let cachedProducerPos := buffer.producerPos
  if cachedProducerPos < buffer.consumerPos then
    let bytesAvailable := wrappingSub buffer.endOfRecordedSpace buffer.consumerPos
    if 0 < bytesAvailable then
      (buffer, bytesAvailable)
    else
      (buffer.rollOver, wrappingSub cachedProducerPos buffer.rollOver.consumerPos)
  else
    (buffer, wrappingSub cachedProducerPos buffer.consumerPos)

def consume (nbytes : Nat) (buffer : StagingBuffer) : StagingBuffer :=
  { buffer with consumerPos := buffer.consumerPos + nbytes }

def checkCanDelete (buffer : StagingBuffer) : Bool :=
  buffer.shouldDeallocate && buffer.consumerPos == buffer.producerPos

end StagingBuffer

end StaticLog
