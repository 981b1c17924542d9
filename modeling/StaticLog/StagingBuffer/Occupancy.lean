import Mathlib.Data.List.Range
import StaticLog.StagingBuffer.Lossless
import StaticLog.StagingBuffer.Ring

/-! # Where the pending bytes lie, whatever the two parties do

The invariant of the ring: the pending bytes are those from the consumer
position on and, when the producer has wrapped around, those before the producer
position. With it goes what each party's old copy of the other's cursor still
tells it. -/

namespace StaticLog.StagingBuffer.Ring

open StaticLog.Execution
open Interleaving (OldConsumerPos)

/-- From the consumer position on lie `back` pending bytes, at the start of the
storage `front` later ones. -/
structure Occupied (buffer : StagingBuffer) (back front : Nat) : Prop where
  inBounds : buffer.producerPos < stagingBufferSize
  flat : buffer.consumerPos ≤ buffer.producerPos →
    buffer.producerPos = buffer.consumerPos + back ∧ front = 0
  wrapped : buffer.producerPos < buffer.consumerPos →
    buffer.endOfRecordedSpace = buffer.consumerPos + back ∧
      buffer.endOfRecordedSpace ≤ stagingBufferSize ∧ buffer.producerPos = front

/-- The offsets of so many bytes at the back and at the front. -/
def offsets (buffer : StagingBuffer) (back front : Nat) : List Nat :=
  List.range' buffer.consumerPos back ++ List.range' 0 front

/-- What holds of the buffer at each point of the producer's code. -/
def ProducerFacts (buffer : StagingBuffer) : Producer → Prop
  | .idle => FreeSpaceSound buffer
  | .loop _ _ => FreeSpaceSound buffer
  | .cached _ _ cached => FreeSpaceSound buffer ∧ OldConsumerPos buffer cached
  | .marked _ _ cached =>
      FreeSpaceSound buffer ∧ cached ≤ buffer.consumerPos ∧
        buffer.consumerPos ≤ buffer.producerPos ∧
        buffer.endOfRecordedSpace = buffer.producerPos
  | .wrapped _ _ cached =>
      -- `min_free_space_` is stale here and not read.
      buffer.producerPos = 0 ∧ buffer.minFreeSpace ≤ stagingBufferSize ∧
        cached ≤ stagingBufferSize ∧
        (buffer.producerPos < buffer.consumerPos → cached ≤ buffer.consumerPos)
  | .reserved nbytes pointer =>
      FreeSpaceSound buffer ∧ nbytes < buffer.minFreeSpace ∧ pointer = buffer.producerPos

/-- What holds at each point of the consumer's code. As long as nothing is
committed since it was read, the producer position that `peek` holds is where
the pending bytes end. -/
def ConsumerFacts (buffer : StagingBuffer) (back front : Nat)
    (reported : Option Nat) (committedSince : Bool) : Consumer → Prop
  | .ready available =>
      available ≤ back ∧
        (reported = some 0 → committedSince = false → back = 0 ∧ front = 0)
  | .peeking cached =>
      (buffer.consumerPos ≤ cached → cached ≤ buffer.consumerPos + back ∧
        (committedSince = false → cached = buffer.consumerPos + back ∧ front = 0)) ∧
      (cached < buffer.consumerPos → buffer.producerPos < buffer.consumerPos ∧
        cached ≤ front ∧ (committedSince = false → cached = front))
  | .drained cached =>
      buffer.producerPos < buffer.consumerPos ∧
        buffer.consumerPos = buffer.endOfRecordedSpace ∧
        cached ≤ front ∧ (committedSince = false → cached = front)
  | .rolledOver cached =>
      buffer.consumerPos = 0 ∧ cached ≤ back ∧
        (committedSince = false → cached = back ∧ front = 0)

structure Invariant (state : State) (back front : Nat) : Prop where
  occupied : Occupied state.buffer back front
  consumed : state.consumed ≤ state.committed.length
  pending : state.pending = offsets state.buffer back front
  producer : ProducerFacts state.buffer state.producer
  consumer : ConsumerFacts state.buffer back front state.reported
    state.committedSince state.consumer

namespace Occupied

variable {buffer : StagingBuffer} {back front : Nat}

theorem consumerPos_le (occupied : Occupied buffer back front) :
    buffer.consumerPos ≤ stagingBufferSize := by
  have within := occupied.inBounds
  rcases Nat.lt_or_ge buffer.producerPos buffer.consumerPos with behind | ahead
  · have region := occupied.wrapped behind
    omega
  · omega

theorem congr {changed : StagingBuffer} (occupied : Occupied buffer back front)
    (producerPos : changed.producerPos = buffer.producerPos)
    (consumerPos : changed.consumerPos = buffer.consumerPos)
    (endOfRecordedSpace : changed.producerPos < changed.consumerPos →
      changed.endOfRecordedSpace = buffer.endOfRecordedSpace) :
    Occupied changed back front where
  inBounds := producerPos ▸ occupied.inBounds
  flat := by
    rw [producerPos, consumerPos]
    exact occupied.flat
  wrapped := by
    intro behind
    rw [endOfRecordedSpace behind, producerPos, consumerPos]
    rw [producerPos, consumerPos] at behind
    exact occupied.wrapped behind

theorem wrapAround (occupied : Occupied buffer back front)
    (ahead : buffer.consumerPos ≤ buffer.producerPos)
    (marked : buffer.endOfRecordedSpace = buffer.producerPos)
    (moved : buffer.consumerPos ≠ 0) : Occupied buffer.wrapAround back front where
  inBounds := stagingBufferSize_pos
  flat := fun atStart => absurd (Nat.le_zero.mp atStart) moved
  wrapped := by
    intro _
    have region := occupied.flat ahead
    have within := occupied.inBounds
    simp only [StagingBuffer.wrapAround, marked, region.2, and_true]
    exact ⟨region.1, within.le⟩

theorem finishReservation {nbytes : Nat} (occupied : Occupied buffer back front)
    (sound : FreeSpaceSound buffer) (granted : nbytes < buffer.minFreeSpace) :
    (buffer.consumerPos ≤ buffer.producerPos ∧
        Occupied (buffer.finishReservation nbytes) (back + nbytes) front) ∨
      (buffer.producerPos < buffer.consumerPos ∧
        Occupied (buffer.finishReservation nbytes) back (front + nbytes)) := by
  have toEnd := sound.toEnd
  have within := occupied.inBounds
  rcases Nat.lt_or_ge buffer.producerPos buffer.consumerPos with behind | ahead
  · have toConsumer := sound.toConsumer behind
    have region := occupied.wrapped behind
    refine .inr ⟨behind, ?_, ?_, ?_⟩ <;>
      simp only [StagingBuffer.finishReservation] <;> omega
  · have region := occupied.flat ahead
    refine .inl ⟨ahead, ?_, ?_, ?_⟩ <;>
      simp only [StagingBuffer.finishReservation] <;> omega

theorem rollOver (occupied : Occupied buffer back front)
    (behind : buffer.producerPos < buffer.consumerPos)
    (drained : buffer.consumerPos = buffer.endOfRecordedSpace) :
    back = 0 ∧ Occupied buffer.rollOver front 0 := by
  have region := occupied.wrapped behind
  refine ⟨by omega, occupied.inBounds, ?_, ?_⟩
  · intro _
    exact ⟨by simpa [StagingBuffer.rollOver] using region.2.2, rfl⟩
  · intro impossible
    exact absurd impossible (Nat.not_lt_zero _)

theorem consume {nbytes : Nat} (occupied : Occupied buffer back front)
    (within : nbytes ≤ back) :
    Occupied (buffer.consume nbytes) (back - nbytes) front where
  inBounds := occupied.inBounds
  flat := by
    intro ahead
    simp only [StagingBuffer.consume] at ahead ⊢
    have region := occupied.flat (by omega)
    omega
  wrapped := by
    intro behind
    simp only [StagingBuffer.consume] at behind ⊢
    rcases Nat.lt_or_ge buffer.producerPos buffer.consumerPos with already | ahead
    · have region := occupied.wrapped already
      omega
    · have region := occupied.flat ahead
      omega

theorem freeSpace_consume {nbytes : Nat} (occupied : Occupied buffer back front)
    (within : nbytes ≤ back) (sound : FreeSpaceSound buffer) :
    FreeSpaceSound (buffer.consume nbytes) where
  toEnd := sound.toEnd
  toConsumer := by
    intro behind
    simp only [StagingBuffer.consume] at behind ⊢
    rcases Nat.lt_or_ge buffer.producerPos buffer.consumerPos with already | ahead
    · have limit := sound.toConsumer already
      omega
    · have region := occupied.flat ahead
      omega

/-- What the producer reserves touches no pending byte. -/
theorem disjoint_of_granted {nbytes offset : Nat} (occupied : Occupied buffer back front)
    (sound : FreeSpaceSound buffer) (granted : nbytes < buffer.minFreeSpace)
    (member : offset ∈ offsets buffer back front) :
    offset < buffer.producerPos ∨ buffer.producerPos + nbytes ≤ offset := by
  rw [offsets, List.mem_append, List.mem_range'_1, List.mem_range'_1] at member
  rcases Nat.lt_or_ge buffer.producerPos buffer.consumerPos with behind | ahead
  · have region := occupied.wrapped behind
    have limit := sound.toConsumer behind
    omega
  · have region := occupied.flat ahead
    omega

end Occupied

/-! ## The offsets of the pending bytes -/

theorem offsets_consume {buffer : StagingBuffer} {back front nbytes : Nat}
    (within : nbytes ≤ back) :
    (offsets buffer back front).drop nbytes =
      offsets (buffer.consume nbytes) (back - nbytes) front := by
  have short : nbytes ≤ (List.range' buffer.consumerPos back).length := by
    rwa [List.length_range']
  rw [offsets, List.drop_append_of_le_length short, List.drop_range', Nat.mul_one]
  rfl

theorem offsets_finish_back {buffer : StagingBuffer} {back nbytes : Nat}
    (stops : buffer.producerPos = buffer.consumerPos + back) :
    offsets buffer back 0 ++ List.range' buffer.producerPos nbytes =
      offsets (buffer.finishReservation nbytes) (back + nbytes) 0 := by
  simp only [offsets, List.range'_zero, List.append_nil, stops]
  exact List.range'_append_1

theorem offsets_finish_front {buffer : StagingBuffer} {back front nbytes : Nat}
    (stops : buffer.producerPos = front) :
    offsets buffer back front ++ List.range' buffer.producerPos nbytes =
      offsets (buffer.finishReservation nbytes) back (front + nbytes) := by
  have joined : List.range' 0 front ++ List.range' front nbytes =
      List.range' 0 (front + nbytes) := by
    simpa using List.range'_append_1 (s := 0) (m := front) (n := nbytes)
  simp only [offsets, stops, List.append_assoc, joined]
  rfl

theorem offsets_rollOver (buffer : StagingBuffer) (front : Nat) :
    offsets buffer 0 front = offsets buffer.rollOver front 0 := by
  simp [offsets, StagingBuffer.rollOver]

/-! ## What one party's step means to the other -/

theorem ProducerFacts.consume {buffer : StagingBuffer} {back front nbytes : Nat}
    {producer : Producer} (facts : ProducerFacts buffer producer)
    (occupied : Occupied buffer back front) (within : nbytes ≤ back) :
    ProducerFacts (buffer.consume nbytes) producer := by
  have sound := occupied.freeSpace_consume within
  cases producer with
  | idle => exact sound facts
  | loop size blocking => exact sound facts
  | cached size blocking cached =>
      refine ⟨sound facts.1, facts.2.bounded, ?_, ?_⟩
      · intro before
        have old := facts.2.ahead before
        have region := occupied.flat old.2
        simp only [StagingBuffer.consume]
        omega
      · intro behind
        simp only [StagingBuffer.consume] at behind ⊢
        have old := facts.2.behind
        have region := occupied.flat
        omega
  | marked size blocking cached =>
      have region := occupied.flat facts.2.2.1
      refine ⟨sound facts.1, ?_, ?_, facts.2.2.2⟩
      · exact facts.2.1.trans (Nat.le_add_right _ _)
      · simp only [StagingBuffer.consume]
        omega
  | wrapped size blocking cached =>
      refine ⟨facts.1, facts.2.1, facts.2.2.1, ?_⟩
      intro behind
      simp only [StagingBuffer.consume] at behind ⊢
      have old := facts.2.2.2
      have region := occupied.flat
      omega
  | reserved size pointer => exact ⟨sound facts.1, facts.2⟩

theorem ProducerFacts.rollOver {buffer : StagingBuffer} {producer : Producer}
    (facts : ProducerFacts buffer producer)
    (behind : buffer.producerPos < buffer.consumerPos) :
    ProducerFacts buffer.rollOver producer := by
  cases producer with
  | idle => exact FreeSpaceSound.rollOver facts
  | loop size blocking => exact FreeSpaceSound.rollOver facts
  | cached size blocking cached =>
      refine ⟨FreeSpaceSound.rollOver facts.1, facts.2.bounded, ?_, ?_⟩
      · intro before
        exact absurd (facts.2.ahead before).2 (Nat.not_le.mpr behind)
      · intro impossible
        exact absurd impossible (Nat.not_lt_zero _)
  | marked size blocking cached => exact absurd facts.2.2.1 (Nat.not_le.mpr behind)
  | wrapped size blocking cached =>
      exact ⟨facts.1, facts.2.1, facts.2.2.1,
        fun impossible => absurd impossible (Nat.not_lt_zero _)⟩
  | reserved size pointer => exact ⟨FreeSpaceSound.rollOver facts.1, facts.2⟩

/-- The facts speak of the cursors and of the bound only. -/
theorem ProducerFacts.congr {buffer changed : StagingBuffer} {producer : Producer}
    (facts : ProducerFacts buffer producer)
    (producerPos : changed.producerPos = buffer.producerPos)
    (consumerPos : changed.consumerPos = buffer.consumerPos)
    (endOfRecordedSpace : changed.endOfRecordedSpace = buffer.endOfRecordedSpace)
    (minFreeSpace : changed.minFreeSpace = buffer.minFreeSpace) :
    ProducerFacts changed producer := by
  have sound (holds : FreeSpaceSound buffer) : FreeSpaceSound changed :=
    holds.congr producerPos consumerPos minFreeSpace
  cases producer with
  | idle => exact sound facts
  | loop size blocking => exact sound facts
  | cached size blocking cached =>
      refine ⟨sound facts.1, facts.2.bounded, ?_, ?_⟩
      · rw [producerPos, consumerPos]
        exact facts.2.ahead
      · rw [producerPos, consumerPos]
        exact facts.2.behind
  | marked size blocking cached =>
      refine ⟨sound facts.1, ?_⟩
      rw [producerPos, consumerPos, endOfRecordedSpace]
      exact facts.2
  | wrapped size blocking cached =>
      simpa only [ProducerFacts, producerPos, consumerPos, minFreeSpace] using facts
  | reserved size pointer =>
      refine ⟨sound facts.1, ?_⟩
      rw [producerPos, minFreeSpace]
      exact facts.2

theorem ProducerFacts.afterPass {buffer : StagingBuffer} (sound : FreeSpaceSound buffer)
    (nbytes : Nat) (blocking : Bool) :
    ProducerFacts buffer (afterPass nbytes blocking buffer) := by
  rw [Ring.afterPass]
  split
  · exact sound
  · exact sound

section

variable {buffer : StagingBuffer} {back front : Nat} {reported : Option Nat}
  {committedSince : Bool} {consumer : Consumer}

/-- The consumer does not notice a step of the producer that moves no cursor. -/
theorem ConsumerFacts.congr {changed : StagingBuffer}
    (facts : ConsumerFacts buffer back front reported committedSince consumer)
    (producerPos : changed.producerPos = buffer.producerPos)
    (consumerPos : changed.consumerPos = buffer.consumerPos)
    (endOfRecordedSpace : buffer.producerPos < buffer.consumerPos →
      changed.endOfRecordedSpace = buffer.endOfRecordedSpace) :
    ConsumerFacts changed back front reported committedSince consumer := by
  cases consumer with
  | ready available => exact facts
  | peeking cached =>
      simpa only [ConsumerFacts, producerPos, consumerPos] using facts
  | drained cached =>
      refine ⟨by rw [producerPos, consumerPos]; exact facts.1, ?_, facts.2.2⟩
      rw [consumerPos, endOfRecordedSpace facts.1]
      exact facts.2.1
  | rolledOver cached => simpa only [ConsumerFacts, consumerPos] using facts

theorem ConsumerFacts.wrapAround
    (facts : ConsumerFacts buffer back front reported committedSince consumer)
    (ahead : buffer.consumerPos ≤ buffer.producerPos)
    (moved : buffer.consumerPos ≠ 0) :
    ConsumerFacts buffer.wrapAround back front reported committedSince consumer := by
  cases consumer with
  | ready available => exact facts
  | peeking cached =>
      refine ⟨facts.1, ?_⟩
      intro before
      exact absurd (facts.2 before).1 (Nat.not_lt.mpr ahead)
  | drained cached => exact absurd facts.1 (Nat.not_lt.mpr ahead)
  | rolledOver cached => exact absurd facts.1 moved

/-- Bytes committed behind the back part. -/
theorem ConsumerFacts.commitBack
    (facts : ConsumerFacts buffer back front reported committedSince consumer)
    (ahead : buffer.consumerPos ≤ buffer.producerPos) (nbytes : Nat) :
    ConsumerFacts (buffer.finishReservation nbytes) (back + nbytes) front reported
      true consumer := by
  cases consumer with
  | ready available => exact ⟨facts.1.trans (Nat.le_add_right _ _), by simp⟩
  | peeking cached =>
      constructor
      · intro within
        have limit := (facts.1 within).1
        exact ⟨limit.trans (by simp only [StagingBuffer.finishReservation]; omega), by simp⟩
      · intro before
        exact absurd (facts.2 before).1 (Nat.not_lt.mpr ahead)
  | drained cached => exact absurd facts.1 (Nat.not_lt.mpr ahead)
  | rolledOver cached =>
      exact ⟨facts.1, facts.2.1.trans (Nat.le_add_right _ _), by simp⟩

/-- Bytes committed behind the front part, short of the consumer. -/
theorem ConsumerFacts.commitFront
    (facts : ConsumerFacts buffer back front reported committedSince consumer)
    {nbytes : Nat} (short : buffer.producerPos + nbytes < buffer.consumerPos) :
    ConsumerFacts (buffer.finishReservation nbytes) back (front + nbytes) reported
      true consumer := by
  cases consumer with
  | ready available => exact ⟨facts.1, by simp⟩
  | peeking cached =>
      constructor
      · intro within
        exact ⟨(facts.1 within).1, by simp⟩
      · intro before
        exact ⟨short, (facts.2 before).2.1.trans (Nat.le_add_right _ _), by simp⟩
  | drained cached =>
      exact ⟨short, facts.2.1, facts.2.2.1.trans (Nat.le_add_right _ _), by simp⟩
  | rolledOver cached => exact ⟨facts.1, facts.2.1, by simp⟩

end

/-! ## The steps keep the invariant -/

theorem Invariant.initial (bufferId : Nat) : Invariant (initial bufferId) 0 0 where
  occupied := ⟨stagingBufferSize_pos, fun _ => ⟨rfl, rfl⟩,
    fun behind => absurd behind (Nat.lt_irrefl 0)⟩
  consumed := Nat.le_refl 0
  pending := rfl
  producer := FreeSpaceSound.create bufferId
  consumer := ⟨Nat.le_refl 0, fun _ _ => ⟨rfl, rfl⟩⟩

/-- A step of the producer that changes neither the pending bytes nor the
cursors. -/
theorem Invariant.producerMoves {state : State} {back front : Nat}
    (invariant : Invariant state back front) {changed : StagingBuffer}
    {producer : Producer} (facts : ProducerFacts changed producer)
    (producerPos : changed.producerPos = state.buffer.producerPos)
    (consumerPos : changed.consumerPos = state.buffer.consumerPos)
    (endOfRecordedSpace : state.buffer.producerPos < state.buffer.consumerPos →
      changed.endOfRecordedSpace = state.buffer.endOfRecordedSpace) :
    Invariant { state with buffer := changed, producer := producer } back front where
  occupied := invariant.occupied.congr producerPos consumerPos
    (fun behind => endOfRecordedSpace (by rwa [producerPos, consumerPos] at behind))
  consumed := invariant.consumed
  pending := by
    have unmoved : offsets changed back front = offsets state.buffer back front := by
      rw [offsets, offsets, consumerPos]
    exact invariant.pending.trans unmoved.symm
  producer := facts
  consumer := invariant.consumer.congr producerPos consumerPos endOfRecordedSpace

theorem Invariant.reserveProducerSpace {state : State} {back front : Nat}
    (invariant : Invariant state back front) (idle : state.producer = .idle)
    (nbytes : Nat) : Invariant (reserveProducerSpace nbytes state) back front := by
  have facts := invariant.producer
  rw [idle] at facts
  have sound : FreeSpaceSound state.buffer.countAllocation :=
    FreeSpaceSound.congr facts rfl rfl rfl
  refine invariant.producerMoves ?_ rfl rfl (fun _ => rfl)
  split
  case isTrue fast => exact ⟨sound, fast, rfl⟩
  case isFalse => exact sound

theorem Invariant.tryReserve {state : State} {back front : Nat}
    (invariant : Invariant state back front) (idle : state.producer = .idle)
    (nbytes : Nat) : Invariant (tryReserve nbytes state) back front := by
  have facts := invariant.producer
  rw [idle] at facts
  exact invariant.producerMoves facts rfl rfl (fun _ => rfl)

theorem Invariant.reserveStep {state : State} {back front : Nat}
    (invariant : Invariant state back front) :
    Invariant (reserveStep state) back front := by
  rcases state with
    ⟨buffer, producer, consumer, committed, consumed, reported, committedSince⟩
  have occupied : Occupied buffer back front := invariant.occupied
  have facts : ProducerFacts buffer producer := invariant.producer
  cases producer with
  | idle => exact invariant
  | loop nbytes blocking =>
      simp only [Ring.reserveStep]
      split
      case isTrue =>
        refine invariant.producerMoves ?_ rfl rfl (fun _ => rfl)
        exact ⟨facts, occupied.consumerPos_le,
          fun ahead => ⟨Nat.le_refl _, ahead⟩, fun _ => Nat.le_refl _⟩
      case isFalse enough =>
        refine invariant.producerMoves ?_ rfl rfl (fun _ => rfl)
        exact ⟨facts, Nat.lt_of_not_le enough, rfl⟩
  | cached nbytes blocking cached =>
      rcases facts with ⟨sound, oldPos⟩
      simp only [Ring.reserveStep]
      split
      case isTrue before =>
        have ahead := oldPos.ahead before
        have toEnd := FreeSpaceSound.freeToEnd occupied.inBounds ahead.2
        split
        case isTrue room =>
          exact invariant.producerMoves ⟨toEnd, room, rfl⟩ rfl rfl (fun _ => rfl)
        case isFalse =>
          refine invariant.producerMoves
            ⟨toEnd.congr rfl rfl rfl, ahead.1, ahead.2, rfl⟩ rfl rfl ?_
          intro behind
          exact absurd behind (Nat.not_lt.mpr ahead.2)
      case isFalse behind =>
        have toConsumer := FreeSpaceSound.freeToConsumer
          (Nat.le_of_not_le behind) oldPos.bounded oldPos.behind
        exact invariant.producerMoves (.afterPass toConsumer _ _) rfl rfl (fun _ => rfl)
  | marked nbytes blocking cached =>
      rcases facts with ⟨sound, old, ahead, marked⟩
      simp only [Ring.reserveStep]
      split
      case isTrue notAtStart =>
        have moved : buffer.consumerPos ≠ 0 := by omega
        have limit : buffer.minFreeSpace ≤ stagingBufferSize :=
          sound.toEnd.trans (Nat.sub_le _ _)
        exact ⟨occupied.wrapAround ahead marked moved, invariant.consumed,
          invariant.pending, ⟨rfl, limit, old.trans occupied.consumerPos_le, fun _ => old⟩,
          invariant.consumer.wrapAround ahead moved⟩
      case isFalse =>
        exact invariant.producerMoves (.afterPass sound _ _) rfl rfl (fun _ => rfl)
  | wrapped nbytes blocking cached =>
      rcases facts with ⟨atStart, _, bounded, old⟩
      have toConsumer := FreeSpaceSound.freeToConsumer
        (atStart ▸ Nat.zero_le _) bounded old
      exact invariant.producerMoves (.afterPass toConsumer _ _) rfl rfl (fun _ => rfl)
  | reserved nbytes pointer => exact invariant

theorem Invariant.store {state : State} {back front : Nat}
    (invariant : Invariant state back front) (block : Block) :
    Invariant (store block state) back front where
  occupied := invariant.occupied.congr rfl rfl (fun _ => rfl)
  consumed := invariant.consumed
  pending := invariant.pending
  producer := invariant.producer.congr rfl rfl rfl rfl
  consumer := invariant.consumer.congr rfl rfl (fun _ => rfl)

theorem Invariant.finish {state : State} {back front nbytes pointer : Nat}
    (invariant : Invariant state back front)
    (reserved : state.producer = .reserved nbytes pointer) :
    ∃ back front, Invariant (finish nbytes pointer state) back front := by
  have facts := invariant.producer
  rw [reserved] at facts
  rcases facts with ⟨sound, granted, rfl⟩
  have spare := sound.finishReservation granted
  have kept := invariant.consumed
  have grown : state.consumed ≤
      (Ring.finish nbytes state.buffer.producerPos state).committed.length := by
    simp only [Ring.finish, List.length_append]
    omega
  have appended : (Ring.finish nbytes state.buffer.producerPos state).pending =
      state.pending ++ List.range' state.buffer.producerPos nbytes :=
    List.drop_append_of_le_length kept
  rcases invariant.occupied.finishReservation sound granted with
    ⟨ahead, occupied⟩ | ⟨behind, occupied⟩
  · have region := invariant.occupied.flat ahead
    rcases region with ⟨stops, rfl⟩
    refine ⟨back + nbytes, 0, occupied, grown, ?_, spare,
      invariant.consumer.commitBack ahead nbytes⟩
    rw [appended, invariant.pending, offsets_finish_back stops]
    rfl
  · have region := invariant.occupied.wrapped behind
    have short : state.buffer.producerPos + nbytes < state.buffer.consumerPos := by
      have limit := sound.toConsumer behind
      omega
    refine ⟨back, front + nbytes, occupied, grown, ?_, spare,
      invariant.consumer.commitFront short⟩
    rw [appended, invariant.pending, offsets_finish_front region.2.2]
    rfl

theorem Invariant.beginPeek {state : State} {back front : Nat}
    (invariant : Invariant state back front) :
    Invariant (beginPeek state) back front where
  occupied := invariant.occupied
  consumed := invariant.consumed
  pending := invariant.pending
  producer := invariant.producer
  consumer := by
    constructor
    · intro ahead
      have region := invariant.occupied.flat ahead
      exact ⟨region.1.le, fun _ => region⟩
    · intro behind
      have region := invariant.occupied.wrapped behind
      exact ⟨behind, region.2.2.le, fun _ => region.2.2⟩

/-- What `peek` reports is pending; if it reports nothing, nothing is. -/
theorem Invariant.report {state : State} {back front stop : Nat}
    (invariant : Invariant state back front)
    (ahead : state.buffer.consumerPos ≤ stop)
    (limit : stop ≤ state.buffer.consumerPos + back)
    (all : state.committedSince = false →
      stop = state.buffer.consumerPos + back ∧ front = 0) :
    Invariant (report (wrappingSub stop state.buffer.consumerPos) state) back front where
  occupied := invariant.occupied
  consumed := invariant.consumed
  pending := invariant.pending
  producer := invariant.producer
  consumer := by
    rw [wrappingSub_of_le ahead]
    constructor
    · omega
    · intro nothing uncommitted
      have stops := all uncommitted
      have zero : stop - state.buffer.consumerPos = 0 := Option.some.inj nothing
      omega

theorem Invariant.peekStep {state : State} {back front : Nat}
    (invariant : Invariant state back front) :
    ∃ back front, Invariant (peekStep state) back front := by
  rcases state with
    ⟨buffer, producer, consumer, committed, consumed, reported, committedSince⟩
  have occupied : Occupied buffer back front := invariant.occupied
  have facts : ConsumerFacts buffer back front reported committedSince consumer :=
    invariant.consumer
  cases consumer with
  | ready available => exact ⟨back, front, invariant⟩
  | peeking cached =>
      simp only [Ring.peekStep]
      split
      case isTrue before =>
        rcases facts.2 before with ⟨behind, limit, all⟩
        have region := occupied.wrapped behind
        have ordered : buffer.consumerPos ≤ buffer.endOfRecordedSpace := by omega
        split
        case isTrue some =>
          rw [wrappingSub_of_le ordered] at some
          refine ⟨back, front, invariant.occupied, invariant.consumed, invariant.pending,
            invariant.producer, ?_, ?_⟩
          · rw [wrappingSub_of_le ordered]
            omega
          · intro nothing
            have zero := Option.some.inj nothing
            rw [wrappingSub_of_le ordered] at zero
            omega
        case isFalse none =>
          rw [wrappingSub_of_le ordered] at none
          have drained : buffer.consumerPos = buffer.endOfRecordedSpace := by omega
          exact ⟨back, front, invariant.occupied, invariant.consumed, invariant.pending,
            invariant.producer, behind, drained, limit, all⟩
      case isFalse notBefore =>
        have ahead := Nat.le_of_not_lt notBefore
        have limits := facts.1 ahead
        exact ⟨back, front, invariant.report ahead limits.1 limits.2⟩
  | drained cached =>
      rcases facts with ⟨behind, drained, limit, all⟩
      rcases occupied.rollOver behind drained with ⟨rfl, rolled⟩
      refine ⟨front, 0, rolled, invariant.consumed, ?_,
        invariant.producer.rollOver behind, rfl, limit, fun uncommitted =>
          ⟨all uncommitted, rfl⟩⟩
      exact invariant.pending.trans (offsets_rollOver buffer front)
  | rolledOver cached =>
      rcases facts with ⟨atStart, limit, all⟩
      refine ⟨back, front, invariant.report ?_ ?_ ?_⟩
      · simp only [atStart, Nat.zero_le]
      · simpa only [atStart, Nat.zero_add] using limit
      · simpa only [atStart, Nat.zero_add] using all

theorem Invariant.consumeStep {state : State} {back front nbytes available : Nat}
    (invariant : Invariant state back front)
    (ready : state.consumer = .ready available) (within : nbytes ≤ available) :
    Invariant (consumeStep nbytes available state) (back - nbytes) front := by
  have facts := invariant.consumer
  rw [ready] at facts
  have staged : nbytes ≤ back := within.trans facts.1
  have amount : state.pending.length = back + front := by
    rw [invariant.pending, offsets, List.length_append, List.length_range',
      List.length_range']
  have kept := invariant.consumed
  refine ⟨invariant.occupied.consume staged, ?_, ?_,
    invariant.producer.consume invariant.occupied staged, ?_, ?_⟩
  · rw [State.pending, List.length_drop] at amount
    simp only [Ring.consumeStep]
    omega
  · have dropped : (Ring.consumeStep nbytes available state).pending =
        state.pending.drop nbytes := (List.drop_drop ..).symm
    rw [dropped, invariant.pending, offsets_consume staged]
    rfl
  · have limit := facts.1
    omega
  · intro nothing uncommitted
    have empty := facts.2 nothing uncommitted
    omega

theorem Invariant.retire {state : State} {back front : Nat}
    (invariant : Invariant state back front) : Invariant (retire state) back front where
  occupied := invariant.occupied.congr rfl rfl (fun _ => rfl)
  consumed := invariant.consumed
  pending := invariant.pending
  producer := invariant.producer.congr rfl rfl rfl rfl
  consumer := invariant.consumer.congr rfl rfl (fun _ => rfl)

theorem Invariant.step {before after : State} {label : Label} {back front : Nat}
    (invariant : Invariant before back front) (taken : Step before label after) :
    ∃ back front, Invariant after back front := by
  cases taken with
  | reserveProducerSpace nbytes idle =>
      exact ⟨back, front, invariant.reserveProducerSpace idle nbytes⟩
  | tryReserve nbytes idle => exact ⟨back, front, invariant.tryReserve idle nbytes⟩
  | reserve => exact ⟨back, front, invariant.reserveStep⟩
  | store block nbytes pointer reserved fits => exact ⟨back, front, invariant.store block⟩
  | finish nbytes pointer reserved => exact invariant.finish reserved
  | beginPeek available ready => exact ⟨back, front, invariant.beginPeek⟩
  | peek => exact invariant.peekStep
  | consume nbytes available ready within =>
      exact ⟨back - nbytes, front, invariant.consumeStep ready within⟩
  | retire => exact ⟨back, front, invariant.retire⟩

theorem reachable_invariant {state : State} (reachable : system.Reachable state) :
    ∃ back front, Invariant state back front := by
  apply reachable.invariant (fun state => ∃ back front, Invariant state back front)
  · intro state starts
    rcases starts with ⟨bufferId, rfl⟩
    exact ⟨0, 0, Invariant.initial bufferId⟩
  · intro before label after holds taken
    rcases holds with ⟨back, front, invariant⟩
    exact invariant.step taken

end StaticLog.StagingBuffer.Ring
