import StaticLog.StagingBuffer.StagingBuffer

/-! # Where the staged entries lie

`Layout buffer back front` says which blocks a staging buffer holds: `back` lies
from the consumer position on, up to the producer position or, when the producer
has wrapped around, up to the end of the recorded space; `front` is what the
producer has staged at the start of the storage since then. Each operation of
the buffer has one lemma here that says what becomes of the two lists. -/

namespace StaticLog

abbrev Block := List UInt8

namespace StagingBuffer

open Memory

structure Layout (buffer : StagingBuffer) (back front : List Block) : Prop where
  solid : ∀ block ∈ back ++ front, block ≠ []
  inBounds : buffer.producerPos < stagingBufferSize
  flat : buffer.consumerPos ≤ buffer.producerPos →
    Laid buffer.storage buffer.consumerPos back buffer.producerPos ∧ front = []
  wrapped : buffer.producerPos < buffer.consumerPos →
    buffer.endOfRecordedSpace ≤ stagingBufferSize ∧
    Laid buffer.storage buffer.consumerPos back buffer.endOfRecordedSpace ∧
    Laid buffer.storage 0 front buffer.producerPos

/-- `min_free_space_` never promises more than there is in front of the end of
the storage, or in front of the consumer when that comes first. -/
structure FreeSpaceSound (buffer : StagingBuffer) : Prop where
  toEnd : buffer.minFreeSpace ≤ stagingBufferSize - buffer.producerPos
  toConsumer : buffer.producerPos < buffer.consumerPos →
    buffer.minFreeSpace ≤ buffer.consumerPos - buffer.producerPos

/-- The four ways in which a pass of the producer's loop can go. -/
theorem reservePass_cases (nbytes : Nat) (buffer : StagingBuffer) :
    (buffer.producerPos < buffer.consumerPos ∧
        buffer.reservePass nbytes = buffer.freeToConsumer buffer.consumerPos) ∨
      (buffer.consumerPos ≤ buffer.producerPos ∧
        (buffer.reservePass nbytes = buffer.freeToEnd ∨
          buffer.reservePass nbytes = buffer.freeToEnd.markEnd ∨
          buffer.consumerPos ≠ 0 ∧ buffer.reservePass nbytes =
            buffer.freeToEnd.markEnd.wrapAround.freeToConsumer buffer.consumerPos)) := by
  simp only [reservePass]
  split
  · rename_i ahead
    refine .inr ⟨ahead, ?_⟩
    split
    · exact .inl rfl
    · split
      · rename_i moved
        exact .inr (.inr ⟨moved, rfl⟩)
      · exact .inr (.inl rfl)
  · rename_i behind
    exact .inl ⟨Nat.not_le.mp behind, rfl⟩

namespace Layout

variable {buffer : StagingBuffer} {back front : List Block} {block : Block}

theorem create (bufferId : Nat) : Layout (StagingBuffer.create bufferId) [] [] where
  solid := by simp
  inBounds := stagingBufferSize_pos
  flat := fun _ => ⟨rfl, rfl⟩
  wrapped := fun behind => absurd behind (Nat.lt_irrefl 0)

theorem consumerPos_le (layout : Layout buffer back front) :
    buffer.consumerPos ≤ stagingBufferSize := by
  rcases Nat.lt_or_ge buffer.producerPos buffer.consumerPos with behind | ahead
  · have region := layout.wrapped behind
    exact region.2.1.start_le.trans region.1
  · exact ahead.trans layout.inBounds.le

theorem congr {changed : StagingBuffer} (layout : Layout buffer back front)
    (producerPos : changed.producerPos = buffer.producerPos)
    (consumerPos : changed.consumerPos = buffer.consumerPos)
    (endOfRecordedSpace : changed.producerPos < changed.consumerPos →
      changed.endOfRecordedSpace = buffer.endOfRecordedSpace)
    (storage : changed.storage = buffer.storage) : Layout changed back front where
  solid := layout.solid
  inBounds := producerPos ▸ layout.inBounds
  flat := by
    rw [producerPos, consumerPos, storage]
    exact layout.flat
  wrapped := by
    intro behind
    rw [endOfRecordedSpace behind, producerPos, consumerPos, storage]
    rw [producerPos, consumerPos] at behind
    exact layout.wrapped behind

/-! ## Producer operations -/

/-- The end of the recorded space means nothing while the producer is ahead. -/
theorem markEnd (layout : Layout buffer back front)
    (ahead : buffer.consumerPos ≤ buffer.producerPos) :
    Layout buffer.markEnd back front :=
  layout.congr rfl rfl (fun behind => absurd behind (Nat.not_lt.mpr ahead)) rfl

/-- After the roll-over of the producer everything staged lies at the back. -/
theorem wrapAround (layout : Layout buffer back front)
    (ahead : buffer.consumerPos ≤ buffer.producerPos)
    (marked : buffer.endOfRecordedSpace = buffer.producerPos)
    (moved : buffer.consumerPos ≠ 0) : Layout buffer.wrapAround back front where
  solid := layout.solid
  inBounds := stagingBufferSize_pos
  flat := fun atStart => absurd (Nat.le_zero.mp atStart) moved
  wrapped := by
    intro _
    have region := layout.flat ahead
    refine ⟨marked ▸ layout.inBounds.le, ?_, ?_⟩
    · simpa [StagingBuffer.wrapAround, marked] using region.1
    · simp [StagingBuffer.wrapAround, region.2]

theorem freeToEnd (layout : Layout buffer back front) :
    Layout buffer.freeToEnd back front :=
  layout.congr rfl rfl (fun _ => rfl) rfl

theorem freeToConsumer (layout : Layout buffer back front) (cached : Nat) :
    Layout (buffer.freeToConsumer cached) back front :=
  layout.congr rfl rfl (fun _ => rfl) rfl

/-- A pass of the producer's loop moves no block. -/
theorem reservePass (layout : Layout buffer back front) (nbytes : Nat) :
    Layout (buffer.reservePass nbytes) back front := by
  rcases buffer.reservePass_cases nbytes with ⟨_, behind⟩ | ⟨ahead, toEnd⟩
  · rw [behind]
    exact layout.freeToConsumer _
  · have marked := layout.freeToEnd.markEnd ahead
    rcases toEnd with granted | stays | ⟨moved, wrapped⟩
    · rw [granted]
      exact layout.freeToEnd
    · rw [stays]
      exact marked
    · rw [wrapped]
      exact (marked.wrapAround ahead rfl moved).freeToConsumer _

/-- Space that was granted does not touch a staged block. -/
theorem store (layout : Layout buffer back front) (sound : FreeSpaceSound buffer)
    (granted : block.length < buffer.minFreeSpace) :
    Layout (buffer.store block) back front where
  solid := layout.solid
  inBounds := layout.inBounds
  flat := by
    intro ahead
    have region := layout.flat ahead
    exact ⟨region.1.overwrite_of_disjoint (.inl (Nat.le_refl _)), region.2⟩
  wrapped := by
    intro behind
    have region := layout.wrapped behind
    have room : buffer.producerPos + block.length ≤ buffer.consumerPos := by
      have limit := sound.toConsumer behind
      omega
    exact ⟨region.1, region.2.1.overwrite_of_disjoint (.inr room),
      region.2.2.overwrite_of_disjoint (.inl (Nat.le_refl _))⟩

theorem slice_store (buffer : StagingBuffer) (block : Block) :
    slice (buffer.store block).storage buffer.producerPos block.length = block :=
  slice_overwrite_self _ _ _

/-- A finished reservation adds its block behind all others. -/
theorem finishReservation (layout : Layout buffer back front)
    (sound : FreeSpaceSound buffer) (granted : block.length < buffer.minFreeSpace)
    (nonempty : block ≠ [])
    (stored : slice buffer.storage buffer.producerPos block.length = block) :
    (buffer.consumerPos ≤ buffer.producerPos ∧
        Layout (buffer.finishReservation block.length) (back ++ [block]) front) ∨
      (buffer.producerPos < buffer.consumerPos ∧
        Layout (buffer.finishReservation block.length) back (front ++ [block])) := by
  have toEnd := sound.toEnd
  have within := layout.inBounds
  rcases Nat.lt_or_ge buffer.producerPos buffer.consumerPos with behind | ahead
  · have toConsumer := sound.toConsumer behind
    have region := layout.wrapped behind
    refine .inr ⟨behind, ?_, ?_, ?_, ?_⟩
    · intro other member
      rw [← List.append_assoc, List.mem_append, List.mem_singleton] at member
      rcases member with member | rfl
      · exact layout.solid other member
      · exact nonempty
    · simp only [StagingBuffer.finishReservation]
      omega
    · intro ahead
      simp only [StagingBuffer.finishReservation] at ahead
      omega
    · intro _
      exact ⟨region.1, region.2.1, region.2.2.snoc stored⟩
  · have region := layout.flat ahead
    refine .inl ⟨ahead, ?_, ?_, ?_, ?_⟩
    · intro other member
      rw [List.append_assoc, List.mem_append, List.singleton_append,
        List.mem_cons] at member
      rcases member with member | rfl | member
      · exact layout.solid other (by simp [member])
      · exact nonempty
      · exact layout.solid other (by simp [member])
    · simp only [StagingBuffer.finishReservation]
      omega
    · intro _
      exact ⟨region.1.snoc stored, region.2⟩
    · intro behind
      simp only [StagingBuffer.finishReservation] at behind
      omega

/-! ## Consumer operations -/

/-- A drained back part sends the consumer to the start, where the front lies. -/
theorem rollOver (layout : Layout buffer back front)
    (behind : buffer.producerPos < buffer.consumerPos)
    (drained : buffer.consumerPos = buffer.endOfRecordedSpace) :
    back = [] ∧ Layout buffer.rollOver front [] := by
  have region := layout.wrapped behind
  have nothing : back = [] := by
    apply Laid.eq_nil_of_start_eq (drained ▸ region.2.1)
    intro block member
    exact layout.solid block (by simp [member])
  refine ⟨nothing, ?_, layout.inBounds, ?_, ?_⟩
  · intro block member
    exact layout.solid block (by simpa [nothing] using member)
  · intro _
    exact ⟨region.2.2, rfl⟩
  · intro atStart
    exact absurd atStart (Nat.not_lt_zero _)

/-- Consuming the first block of the back part removes it. -/
theorem consume (layout : Layout buffer (block :: back) front) :
    Layout (buffer.consume block.length) back front where
  solid := fun other member => layout.solid other (by
    simp only [List.cons_append, List.mem_cons]
    exact .inr member)
  inBounds := layout.inBounds
  flat := by
    intro ahead
    simp only [StagingBuffer.consume] at ahead ⊢
    have region := layout.flat (by omega)
    exact ⟨region.1.2, region.2⟩
  wrapped := by
    intro behind
    simp only [StagingBuffer.consume] at behind ⊢
    rcases Nat.lt_or_ge buffer.producerPos buffer.consumerPos with already | ahead
    · have region := layout.wrapped already
      exact ⟨region.1, region.2.1.2, region.2.2⟩
    · -- The blocks of the back part end at the producer position.
      have stops := (layout.flat ahead).1.2.start_le
      omega

/-- Either nothing is staged and the two cursors meet, or bytes are available and
the consumer stands at the oldest block. A roll-over moves the front part to the
back. -/
theorem peek (layout : Layout buffer back front) :
    (buffer.peek.2 = 0 ∧ back ++ front = [] ∧ Layout buffer.peek.1 [] [] ∧
        buffer.peek.1.consumerPos = buffer.peek.1.producerPos) ∨
      (0 < buffer.peek.2 ∧ ∃ block later rest, back ++ front = block :: later ++ rest ∧
        Layout buffer.peek.1 (block :: later) rest) := by
  rcases Nat.lt_or_ge buffer.producerPos buffer.consumerPos with behind | ahead
  · have region := layout.wrapped behind
    have short := region.2.1.start_le
    have available : wrappingSub buffer.endOfRecordedSpace buffer.consumerPos =
        buffer.endOfRecordedSpace - buffer.consumerPos := wrappingSub_of_le short
    rcases Nat.lt_or_ge buffer.consumerPos buffer.endOfRecordedSpace with some | none
    · have peeked : buffer.peek =
          (buffer, buffer.endOfRecordedSpace - buffer.consumerPos) := by
        simp only [StagingBuffer.peek, if_pos behind, available,
          if_pos (Nat.sub_pos_of_lt some)]
      rw [peeked]
      cases back with
      | nil => exact absurd region.2.1 (Nat.ne_of_lt some)
      | cons block later =>
          exact .inr ⟨Nat.sub_pos_of_lt some, block, later, front, rfl, layout⟩
    · have drained : buffer.consumerPos = buffer.endOfRecordedSpace := by omega
      have peeked : buffer.peek = (buffer.rollOver, buffer.producerPos) := by
        have empty : ¬0 < buffer.endOfRecordedSpace - buffer.consumerPos := by omega
        have all : wrappingSub buffer.producerPos buffer.rollOver.consumerPos =
            buffer.producerPos := wrappingSub_zero _
        simp only [StagingBuffer.peek, if_pos behind, available, if_neg empty, all]
      rw [peeked]
      rcases layout.rollOver behind drained with ⟨rfl, rolled⟩
      cases front with
      | nil =>
          have atStart := region.2.2.stop_eq
          exact .inl ⟨atStart, rfl, rolled, atStart.symm⟩
      | cons block later =>
          have room := region.2.2.2.start_le
          have positive : 0 < block.length :=
            List.length_pos_iff.mpr (layout.solid block (by simp))
          exact .inr ⟨by omega, block, later, [], by simp, rolled⟩
  · have region := layout.flat ahead
    have peeked : buffer.peek = (buffer, buffer.producerPos - buffer.consumerPos) := by
      simp only [StagingBuffer.peek, if_neg (Nat.not_lt.mpr ahead),
        wrappingSub_of_le ahead]
    rw [peeked]
    rcases region with ⟨laid, rfl⟩
    cases back with
    | nil =>
        have meet : buffer.consumerPos = buffer.producerPos := laid
        exact .inl ⟨by omega, rfl, layout, meet⟩
    | cons block later =>
        have room := laid.2.start_le
        have positive : 0 < block.length :=
          List.length_pos_iff.mpr (layout.solid block (by simp))
        exact .inr ⟨by omega, block, later, [], rfl, layout⟩

/-- Bytes of the oldest block can be changed in place. -/
theorem overwriteHead {changed : List UInt8}
    (layout : Layout buffer (block :: back) front)
    (within : changed.length ≤ block.length) :
    Layout
      { buffer with storage := overwrite buffer.storage buffer.consumerPos changed }
      ((changed ++ block.drop changed.length) :: back) front := by
  have sameLength : (changed ++ block.drop changed.length).length = block.length := by
    simp only [List.length_append, List.length_drop]
    omega
  have head (stored : slice buffer.storage buffer.consumerPos block.length = block) :
      slice (overwrite buffer.storage buffer.consumerPos changed) buffer.consumerPos
        block.length = changed ++ block.drop changed.length := by
    rw [slice_overwrite_start _ _ _ within, stored]
  have tail {stop : Nat}
      (laid : Laid buffer.storage (buffer.consumerPos + block.length) back stop) :
      Laid (overwrite buffer.storage buffer.consumerPos changed)
        (buffer.consumerPos + block.length) back stop :=
    laid.overwrite_of_disjoint (.inr (by omega))
  constructor
  · intro other member
    rw [List.cons_append, List.mem_cons] at member
    rcases member with equal | member
    · have positive : 0 < block.length :=
        List.length_pos_iff.mpr (layout.solid block (by simp))
      rw [← List.length_pos_iff, equal, sameLength]
      exact positive
    · exact layout.solid other (by simp [member])
  · exact layout.inBounds
  · intro ahead
    have region := layout.flat ahead
    rw [Laid.cons_iff, sameLength]
    exact ⟨⟨head region.1.1, tail region.1.2⟩, region.2⟩
  · intro behind
    have region := layout.wrapped behind
    rw [Laid.cons_iff, sameLength]
    exact ⟨region.1, ⟨head region.2.1.1, tail region.2.1.2⟩,
      region.2.2.overwrite_of_disjoint (.inl behind.le)⟩

theorem slice_head (layout : Layout buffer (block :: back) front) :
    slice buffer.storage buffer.consumerPos block.length = block := by
  rcases Nat.lt_or_ge buffer.producerPos buffer.consumerPos with behind | ahead
  · exact (layout.wrapped behind).2.1.1
  · exact (layout.flat ahead).1.1

end Layout

/-! ## The free-space bound -/

namespace FreeSpaceSound

variable {buffer : StagingBuffer} {back front : List Block}

theorem create (bufferId : Nat) : FreeSpaceSound (StagingBuffer.create bufferId) where
  toEnd := Nat.le_refl _
  toConsumer := fun behind => absurd behind (Nat.lt_irrefl 0)

theorem congr {changed : StagingBuffer} (sound : FreeSpaceSound buffer)
    (producerPos : changed.producerPos = buffer.producerPos)
    (consumerPos : changed.consumerPos = buffer.consumerPos)
    (minFreeSpace : changed.minFreeSpace = buffer.minFreeSpace) :
    FreeSpaceSound changed where
  toEnd := by
    rw [minFreeSpace, producerPos]
    exact sound.toEnd
  toConsumer := by
    rw [minFreeSpace, producerPos, consumerPos]
    exact sound.toConsumer

theorem finishReservation {nbytes : Nat} (sound : FreeSpaceSound buffer)
    (granted : nbytes < buffer.minFreeSpace) :
    FreeSpaceSound (buffer.finishReservation nbytes) := by
  have toEnd := sound.toEnd
  have exact_sub : wrappingSub buffer.minFreeSpace nbytes =
      buffer.minFreeSpace - nbytes := wrappingSub_of_le granted.le
  constructor
  · simp only [StagingBuffer.finishReservation, exact_sub]
    omega
  · intro behind
    simp only [StagingBuffer.finishReservation, exact_sub] at behind ⊢
    have toConsumer := sound.toConsumer (by omega)
    omega

theorem rollOver (sound : FreeSpaceSound buffer) : FreeSpaceSound buffer.rollOver where
  toEnd := sound.toEnd
  toConsumer := fun behind => absurd behind (Nat.not_lt_zero _)

theorem freeToEnd (inBounds : buffer.producerPos < stagingBufferSize)
    (ahead : buffer.consumerPos ≤ buffer.producerPos) :
    FreeSpaceSound buffer.freeToEnd where
  toEnd := by
    simp only [StagingBuffer.freeToEnd]
    rw [wrappingSub_of_le inBounds.le]
  toConsumer := fun behind => absurd behind (Nat.not_lt.mpr ahead)

/-- An old consumer position is a sound limit: since it was read the consumer has
only come nearer to the end, or has rolled over. -/
theorem freeToConsumer {cached : Nat} (ordered : buffer.producerPos ≤ cached)
    (bounded : cached ≤ stagingBufferSize)
    (old : buffer.producerPos < buffer.consumerPos → cached ≤ buffer.consumerPos) :
    FreeSpaceSound (buffer.freeToConsumer cached) := by
  have exact_sub : wrappingSub cached buffer.producerPos =
      cached - buffer.producerPos := wrappingSub_of_le ordered
  constructor
  · simp only [StagingBuffer.freeToConsumer, exact_sub]
    omega
  · intro behind
    simp only [StagingBuffer.freeToConsumer, exact_sub]
    have limit := old behind
    omega

theorem reservePass (layout : Layout buffer back front) (nbytes : Nat) :
    FreeSpaceSound (buffer.reservePass nbytes) := by
  have bounded := layout.consumerPos_le
  rcases buffer.reservePass_cases nbytes with ⟨behind, equal⟩ | ⟨ahead, toEnd⟩
  · rw [equal]
    exact freeToConsumer behind.le bounded (fun _ => Nat.le_refl _)
  · have sound := freeToEnd layout.inBounds ahead
    rcases toEnd with granted | stays | ⟨_, wrapped⟩
    · rw [granted]
      exact sound
    · rw [stays]
      exact sound.congr rfl rfl rfl
    · rw [wrapped]
      exact freeToConsumer (Nat.zero_le _) bounded (fun _ => Nat.le_refl _)

end FreeSpaceSound

/-- `peek` changes the buffer by a roll-over only. -/
theorem peek_fst (buffer : StagingBuffer) :
    buffer.peek.1 = buffer ∨ buffer.peek.1 = buffer.rollOver := by
  simp only [peek]
  split
  · split
    · exact .inl rfl
    · exact .inr rfl
  · exact .inl rfl

@[simp] theorem peek_shouldDeallocate (buffer : StagingBuffer) :
    buffer.peek.1.shouldDeallocate = buffer.shouldDeallocate := by
  rcases buffer.peek_fst with same | rolled
  · rw [same]
  · rw [rolled, rollOver]

@[simp] theorem peek_minFreeSpace (buffer : StagingBuffer) :
    buffer.peek.1.minFreeSpace = buffer.minFreeSpace := by
  rcases buffer.peek_fst with same | rolled
  · rw [same]
  · rw [rolled, rollOver]

theorem FreeSpaceSound.peek {buffer : StagingBuffer} (sound : FreeSpaceSound buffer) :
    FreeSpaceSound buffer.peek.1 := by
  rcases buffer.peek_fst with same | rolled
  · rw [same]
    exact sound
  · rw [rolled]
    exact sound.rollOver

/-- The consumer side never moves past what the bound was computed from. -/
theorem FreeSpaceSound.consume {buffer : StagingBuffer} {back front : List Block}
    {block : Block} (sound : FreeSpaceSound buffer)
    (layout : Layout buffer (block :: back) front) :
    FreeSpaceSound (buffer.consume block.length) where
  toEnd := sound.toEnd
  toConsumer := by
    intro behind
    simp only [StagingBuffer.consume] at behind ⊢
    rcases Nat.lt_or_ge buffer.producerPos buffer.consumerPos with already | ahead
    · have limit := sound.toConsumer already
      omega
    · have stops := (layout.flat ahead).1.2.start_le
      omega

end StagingBuffer

end StaticLog
