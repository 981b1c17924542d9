/-! # Cell memories and the blocks laid out in them

A memory is a total function from addresses to cells. `slice` reads a stretch of
it, `overwrite` stores one, and `Laid` says that a sequence of blocks fills a
stretch without gaps. -/

namespace StaticLog

/-- A memory of cells. Which addresses belong to an allocation is not part of
the memory: bounds are stated where they matter. -/
abbrev Memory (Cell : Type u) := Nat → Cell

namespace Memory

variable {Cell : Type u}

/-- The `length` cells from `start` on. -/
def slice (memory : Memory Cell) (start length : Nat) : List Cell :=
  (List.range' start length).map memory

/-- The memory after the cells of `block` have been stored from `start` on. -/
def overwrite (memory : Memory Cell) (start : Nat) (block : List Cell) : Memory Cell :=
  fun address =>
    if start ≤ address then (block[address - start]?).getD (memory address)
    else memory address

@[simp] theorem slice_length (memory : Memory Cell) (start length : Nat) :
    (slice memory start length).length = length := by
  simp [slice]

@[simp] theorem slice_zero (memory : Memory Cell) (start : Nat) :
    slice memory start 0 = [] := rfl

theorem slice_succ (memory : Memory Cell) (start length : Nat) :
    slice memory start (length + 1) =
      memory start :: slice memory (start + 1) length := by
  simp [slice, List.range'_succ]

theorem slice_add (memory : Memory Cell) (start first second : Nat) :
    slice memory start (first + second) =
      slice memory start first ++ slice memory (start + first) second := by
  induction first generalizing start with
  | zero => simp
  | succ first induction =>
      rw [Nat.add_right_comm, slice_succ, slice_succ, induction]
      simp [Nat.add_assoc, Nat.add_comm 1]

/-- Reading depends only on the cells that are read. -/
theorem slice_congr {left right : Memory Cell} {start length : Nat}
    (agree : ∀ address, start ≤ address → address < start + length →
      left address = right address) :
    slice left start length = slice right start length := by
  apply List.map_congr_left
  intro address member
  rw [List.mem_range'_1] at member
  exact agree address member.1 member.2

theorem overwrite_of_lt (memory : Memory Cell) {start address : Nat}
    (block : List Cell) (below : address < start) :
    overwrite memory start block address = memory address := by
  simp [overwrite, Nat.not_le.mpr below]

theorem overwrite_of_ge (memory : Memory Cell) {start address : Nat}
    (block : List Cell) (above : start + block.length ≤ address) :
    overwrite memory start block address = memory address := by
  have outside : block.length ≤ address - start := by omega
  simp [overwrite, List.getElem?_eq_none outside]

theorem overwrite_inside (memory : Memory Cell) (start : Nat) (block : List Cell)
    (index : Nat) (inside : index < block.length) :
    overwrite memory start block (start + index) = block[index] := by
  simp [overwrite, inside]

@[simp] theorem overwrite_nil (memory : Memory Cell) (start : Nat) :
    overwrite memory start [] = memory := by
  funext address
  simp [overwrite]

theorem overwrite_congr {left right : Memory Cell} {address : Nat}
    (agree : left address = right address) (start : Nat) (block : List Cell) :
    overwrite left start block address = overwrite right start block address := by
  rw [overwrite, overwrite, agree]

/-- Two blocks that are stored one behind the other. -/
theorem overwrite_append (memory : Memory Cell) (start : Nat) (first second : List Cell) :
    overwrite (overwrite memory start first) (start + first.length) second =
      overwrite memory start (first ++ second) := by
  funext address
  rcases Nat.lt_or_ge address start with below | above
  · have before : address < start + first.length := Nat.lt_add_right _ below
    rw [overwrite_of_lt _ _ before, overwrite_of_lt _ _ below, overwrite_of_lt _ _ below]
  · rcases Nat.lt_or_ge address (start + first.length) with before | behind
    · have inFirst : address - start < first.length := by omega
      rw [overwrite_of_lt _ _ before, overwrite, if_pos above, overwrite, if_pos above,
        List.getElem?_append_left inFirst]
    · have inSecond : first.length ≤ address - start := by omega
      rw [overwrite, if_pos behind, overwrite_of_ge _ _ behind, overwrite, if_pos above,
        List.getElem?_append_right inSecond, Nat.sub_add_eq]

/-- The block behind is stored first. -/
theorem overwrite_append_reverse (memory : Memory Cell) (start : Nat)
    (first second : List Cell) :
    overwrite (overwrite memory (start + first.length) second) start first =
      overwrite memory start (first ++ second) := by
  rw [← overwrite_append]
  funext address
  rcases Nat.lt_or_ge address (start + first.length) with before | behind
  · rw [overwrite_of_lt _ second before]
    exact overwrite_congr (overwrite_of_lt _ second before) start first
  · rw [overwrite_of_ge _ first behind]
    exact overwrite_congr (overwrite_of_ge _ first behind).symm _ second

/-- What was stored is read back. -/
theorem slice_overwrite_self (memory : Memory Cell) (start : Nat) (block : List Cell) :
    slice (overwrite memory start block) start block.length = block := by
  apply List.ext_getElem (slice_length _ _ _)
  intro index _ inside
  simp only [slice, List.getElem_map, List.getElem_range', Nat.one_mul]
  exact overwrite_inside memory start block index inside

theorem getElem_slice (memory : Memory Cell) (start length index : Nat)
    (inside : index < (slice memory start length).length) :
    (slice memory start length)[index] = memory (start + index) := by
  simp [slice]

/-- Storing a block changes nothing just if it is there already. -/
theorem overwrite_eq_self_iff (memory : Memory Cell) (start : Nat) (block : List Cell) :
    overwrite memory start block = memory ↔ slice memory start block.length = block := by
  constructor
  · intro same
    have stored := slice_overwrite_self memory start block
    rw [same] at stored
    exact stored
  · intro there
    funext address
    rcases Nat.lt_or_ge address start with below | above
    · exact overwrite_of_lt memory block below
    · rcases Nat.lt_or_ge address (start + block.length) with within | behind
      · rcases Nat.exists_eq_add_of_le above with ⟨index, rfl⟩
        have inside : index < block.length := by omega
        have cell := getElem_slice memory start block.length index
          (by rw [slice_length]; exact inside)
        rw [overwrite_inside memory start block index inside]
        exact (List.getElem_of_eq there _).symm.trans cell
      · exact overwrite_of_ge memory block behind

/-- A store leaves every stretch that it does not touch as it was. -/
theorem slice_overwrite_of_disjoint (memory : Memory Cell) {start target length : Nat}
    (block : List Cell)
    (disjoint : start + length ≤ target ∨ target + block.length ≤ start) :
    slice (overwrite memory target block) start length = slice memory start length := by
  apply slice_congr
  intro address lower upper
  rcases disjoint with before | behind
  · exact overwrite_of_lt memory block (by omega)
  · exact overwrite_of_ge memory block (by omega)

/-- A store at the start of a longer stretch changes its first cells only. -/
theorem slice_overwrite_start (memory : Memory Cell) (start : Nat) (block : List Cell)
    {length : Nat} (within : block.length ≤ length) :
    slice (overwrite memory start block) start length =
      block ++ (slice memory start length).drop block.length := by
  rcases Nat.exists_eq_add_of_le within with ⟨rest, rfl⟩
  have behind := slice_overwrite_of_disjoint memory block
    (.inr (Nat.le_refl _) : start + block.length + rest ≤ start ∨
      start + block.length ≤ start + block.length)
  rw [slice_add, slice_overwrite_self, behind, slice_add,
    List.drop_left' (slice_length _ _ _)]

theorem slice_take (memory : Memory Cell) (start : Nat) {first length : Nat}
    (within : first ≤ length) :
    (slice memory start length).take first = slice memory start first := by
  rcases Nat.exists_eq_add_of_le within with ⟨rest, rfl⟩
  rw [slice_add, List.take_left' (slice_length _ _ _)]

/-- Of a longer stored block its first cells are read back. -/
theorem slice_overwrite_take (memory : Memory Cell) (start : Nat) (block : List Cell)
    {length : Nat} (within : length ≤ block.length) :
    slice (overwrite memory start block) start length = block.take length := by
  rw [← slice_take _ start within, slice_overwrite_self]

/-- A memory that has changed in a stretch only is the old one with a new block there. -/
theorem eq_overwrite_slice {before after : Memory Cell} (start length : Nat)
    (outside : ∀ address, address < start ∨ start + length ≤ address →
      after address = before address) :
    after = overwrite before start (slice after start length) := by
  have fresh : overwrite before start (slice after start length) =
      overwrite after start (slice after start length) := by
    funext address
    rcases Nat.lt_or_ge address start with below | above
    · rw [overwrite_of_lt _ _ below, overwrite_of_lt _ _ below, outside _ (.inl below)]
    · rcases Nat.lt_or_ge address (start + length) with within | behind
      · rcases Nat.exists_eq_add_of_le above with ⟨index, rfl⟩
        have inside : index < (slice after start length).length := by
          rw [slice_length]
          omega
        rw [overwrite_inside _ _ _ _ inside, overwrite_inside _ _ _ _ inside]
      · exact overwrite_congr (outside _ (.inr behind)).symm _ _
  rw [fresh]
  exact ((overwrite_eq_self_iff after start _).mpr (by rw [slice_length])).symm

/-- The cells from a base on, counted from there. -/
def relativeTo (memory : Memory Cell) (base : Nat) : Memory Cell := fun offset =>
  memory (base + offset)

theorem slice_relativeTo (memory : Memory Cell) (base start length : Nat) :
    slice (memory.relativeTo base) start length = slice memory (base + start) length := by
  induction length generalizing start with
  | zero => rfl
  | succ length induction =>
      rw [slice_succ, slice_succ, induction, Nat.add_assoc]
      rfl

theorem relativeTo_overwrite (memory : Memory Cell) (base start : Nat) (block : List Cell) :
    relativeTo (overwrite memory (base + start) block) base =
      overwrite (memory.relativeTo base) start block := by
  funext offset
  simp only [relativeTo, overwrite, Nat.add_le_add_iff_left, Nat.add_sub_add_left]

/-- The blocks fill the stretch from `start` to `stop`, one behind the other. -/
def Laid (memory : Memory Cell) : Nat → List (List Cell) → Nat → Prop
  | start, [], stop => start = stop
  | start, block :: blocks, stop =>
      slice memory start block.length = block ∧
        Laid memory (start + block.length) blocks stop

namespace Laid

variable {memory : Memory Cell} {start middle stop : Nat}
  {blocks front back : List (List Cell)} {block : List Cell}

@[simp] theorem nil_iff : Laid memory start [] stop ↔ start = stop := Iff.rfl

@[simp] theorem cons_iff : Laid memory start (block :: blocks) stop ↔
    slice memory start block.length = block ∧
      Laid memory (start + block.length) blocks stop := Iff.rfl

/-- Where blocks end depends on their sizes only. -/
theorem stop_eq (laid : Laid memory start blocks stop) :
    stop = start + blocks.flatten.length := by
  induction blocks generalizing start with
  | nil => exact laid.symm
  | cons block blocks induction =>
      rw [induction laid.2, List.flatten_cons, List.length_append, Nat.add_assoc]

theorem start_le (laid : Laid memory start blocks stop) : start ≤ stop := by
  rw [laid.stop_eq]
  exact Nat.le_add_right _ _

/-- Non-empty blocks need room. -/
theorem eq_nil_of_start_eq (laid : Laid memory start blocks start)
    (solid : ∀ block ∈ blocks, block ≠ []) : blocks = [] := by
  cases blocks with
  | nil => rfl
  | cons block blocks =>
      have positive : 0 < block.length :=
        List.length_pos_iff.mpr (solid block (by simp))
      have tail := start_le laid.2
      omega

theorem append (first : Laid memory start front middle)
    (second : Laid memory middle back stop) :
    Laid memory start (front ++ back) stop := by
  induction front generalizing start with
  | nil =>
      cases (nil_iff.mp first)
      exact second
  | cons block front induction => exact ⟨first.1, induction first.2⟩

/-- Where the first blocks end is determined by their sizes. -/
theorem split (laid : Laid memory start (front ++ back) stop) :
    ∃ middle, Laid memory start front middle ∧ Laid memory middle back stop := by
  induction front generalizing start with
  | nil => exact ⟨start, rfl, laid⟩
  | cons block front induction =>
      rcases induction laid.2 with ⟨middle, first, second⟩
      exact ⟨middle, ⟨laid.1, first⟩, second⟩

/-- One more block behind the others. -/
theorem snoc (laid : Laid memory start blocks stop)
    (stored : slice memory stop block.length = block) :
    Laid memory start (blocks ++ [block]) (stop + block.length) :=
  laid.append ⟨stored, rfl⟩

/-- A stretch that reads as the blocks together has the blocks laid out in it. -/
theorem of_slice
    (read : slice memory start blocks.flatten.length = blocks.flatten) :
    Laid memory start blocks (start + blocks.flatten.length) := by
  induction blocks generalizing start with
  | nil => rfl
  | cons block blocks induction =>
      rw [List.flatten_cons, List.length_append, slice_add] at read
      have parts := List.append_inj read (slice_length _ _ _)
      have tail := induction parts.2
      rw [List.flatten_cons, List.length_append, ← Nat.add_assoc]
      exact ⟨parts.1, tail⟩

theorem congr {changed : Memory Cell} (laid : Laid memory start blocks stop)
    (agree : ∀ address, start ≤ address → address < stop →
      changed address = memory address) :
    Laid changed start blocks stop := by
  induction blocks generalizing start with
  | nil => exact laid
  | cons block blocks induction =>
      have tailStarts := start_le laid.2
      constructor
      · refine (slice_congr ?_).trans laid.1
        intro address lower upper
        exact agree address lower (by omega)
      · apply induction laid.2
        intro address lower upper
        exact agree address (by omega) upper

/-- A store outside the stretch does not disturb the blocks. -/
theorem overwrite_of_disjoint (laid : Laid memory start blocks stop)
    {target : Nat} {stored : List Cell}
    (disjoint : stop ≤ target ∨ target + stored.length ≤ start) :
    Laid (overwrite memory target stored) start blocks stop := by
  apply laid.congr
  intro address lower upper
  rcases disjoint with before | behind
  · exact overwrite_of_lt memory stored (by omega)
  · exact overwrite_of_ge memory stored (by omega)

end Laid

end Memory

end StaticLog
