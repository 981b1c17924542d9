import StaticLog.Decoding.Retry

/-! # The text in the log buffer

What a decoding function leaves at its position of the log buffer. A call that
has to grow the buffer takes over what stands in front of the position and prints
once more. Both functions grow too late or too often at one boundary: a string
that just fills the free space loses its last character, and an empty text for
which there is no space at all is retried without end. -/

namespace StaticLog

/-- The blocks that `malloc` gives lie in the address space. -/
def Libc.Addressable (libc : Libc) : Prop :=
  ∀ count size address, size < 2 ^ 63 → libc.malloc count size = some address →
    address + size < 2 ^ 64

namespace Decoding

/-- The log buffer is used up to a position and lies in the address space. -/
structure Output.FreeFrom (startPos : Nat) (output : Output) : Prop where
  free : startPos + output.reserved = output.length
  small : output.length < 2 ^ 62
  placed : output.logBuffer + output.length < 2 ^ 64

theorem Output.FreeFrom.samePlace {startPos : Nat} {output after : Output}
    (free : output.FreeFrom startPos) (same : output.SamePlace after) :
    after.FreeFrom startPos where
  free := by
    rw [same.reserved, same.length]
    exact free.free
  small := by
    rw [same.length]
    exact free.small
  placed := by
    rw [same.logBuffer, same.length]
    exact free.placed

/-- The complete text stands at the position, behind what was in front of it, and
its length has been returned. -/
structure Rendered (text : List UInt8) (startPos : Nat) (before after : Output)
    (ret : Int) : Prop where
  kept : Memory.slice after.heap after.logBuffer startPos =
    Memory.slice before.heap before.logBuffer startPos
  stored : Memory.slice after.heap (after.logBuffer + startPos) text.length = text
  returned : ret = text.length
  free : startPos + after.reserved = after.length
  room : text.length ≤ after.reserved

theorem pointerAdd_of_lt {pointer count : Nat} (fits : pointer + count < 2 ^ 64) :
    pointerAdd pointer count = pointer + count := Nat.mod_eq_of_lt fits

/-! ## What is stored -/

section Stores

variable (libc : Libc) (heap : Memory UInt8) {start length target source count size : Nat}
  (fmt : List UInt8) (arg : VarArg)

theorem slice_memcpy (within : length ≤ count) :
    Memory.slice (memcpy heap target source count) target length =
      Memory.slice heap source length := by
  induction length with
  | zero => rfl
  | succ length induction =>
      rw [Memory.slice_add, Memory.slice_add, induction (by omega)]
      simp only [Memory.slice, List.range'_one, List.map_cons, List.map_nil, memcpy]
      rw [if_pos ⟨Nat.le_add_right _ _, by omega⟩, Nat.add_sub_cancel_left]

theorem slice_snprintf_in_front (inFront : start + length ≤ target) :
    Memory.slice (snprintf libc heap target size fmt arg).1 start length =
      Memory.slice heap start length := by
  simp only [snprintf]
  split
  · rfl
  · exact Memory.slice_overwrite_of_disjoint heap _ (.inl inFront)

/-- A text that leaves room for the NUL is stored completely. -/
theorem slice_snprintf_text (room : (libc.render fmt arg).length < size) :
    Memory.slice (snprintf libc heap target size fmt arg).1 target
      (libc.render fmt arg).length = libc.render fmt arg := by
  have sizePos : size ≠ 0 := by omega
  have whole : (libc.render fmt arg).take (size - 1) = libc.render fmt arg :=
    List.take_of_length_le (by omega)
  simp only [snprintf, if_neg sizePos, whole]
  rw [Memory.slice_overwrite_take _ _ _ (by simp), List.take_left' rfl]

/-- The NUL takes the place of the last character of a text that fills the size. -/
theorem slice_snprintf_cut (full : (libc.render fmt arg).length = size)
    (sizePos : size ≠ 0) :
    Memory.slice (snprintf libc heap target size fmt arg).1 target size =
      (libc.render fmt arg).take (size - 1) ++ [0] := by
  simp only [snprintf, if_neg sizePos]
  have length : ((libc.render fmt arg).take (size - 1) ++ [0]).length = size := by
    rw [List.length_append, List.length_take, List.length_singleton]
    omega
  rw [Memory.slice_overwrite_take _ _ _ (Nat.le_of_eq length.symm),
    List.take_of_length_le (Nat.le_of_eq length)]

end Stores

/-! ## Strings -/

/-- `decodeStringFmt` cannot copy its parameter. -/
def paramBufferFails (libc : Libc) (paramSize : Nat) (output : Output) : Bool :=
  decide (defaultParamCacheSize ≤ paramSize) &&
    (libc.malloc output.mallocs (paramSize + 1)).isNone

theorem paramBufferFails_of_allocates {libc : Libc} (allocates : libc.Allocates)
    (paramSize : Nat) (output : Output) :
    paramBufferFails libc paramSize output = false := by
  rw [paramBufferFails, Option.isNone_eq_false_iff.mpr, Bool.and_false]
  exact Option.isSome_iff_ne_none.mpr (allocates _ _)

/-- The variables when the parameter has been copied. -/
def Output.withParamBuffer (paramSize : Nat) (output : Output) : Output :=
  if decide (defaultParamCacheSize ≤ paramSize) then
    { output with mallocs := output.mallocs + 1 }
  else output

theorem decodeStringFmt_eq (libc : Libc) (startPos : Nat) (param : Memory UInt8)
    (paramPos paramSize : Nat) (fmt : List UInt8) (output : Output) :
    decodeStringFmt libc startPos param paramPos paramSize fmt output =
      if paramBufferFails libc paramSize output then
        ({ output with mallocs := output.mallocs + 1 }, -1)
      else
        printString libc startPos fmt
          (.string (cString (Memory.slice param paramPos paramSize)))
          (output.withParamBuffer paramSize) := rfl

section PrintString

variable {libc : Libc} {startPos paramPos paramSize : Nat} {param : Memory UInt8}
  {fmt : List UInt8} {arg : VarArg} {output : Output}

@[simp] theorem withParamBuffer_heap : (output.withParamBuffer paramSize).heap = output.heap := by
  rw [Output.withParamBuffer]
  split <;> rfl

@[simp] theorem withParamBuffer_logBuffer :
    (output.withParamBuffer paramSize).logBuffer = output.logBuffer := by
  rw [Output.withParamBuffer]
  split <;> rfl

@[simp] theorem withParamBuffer_length :
    (output.withParamBuffer paramSize).length = output.length := by
  rw [Output.withParamBuffer]
  split <;> rfl

@[simp] theorem withParamBuffer_reserved :
    (output.withParamBuffer paramSize).reserved = output.reserved := by
  rw [Output.withParamBuffer]
  split <;> rfl

/-- The copy of the parameter has a buffer of its own. -/
theorem withParamBuffer_samePlace (paramSize : Nat) (output : Output) :
    output.SamePlace (output.withParamBuffer paramSize) :=
  ⟨withParamBuffer_logBuffer, withParamBuffer_length, withParamBuffer_reserved⟩

theorem Output.FreeFrom.withParamBuffer (free : output.FreeFrom startPos)
    (paramSize : Nat) : (output.withParamBuffer paramSize).FreeFrom startPos :=
  free.samePlace (withParamBuffer_samePlace paramSize output)

/-- The length of a new buffer: what was free before has cancelled out. -/
theorem Output.FreeFrom.grown (free : output.FreeFrom startPos) {more : Nat}
    (bounded : more ≤ 2 ^ 32) :
    wrappingSub ((more + output.length) % 2 ^ 64) output.reserved = startPos + more := by
  have sum := free.free
  have small := free.small
  rw [Nat.mod_eq_of_lt (by omega), wrappingSub_of_le (by omega)]
  omega

/-- The length of the buffer that a string is printed into for the second time. -/
theorem stringGrowth (free : output.FreeFrom startPos) {needed : Nat}
    (bounded : needed ≤ Format.intMax) :
    wrappingSub ((needed + 1 + output.length) % 2 ^ 64) output.reserved =
      startPos + needed + 1 := by
  simp only [Format.intMax] at bounded
  exact free.grown (by omega)

theorem printString_grows (free : output.FreeFrom startPos)
    (succeeds : libc.fails fmt arg = false)
    (long : output.reserved < (libc.render fmt arg).length) {tmp : Nat}
    (allocated : libc.malloc output.mallocs
      (startPos + (libc.render fmt arg).length + 1) = some tmp) :
    printString libc startPos fmt arg output =
      ({ heap := (snprintf libc
            (memcpy (snprintf libc output.heap (pointerAdd output.logBuffer startPos)
              output.reserved fmt arg).1 tmp output.logBuffer startPos)
            (pointerAdd tmp startPos) ((libc.render fmt arg).length + 1) fmt arg).1
         logBuffer := tmp
         length := startPos + (libc.render fmt arg).length + 1
         reserved := (libc.render fmt arg).length + 1
         mallocs := output.mallocs + 1 }, toInt (libc.render fmt arg).length) := by
  have bounded := libc.render_fits fmt arg
  simp only [Format.intMax] at bounded
  have sum := free.free
  have small := free.small
  have newLength := stringGrowth free (libc.render_fits fmt arg)
  have newReserved : (wrappingSub (startPos + (libc.render fmt arg).length + 1)
      output.length + output.reserved) % 2 ^ 64 = (libc.render fmt arg).length + 1 := by
    rw [wrappingSub_of_le (by omega), Nat.mod_eq_of_lt (by omega)]
    omega
  have newBound : ((libc.render fmt arg).length + 1) % 2 ^ 64 =
      (libc.render fmt arg).length + 1 := Nat.mod_eq_of_lt (by omega)
  have needed (heap : Memory UInt8) (target size : Nat) :
      (snprintf libc heap target size fmt arg).2 = (libc.render fmt arg).length :=
    libc.fmtLen_of_succeeds succeeds
  simp only [printString, needed, if_pos long, newLength, allocated, newReserved, newBound]

theorem printString_refused (free : output.FreeFrom startPos)
    (succeeds : libc.fails fmt arg = false)
    (long : output.reserved < (libc.render fmt arg).length)
    (refused : libc.malloc output.mallocs
      (startPos + (libc.render fmt arg).length + 1) = none) :
    printString libc startPos fmt arg output =
      ({ output with
          heap := (snprintf libc output.heap (pointerAdd output.logBuffer startPos)
            output.reserved fmt arg).1
          mallocs := output.mallocs + 1 }, -1) := by
  have newLength := stringGrowth free (libc.render_fits fmt arg)
  have needed (heap : Memory UInt8) (target size : Nat) :
      (snprintf libc heap target size fmt arg).2 = (libc.render fmt arg).length :=
    libc.fmtLen_of_succeeds succeeds
  simp only [printString, needed, if_pos long, newLength, refused]

/-- A failure of `snprintf` is taken for a text that leaves no room for its NUL in a buffer
of any length: what is asked for is as long as what is in front. -/
theorem printString_of_fails (free : output.FreeFrom startPos)
    (fails : libc.fails fmt arg = true) :
    let printed := (snprintf libc output.heap (pointerAdd output.logBuffer startPos)
      output.reserved fmt arg).1
    printString libc startPos fmt arg output =
      match libc.malloc output.mallocs startPos with
      | none => ({ output with heap := printed, mallocs := output.mallocs + 1 }, -1)
      | some tmp =>
          ({ heap := memcpy printed tmp output.logBuffer startPos
             logBuffer := tmp
             length := startPos
             reserved := 0
             mallocs := output.mallocs + 1 }, -1) := by
  have sum := free.free
  have small := free.small
  have needed (heap : Memory UInt8) (target size : Nat) :
      (snprintf libc heap target size fmt arg).2 = 2 ^ 64 - 1 := libc.fmtLen_of_fails fails
  have long : output.reserved < 2 ^ 64 - 1 := by omega
  have newLength : wrappingSub ((2 ^ 64 - 1 + 1 + output.length) % 2 ^ 64) output.reserved =
      startPos := by
    rw [show (2 ^ 64 - 1 + 1 + output.length) % 2 ^ 64 = output.length by omega,
      wrappingSub_of_le (by omega)]
    omega
  have newReserved : (wrappingSub startPos output.length + output.reserved) % 2 ^ 64 = 0 := by
    simp only [wrappingSub]
    split <;> omega
  have nothing (heap : Memory UInt8) (target : Nat) :
      (snprintf libc heap target ((2 ^ 64 - 1 + 1) % 2 ^ 64) fmt arg).1 = heap := rfl
  have failed : toInt (2 ^ 64 - 1) = -1 := by decide
  cases given : libc.malloc output.mallocs startPos <;>
    simp only [printString, needed, if_pos long, newLength, newReserved, nothing, failed, given]

theorem Output.FreeFrom.pointer (free : output.FreeFrom startPos) :
    pointerAdd output.logBuffer startPos = output.logBuffer + startPos := by
  have sum := free.free
  have placed := free.placed
  exact pointerAdd_of_lt (by omega)

/-- A text printed behind what was taken over, with room for the NUL. -/
theorem Rendered.of_snprintf {before after : Output} {heap : Memory UInt8} {bound : Nat}
    (kept : Memory.slice heap after.logBuffer startPos =
      Memory.slice before.heap before.logBuffer startPos)
    (printed : after.heap =
      (snprintf libc heap (after.logBuffer + startPos) bound fmt arg).1)
    (bounded : (libc.render fmt arg).length < bound)
    (free : startPos + after.reserved = after.length)
    (room : (libc.render fmt arg).length ≤ after.reserved) :
    Rendered (libc.render fmt arg) startPos before after
      (toInt (libc.render fmt arg).length) where
  kept := by
    rw [printed, slice_snprintf_in_front libc heap fmt arg (Nat.le_refl _)]
    exact kept
  stored := by
    rw [printed]
    exact slice_snprintf_text libc heap fmt arg bounded
  returned := by
    have small := libc.render_fits fmt arg
    simp only [Format.intMax] at small
    exact toInt_of_lt (by omega)
  free := free
  room := room

/-- The text of a string is there completely unless it just fills the free space. -/
theorem printString_rendered (allocates : libc.Allocates) (addressable : libc.Addressable)
    (free : output.FreeFrom startPos) (succeeds : libc.fails fmt arg = false)
    (notExact : (libc.render fmt arg).length ≠ output.reserved ∨ libc.render fmt arg = []) :
    Rendered (libc.render fmt arg) startPos output
      (printString libc startPos fmt arg output).1
      (printString libc startPos fmt arg output).2 := by
  have sum := free.free
  have small := free.small
  have bounded := libc.render_fits fmt arg
  simp only [Format.intMax] at bounded
  have needed := libc.fmtLen_of_succeeds succeeds
  rcases Nat.lt_trichotomy (libc.render fmt arg).length output.reserved with
    fits | exact_fit | long
  · rw [printString_fits (needed.trans_le (Nat.le_of_lt fits)), free.pointer, needed]
    exact .of_snprintf rfl rfl fits sum (Nat.le_of_lt fits)
  · -- Only an empty text is left, for which nothing has to be stored.
    have empty : libc.render fmt arg = [] :=
      notExact.resolve_left fun different => different exact_fit
    have full : output.reserved = 0 := by
      rw [← exact_fit, empty, List.length_nil]
    have nothing : (snprintf libc output.heap (pointerAdd output.logBuffer startPos)
        output.reserved fmt arg).1 = output.heap := if_pos full
    rw [printString_fits (needed.trans_le (Nat.le_of_eq exact_fit)), nothing, needed, empty]
    exact ⟨rfl, rfl, rfl, sum, Nat.zero_le _⟩
  · rcases allocated : libc.malloc output.mallocs
      (startPos + (libc.render fmt arg).length + 1) with _ | tmp
    · exact absurd allocated (allocates _ _)
    · have inSpace := addressable _ _ _ (by omega) allocated
      have pointer : pointerAdd tmp startPos = tmp + startPos := pointerAdd_of_lt (by omega)
      rw [printString_grows free succeeds long allocated, pointer, free.pointer]
      apply Rendered.of_snprintf _ rfl (Nat.lt_succ_self _)
      · exact (Nat.add_assoc _ _ _).symm
      · exact Nat.le_succ _
      · rw [slice_memcpy _ (Nat.le_refl _)]
        exact slice_snprintf_in_front libc output.heap fmt arg (Nat.le_refl _)

/-- A string that just fills the free space ends with a NUL. -/
theorem printString_cut (free : output.FreeFrom startPos)
    (succeeds : libc.fails fmt arg = false)
    (exact_fit : (libc.render fmt arg).length = output.reserved)
    (nonempty : libc.render fmt arg ≠ []) :
    let printed := printString libc startPos fmt arg output
    Memory.slice printed.1.heap (printed.1.logBuffer + startPos)
        (libc.render fmt arg).length =
      (libc.render fmt arg).dropLast ++ [0] := by
  have sizePos : output.reserved ≠ 0 := by
    rw [← exact_fit]
    exact fun zero => nonempty (List.eq_nil_of_length_eq_zero zero)
  simp only
  rw [printString_fits ((libc.fmtLen_of_succeeds succeeds).trans_le (Nat.le_of_eq exact_fit)),
    free.pointer, List.dropLast_eq_take, exact_fit]
  exact slice_snprintf_cut libc output.heap fmt arg exact_fit sizePos

/-- `decodeStringFmt` renders the whole string if and only if its text does not just
fill the free space. -/
theorem decodeStringFmt_renders_iff (allocates : libc.Allocates)
    (addressable : libc.Addressable) (free : output.FreeFrom startPos)
    (succeeds : libc.fails fmt
      (.string (cString (Memory.slice param paramPos paramSize))) = false)
    (noNul : ∀ c ∈ libc.render fmt
      (.string (cString (Memory.slice param paramPos paramSize))), c ≠ 0) :
    let text := libc.render fmt (.string (cString (Memory.slice param paramPos paramSize)))
    let decoded := decodeStringFmt libc startPos param paramPos paramSize fmt output
    Rendered text startPos output decoded.1 decoded.2 ↔
      text.length ≠ output.reserved ∨ text = [] := by
  have copied := paramBufferFails_of_allocates allocates paramSize output
  simp only [decodeStringFmt_eq, copied, Bool.false_eq_true, if_false]
  generalize VarArg.string _ = arg at succeeds noNul ⊢
  constructor
  · intro rendered
    by_contra cut
    rw [not_or, not_not] at cut
    have stored := rendered.stored
    have last := printString_cut (free.withParamBuffer paramSize) succeeds
      (by simpa using cut.1) cut.2
    simp only [last] at stored
    exact noNul 0 (stored ▸ List.mem_append_right _ (List.mem_singleton_self 0)) rfl
  · intro notExact
    have rendered := printString_rendered allocates addressable
      (free.withParamBuffer paramSize) succeeds (by simpa using notExact)
    have kept := rendered.kept
    simp only [withParamBuffer_heap, withParamBuffer_logBuffer] at kept
    exact { rendered with kept := kept }

end PrintString

/-! ### Strings at the end of a small buffer -/

namespace Boundary

/-- A C library for examples that also knows that `%.0d` of zero is empty. Its
addresses come round again after 2^16 allocations. -/
def libc : Libc where
  render fmt arg :=
    if fmt = ascii "%.0d" ∧ arg = .int 0 then [] else Libc.sample.render fmt arg
  render_fits := by
    intro fmt arg
    split
    · exact Nat.zero_le _
    · exact Libc.sample.render_fits fmt arg
  fails := Libc.sample.fails
  malloc count _ := some ((count % 2 ^ 16 + 1) * 2 ^ 32)
  heapTail := Libc.sample.heapTail

theorem allocates : libc.Allocates := by
  intro count size
  simp [libc]

theorem addressable : libc.Addressable := by
  intro count size address small allocated
  simp only [libc, Option.some.injEq] at allocated
  omega

/-- A buffer of which two bytes are in use. -/
def output (reserved : Nat) : Output where
  heap _ := 0
  logBuffer := 4096
  length := 2 + reserved
  reserved := reserved
  mallocs := 0

def param (bytes : List UInt8) : Memory UInt8 := Memory.overwrite (fun _ => 0) 0 bytes

end Boundary

/-- A text of four characters makes the buffer grow. -/
theorem decodeStringFmt_renders_four :
    Rendered (ascii "four") 2 (Boundary.output 3)
      (decodeStringFmt Boundary.libc 2 (Boundary.param (ascii "four")) 0 4 (ascii "%s")
        (Boundary.output 3)).1
      (decodeStringFmt Boundary.libc 2 (Boundary.param (ascii "four")) 0 4 (ascii "%s")
        (Boundary.output 3)).2 := by
  have noNul : ∀ c ∈ Boundary.libc.render (ascii "%s")
      (.string (cString (Memory.slice (Boundary.param (ascii "four")) 0 4))), c ≠ 0 :=
    List.forall_iff_forall_mem.mp (by decide)
  exact (decodeStringFmt_renders_iff Boundary.allocates Boundary.addressable
    ⟨rfl, by decide, by decide⟩ rfl noNul).mpr (.inl (by decide))

/-- Of a text of three characters the last one is lost. -/
theorem decodeStringFmt_cuts_three :
    (Boundary.output 3).FreeFrom 2 ∧ Boundary.libc.Allocates ∧ Boundary.libc.Addressable ∧
      ¬Rendered (ascii "abc") 2 (Boundary.output 3)
        (decodeStringFmt Boundary.libc 2 (Boundary.param (ascii "abc")) 0 3 (ascii "%s")
          (Boundary.output 3)).1
        (decodeStringFmt Boundary.libc 2 (Boundary.param (ascii "abc")) 0 3 (ascii "%s")
          (Boundary.output 3)).2 := by
  refine ⟨⟨rfl, by decide, by decide⟩, Boundary.allocates, Boundary.addressable, ?_⟩
  intro rendered
  have stored := rendered.stored
  revert stored
  decide

/-! ## Other parameters -/

section RetryNonString

variable {libc : Libc} {startPos passes paramPos paramSize : Nat} {param : Memory UInt8}
  {fmt : List UInt8} {branch : Branch} {output : Output}

/-- The length of the buffer that a text is tried in for the second time. -/
theorem nonStringGrowth (free : output.FreeFrom startPos)
    (succeeds : libc.fails fmt branch.arg = false) :
    grownLength (libc.fmtLen fmt branch.arg) output.length output.reserved =
      startPos + 2 * (libc.render fmt branch.arg).length := by
  have bounded := libc.render_fits fmt branch.arg
  simp only [Format.intMax] at bounded
  rw [libc.fmtLen_of_succeeds succeeds]
  exact free.grown (by omega)

/-- The free space behind a growth is twice the length of the text. -/
theorem grown_reserved (free : output.FreeFrom startPos)
    (succeeds : libc.fails fmt branch.arg = false) (buffer : Nat) :
    (output.grown libc startPos fmt branch buffer).reserved =
      2 * (libc.render fmt branch.arg).length := by
  simp only [Output.grown, nonStringGrowth free succeeds]
  exact wrappingSub_add_left _ _

theorem fits_grown (free : output.FreeFrom startPos)
    (succeeds : libc.fails fmt branch.arg = false)
    (positive : 0 < (libc.render fmt branch.arg).length) (buffer : Nat) :
    (libc.render fmt branch.arg).length <
      (output.grown libc startPos fmt branch buffer).reserved := by
  rw [grown_reserved free succeeds]
  omega

theorem retryNonString_again (free : output.FreeFrom startPos)
    (succeeds : libc.fails fmt branch.arg = false)
    (long : output.reserved ≤ (libc.render fmt branch.arg).length) {buffer : Nat}
    (allocated : libc.malloc output.mallocs
      (startPos + 2 * (libc.render fmt branch.arg).length) = some buffer) (passes : Nat) :
    retryNonString libc startPos fmt branch (passes + 1) output =
      retryNonString libc startPos fmt branch passes
        (output.grown libc startPos fmt branch buffer) := by
  rw [← nonStringGrowth free succeeds] at allocated
  rw [← libc.fmtLen_of_succeeds succeeds] at long
  exact retryNonString_grows long allocated startPos passes

theorem retryNonString_fails (free : output.FreeFrom startPos)
    (succeeds : libc.fails fmt branch.arg = false)
    (long : output.reserved ≤ (libc.render fmt branch.arg).length)
    (refused : libc.malloc output.mallocs
      (startPos + 2 * (libc.render fmt branch.arg).length) = none) (passes : Nat) :
    retryNonString libc startPos fmt branch (passes + 1) output =
      ({ output.printed libc startPos fmt branch with mallocs := output.mallocs + 1 },
        some (-1)) := by
  rw [← nonStringGrowth free succeeds] at refused
  rw [← libc.fmtLen_of_succeeds succeeds] at long
  exact retryNonString_refused long refused startPos passes

/-- What the last run of the body prints is the whole text. -/
theorem Rendered.of_printed {before : Output}
    (kept : Memory.slice output.heap output.logBuffer startPos =
      Memory.slice before.heap before.logBuffer startPos)
    (free : startPos + output.reserved = output.length)
    (placed : output.logBuffer + output.length < 2 ^ 64)
    (fits : (libc.render fmt branch.arg).length < output.reserved) :
    Rendered (libc.render fmt branch.arg) startPos before
      (output.printed libc startPos fmt branch)
      (toInt (libc.render fmt branch.arg).length) := by
  have pointer : pointerAdd output.logBuffer startPos = output.logBuffer + startPos :=
    pointerAdd_of_lt (by omega)
  have bounded : (libc.render fmt branch.arg).length <
      if branch.boundIsReserved then output.reserved else output.length := by
    split <;> omega
  have printed : (output.printed libc startPos fmt branch).heap =
      (snprintf libc output.heap ((output.printed libc startPos fmt branch).logBuffer +
        startPos) (if branch.boundIsReserved then output.reserved else output.length) fmt
        branch.arg).1 := by
    rw [Output.printed, pointer]
  exact .of_snprintf kept printed bounded free (Nat.le_of_lt fits)

/-- A text that is not empty, or for which there is some space, is rendered completely
in at most two runs of the body. -/
theorem retryNonString_rendered (allocates : libc.Allocates)
    (addressable : libc.Addressable) (free : output.FreeFrom startPos)
    (succeeds : libc.fails fmt branch.arg = false)
    (progress : libc.render fmt branch.arg ≠ [] ∨ output.reserved ≠ 0) :
    ∃ after ret,
      (∀ passes, 2 ≤ passes →
        retryNonString libc startPos fmt branch passes output = (after, some ret)) ∧
      Rendered (libc.render fmt branch.arg) startPos output after ret ∧
      (libc.render fmt branch.arg).length < after.reserved := by
  have sum := free.free
  have small := free.small
  have bounded := libc.render_fits fmt branch.arg
  simp only [Format.intMax] at bounded
  have needed := libc.fmtLen_of_succeeds succeeds
  have prints {output : Output} (fits : (libc.render fmt branch.arg).length < output.reserved)
      (passes : Nat) :
      retryNonString libc startPos fmt branch (passes + 1) output =
        (output.printed libc startPos fmt branch,
          some (toInt (libc.render fmt branch.arg).length)) := by
    rw [← needed] at fits ⊢
    exact retryNonString_prints libc passes startPos fmt branch output fits
  rcases Nat.lt_or_ge (libc.render fmt branch.arg).length output.reserved with fits | long
  · refine ⟨output.printed libc startPos fmt branch, _, ?_,
      .of_printed rfl sum free.placed fits, fits⟩
    intro passes enough
    obtain ⟨more, rfl⟩ : ∃ more, passes = more + 1 := ⟨passes - 1, by omega⟩
    exact prints fits more
  · have positive : 0 < (libc.render fmt branch.arg).length := by
      rcases progress with nonempty | space
      · exact List.length_pos_iff.mpr nonempty
      · omega
    rcases allocated : libc.malloc output.mallocs
      (startPos + 2 * (libc.render fmt branch.arg).length) with _ | buffer
    · exact absurd allocated (allocates _ _)
    · have inSpace := addressable _ _ _ (by omega) allocated
      have grownFits := fits_grown free succeeds positive buffer
      have grownLength : (output.grown libc startPos fmt branch buffer).length =
          startPos + 2 * (libc.render fmt branch.arg).length := nonStringGrowth free succeeds
      have grownFree : startPos + (output.grown libc startPos fmt branch buffer).reserved =
          (output.grown libc startPos fmt branch buffer).length := by
        rw [grownLength, grown_reserved free succeeds]
      have kept : Memory.slice (output.grown libc startPos fmt branch buffer).heap
          buffer startPos = Memory.slice output.heap output.logBuffer startPos := by
        simp only [Output.grown, Output.printed, free.pointer]
        rw [slice_memcpy _ (by omega)]
        exact slice_snprintf_in_front libc output.heap fmt branch.arg (Nat.le_refl _)
      rw [← grownLength] at inSpace
      refine ⟨(output.grown libc startPos fmt branch buffer).printed libc startPos fmt
        branch, _, ?_, .of_printed kept grownFree inSpace grownFits, grownFits⟩
      intro passes enough
      obtain ⟨more, rfl⟩ : ∃ more, passes = more + 2 := ⟨passes - 2, by omega⟩
      rw [retryNonString_again free succeeds long allocated]
      exact prints grownFits more

/-- The call returns from the second run of the body at the latest; if it comes to a
conversion that is handled, the text is there completely and leaves space behind it. -/
def ReturnsRendered (libc : Libc) (startPos : Nat) (fmt : List UInt8)
    (param : Memory UInt8) (paramPos paramSize : Nat) (output : Output) : Prop :=
  ∃ after ret,
    (∀ passes, 2 ≤ passes →
      decodeNonStringFmt libc passes startPos fmt param paramPos paramSize output =
        (after, some ret)) ∧
    ∀ branch, selectBranch paramSize (fmt.getLastD 0)
        (Memory.slice param paramPos paramSize) = some branch →
      Rendered (libc.render fmt branch.arg) startPos output after ret ∧
        ret < after.reserved

/-- `decodeNonStringFmt` returns with the whole text if and only if the text is not
empty or there is some space. -/
theorem decodeNonStringFmt_rendered_iff (allocates : libc.Allocates)
    (addressable : libc.Addressable) (free : output.FreeFrom startPos)
    (succeeds : ∀ branch, selectBranch paramSize (fmt.getLastD 0)
        (Memory.slice param paramPos paramSize) = some branch →
      libc.fails fmt branch.arg = false) :
    ReturnsRendered libc startPos fmt param paramPos paramSize output ↔
      ∀ branch, selectBranch paramSize (fmt.getLastD 0)
          (Memory.slice param paramPos paramSize) = some branch →
        libc.render fmt branch.arg ≠ [] ∨ output.reserved ≠ 0 := by
  have sum := free.free
  have small := free.small
  constructor
  · rintro ⟨after, ret, returns, _⟩ branch selected
    by_contra stuck
    rw [not_or, not_not, not_not] at stuck
    have empty : libc.fmtLen fmt branch.arg = 0 := by
      rw [libc.fmtLen_of_succeeds (succeeds branch selected), stuck.1, List.length_nil]
    have never := retryNonString_stuck allocates (by omega : startPos < 2 ^ 64)
      (⟨empty, stuck.2, by omega⟩ : Stuck libc startPos fmt branch output) 2
    have twice := returns 2 (Nat.le_refl 2)
    simp only [decodeNonStringFmt, selected] at twice
    rw [twice] at never
    cases never
  · intro progress
    cases selected : selectBranch paramSize (fmt.getLastD 0)
        (Memory.slice param paramPos paramSize) with
    | none =>
        refine ⟨output, 0, ?_, ?_⟩
        · intro passes _
          simp only [decodeNonStringFmt, selected]
        · intro branch handled
          rw [selected] at handled
          cases handled
    | some branch =>
        rcases retryNonString_rendered allocates addressable free (succeeds branch selected)
          (progress branch selected) with ⟨after, ret, returns, rendered, room⟩
        refine ⟨after, ret, ?_, ?_⟩
        · intro passes enough
          simp only [decodeNonStringFmt, selected]
          exact returns passes enough
        · intro other handled
          rw [selected] at handled
          cases handled
          refine ⟨rendered, ?_⟩
          rw [rendered.returned]
          exact Int.ofNat_lt.mpr room

end RetryNonString

/-- The number 1234567 in a buffer with three bytes left. -/
theorem returnsRendered_number :
    ReturnsRendered Boundary.libc 2 (ascii "%d") (Boundary.param [135, 214, 18, 0]) 0 4
      (Boundary.output 3) := by
  apply (decodeNonStringFmt_rendered_iff Boundary.allocates Boundary.addressable
    ⟨rfl, by decide, by decide⟩ (fun _ _ => rfl)).mpr
  intro _ _
  exact .inr (by decide)

/-- The conversion `%.0d` of zero is empty; without space it is retried for ever. -/
theorem not_returnsRendered_empty :
    (Boundary.output 0).FreeFrom 2 ∧ Boundary.libc.Allocates ∧ Boundary.libc.Addressable ∧
      ¬ReturnsRendered Boundary.libc 2 (ascii "%.0d") (Boundary.param [0, 0, 0, 0]) 0 4
        (Boundary.output 0) := by
  have free : (Boundary.output 0).FreeFrom 2 := ⟨rfl, by decide, by decide⟩
  refine ⟨free, Boundary.allocates, Boundary.addressable, ?_⟩
  rintro ⟨after, ret, returns, _⟩
  have selected : selectBranch 4 ((ascii "%.0d").getLastD 0)
      (Memory.slice (Boundary.param [0, 0, 0, 0]) 0 4) = some ⟨.int 0, false⟩ := rfl
  have stuck : Stuck Boundary.libc 2 (ascii "%.0d") ⟨.int 0, false⟩ (Boundary.output 0) :=
    ⟨by decide, rfl, rfl⟩
  have never := retryNonString_stuck Boundary.allocates (by decide) stuck 2
  have twice := returns 2 (Nat.le_refl 2)
  simp only [decodeNonStringFmt, selected] at twice
  rw [twice] at never
  cases never

end Decoding

end StaticLog
