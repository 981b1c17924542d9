import StaticLog.Decoding.Stores

/-! # The log buffers of a run

A larger log buffer is a block that `malloc` has given, and the one of before is freed.
What a call stores behind the front leaves the front of the last block as it was. -/

namespace StaticLog

/-- `malloc` returns addresses. -/
def Libc.Pointers (libc : Libc) : Prop :=
  ∀ count size address, libc.malloc count size = some address → address < 2 ^ 64

namespace Decoding

open StaticLog.Execution

/-! ## The growths -/

/-- The calls of `malloc`, by their numbers, whose blocks `decodeStringFmt` puts in place
of the log buffer. -/
def printStringGrowths (libc : Libc) (fmt : List UInt8) (arg : VarArg) (output : Output) :
    List Nat :=
  let neededFmtLen := libc.fmtLen fmt arg
  if output.reserved < neededFmtLen then
    let newLogBuflen :=
      wrappingSub ((neededFmtLen + 1 + output.length) % 2 ^ 64) output.reserved
    match libc.malloc output.mallocs newLogBuflen with
    | none => []
    | some _ => [output.mallocs]
  else []

/-- The same for the body behind the label `retry`, run after run. -/
def retryGrowths (libc : Libc) (startPos : Nat) (fmt : List UInt8) (branch : Branch) :
    Nat → Output → List Nat
  | 0, _ => []
  | passes + 1, output =>
      if output.reserved ≤ libc.fmtLen fmt branch.arg then
        match libc.malloc output.mallocs (grownLength (libc.fmtLen fmt branch.arg)
            output.length output.reserved) with
        | none => []
        | some buffer =>
            output.mallocs :: retryGrowths libc startPos fmt branch passes
              (output.grown libc startPos fmt branch buffer)
      else []

/-- The growths in a call. -/
def Call.growths (libc : Libc) (passes : Nat) (call : Call) : List Nat :=
  if call.isString then
    if paramBufferFails libc call.value.length call.output then []
    else
      printStringGrowths libc call.fmt (.string (cString call.value))
        (call.output.withParamBuffer call.value.length)
  else
    match selectBranch call.value.length (call.fmt.getLastD 0) call.value with
    | none => []
    | some branch =>
        retryGrowths libc call.startPos call.fmt branch passes call.output

/-- The growths up to a loop head. -/
def FmtState.growths (libc : Libc) (passes : Nat) (state : FmtState) : List Nat :=
  state.calls.flatMap (Call.growths libc passes)

/-- The blocks that have been freed: a growth gives up the block of before, which is at
the first growth the one that there was at the beginning. -/
def freed (growths : List Nat) : List (Option Nat) := (none :: growths.map some).dropLast

/-- The log buffer and its length are those of before or of a block that has been given. -/
def Owns (libc : Libc) (before after : Output) : Option Nat → Prop
  | none => after.logBuffer = before.logBuffer ∧ after.length = before.length
  | some count => libc.malloc count after.length = some after.logBuffer

/-- The log buffer is the block of the last growth, each growth is later than the one
before, and the bytes in front of the start position are still there. -/
structure Kept (libc : Libc) (startPos : Nat) (growths : List Nat) (before after : Output) :
    Prop where
  mallocs : before.mallocs ≤ after.mallocs
  given : ∀ count ∈ growths, before.mallocs ≤ count ∧ count < after.mallocs
  later : growths.Pairwise (· < ·)
  block : Owns libc before after growths.getLast?
  within : startPos ≤ after.length
  bytes : Memory.slice after.heap after.logBuffer startPos =
    Memory.slice before.heap before.logBuffer startPos

namespace Kept

variable {libc : Libc} {front : Nat} {growths more : List Nat} {before middle after : Output}

/-- The log buffer stays where it is. -/
theorem of_same (within : front ≤ before.length) (mallocs : before.mallocs ≤ after.mallocs)
    (logBuffer : after.logBuffer = before.logBuffer) (length : after.length = before.length)
    (bytes : Memory.slice after.heap before.logBuffer front =
      Memory.slice before.heap before.logBuffer front) : Kept libc front [] before after where
  mallocs := mallocs
  given := by
    intro count none
    cases none
  later := .nil
  block := ⟨logBuffer, length⟩
  within := by
    rw [length]
    exact within
  bytes := by
    rw [logBuffer]
    exact bytes

theorem refl (within : front ≤ before.length) : Kept libc front [] before before :=
  .of_same within (Nat.le_refl _) rfl rfl rfl

theorem trans (first : Kept libc front growths before middle)
    (second : Kept libc front more middle after) :
    Kept libc front (growths ++ more) before after where
  mallocs := first.mallocs.trans second.mallocs
  given := by
    intro count member
    have early := first.given count
    have late := second.given count
    have between := first.mallocs
    have onwards := second.mallocs
    rcases List.mem_append.mp member with inFirst | inSecond
    · have := early inFirst
      omega
    · have := late inSecond
      omega
  later := by
    refine List.pairwise_append.mpr ⟨first.later, second.later, ?_⟩
    intro count inFirst next inSecond
    exact (first.given count inFirst).2.trans_le (second.given next inSecond).1
  block := by
    have early := first.block
    have late := second.block
    rw [List.getLast?_append]
    cases last : more.getLast? with
    | some count =>
        rw [last] at late
        exact late
    | none =>
        rw [last] at late
        rw [Option.none_or]
        cases owner : growths.getLast? with
        | none =>
            rw [owner] at early
            exact ⟨late.1.trans early.1, late.2.trans early.2⟩
        | some count =>
            rw [owner, Owns, ← late.1, ← late.2] at early
            exact early
  within := second.within
  bytes := second.bytes.trans first.bytes

/-- What leaves the log buffer where it is adds no growth. -/
theorem onwards (kept : Kept libc front growths before middle)
    (same : Kept libc front [] middle after) : Kept libc front growths before after := by
  have whole := kept.trans same
  rw [List.append_nil] at whole
  exact whole

theorem placed (kept : Kept libc front growths before after) (pointers : libc.Pointers)
    (placed : before.logBuffer < 2 ^ 64) : after.logBuffer < 2 ^ 64 := by
  have block := kept.block
  cases owner : growths.getLast? with
  | none =>
      rw [owner] at block
      rw [block.1]
      exact placed
  | some count =>
      rw [owner] at block
      exact pointers _ _ _ block

/-- The block of the log buffer has not been freed. -/
theorem live (kept : Kept libc front growths before after) :
    growths.getLast? ∉ freed growths := by
  rcases List.eq_nil_or_concat growths with rfl | ⟨earlier, last, rfl⟩
  · simp [freed]
  · have later := kept.later
    rw [List.concat_eq_append, List.pairwise_append] at later
    rw [List.concat_eq_append, List.getLast?_append, List.getLast?_singleton, Option.some_or,
      freed, List.map_append, List.map_singleton, ← List.cons_append, List.dropLast_concat]
    intro freed
    rcases List.mem_cons.mp freed with absurd | member
    · cases absurd
    · rcases List.mem_map.mp member with ⟨count, inEarlier, same⟩
      cases same
      exact Nat.lt_irrefl _ (later.2.2 _ inEarlier _ (List.mem_singleton.mpr rfl))

end Kept

/-! ## Stores that spare the front -/

section Spares

variable (libc : Libc) (heap : Memory UInt8) {logBuffer front position : Nat}

/-- What is printed at a distance from the log buffer does not reach its front, even
when the address wraps around. -/
theorem slice_snprintf_spared (size : Nat) (fmt : List UInt8) (arg : VarArg)
    (placed : logBuffer < 2 ^ 64) (behind : front ≤ position)
    (room : position + (libc.render fmt arg).length + 1 ≤ 2 ^ 64) :
    Memory.slice (snprintf libc heap (pointerAdd logBuffer position) size fmt arg).1
      logBuffer front = Memory.slice heap logBuffer front := by
  simp only [snprintf]
  split
  · rfl
  · apply Memory.slice_overwrite_of_disjoint
    rw [List.length_append, List.length_take, List.length_singleton, pointerAdd]
    omega

/-- The same for a character at an address. -/
theorem slice_putChar_spared (c : UInt8) {address : Nat}
    (behind : front ≤ wrappingSub address logBuffer) :
    Memory.slice (Memory.overwrite heap address [c]) logBuffer front =
      Memory.slice heap logBuffer front := by
  apply Memory.slice_overwrite_of_disjoint
  rw [List.length_singleton]
  simp only [wrappingSub] at behind
  split at behind <;> omega

end Spares

/-! ## The calls -/

/-- What a call prints at a position lies behind the front, the text does not reach
around to the log buffer, and a new buffer has space for the front: a failure of
`snprintf` takes two bytes of what is in front away. -/
structure Call.Clear (libc : Libc) (front position : Nat) (call : Call) : Prop where
  behind : front ≤ position
  room : position + 2 * (call.text libc).length + 1 ≤ 2 ^ 64
  newLength : call.replacement libc ≠ none → front ≤ call.newLength libc
  shrinks : call.replacement libc ≠ none → call.isString = false →
    call.snprintfFails libc = true → front + 2 ≤ position

section Calls

variable {libc : Libc} {front startPos : Nat} {fmt : List UInt8} {output : Output}

/-- A larger buffer that takes over what stood at the old one. -/
theorem kept_grown {branch : Branch} (within : front ≤ output.length)
    (newWithin : front ≤ grownLength (libc.fmtLen fmt branch.arg) output.length
      output.reserved) {buffer : Nat}
    (allocated : libc.malloc output.mallocs (grownLength (libc.fmtLen fmt branch.arg)
      output.length output.reserved) = some buffer)
    (spared : Memory.slice (output.printed libc startPos fmt branch).heap output.logBuffer
      front = Memory.slice output.heap output.logBuffer front) :
    Kept libc front [output.mallocs] output
      (output.grown libc startPos fmt branch buffer) where
  mallocs := Nat.le_succ _
  given := by
    intro count member
    cases List.mem_singleton.mp member
    exact ⟨Nat.le_refl _, Nat.lt_succ_self _⟩
  later := List.pairwise_singleton _ _
  block := allocated
  within := newWithin
  bytes := (slice_memcpy _ within).trans spared

/-- Behind the first run the length that is asked for is what is in front and the text
twice. -/
theorem grownLength_again {fmtLen newSize : Nat} (startFits : startPos < 2 ^ 64)
    (fits : newSize < 2 ^ 64) :
    grownLength fmtLen newSize (wrappingSub newSize startPos) =
      (startPos + 2 * fmtLen) % 2 ^ 64 := by
  simp only [grownLength, wrappingSub]
  split <;> split <;> omega

theorem retryNonString_kept (pointers : libc.Pointers) {branch : Branch}
    (behind : front ≤ startPos)
    (room : startPos + (libc.render fmt branch.arg).length + 1 ≤ 2 ^ 64) (passes : Nat)
    (placed : output.logBuffer < 2 ^ 64) (within : front ≤ output.length)
    (newLength : libc.malloc output.mallocs (grownLength (libc.fmtLen fmt branch.arg)
        output.length output.reserved) ≠ none →
      output.reserved ≤ libc.fmtLen fmt branch.arg →
        front ≤ grownLength (libc.fmtLen fmt branch.arg) output.length output.reserved ∧
          front ≤ (startPos + 2 * libc.fmtLen fmt branch.arg) % 2 ^ 64) :
    Kept libc front (retryGrowths libc startPos fmt branch passes output) output
      (retryNonString libc startPos fmt branch passes output).1 := by
  induction passes generalizing output with
  | zero => exact .refl within
  | succ passes induction =>
      have spared : Memory.slice (output.printed libc startPos fmt branch).heap
          output.logBuffer front = Memory.slice output.heap output.logBuffer front :=
        slice_snprintf_spared libc output.heap _ fmt branch.arg placed behind room
      rw [retryGrowths]
      rcases Nat.lt_or_ge (libc.fmtLen fmt branch.arg) output.reserved with fits | long
      · rw [if_neg (Nat.not_le.mpr fits), retryNonString_prints libc passes startPos fmt
          branch output fits]
        exact .of_same within (Nat.le_refl _) rfl rfl spared
      · rw [if_pos long]
        cases allocated : libc.malloc output.mallocs
            (grownLength (libc.fmtLen fmt branch.arg) output.length output.reserved) with
        | none =>
            rw [retryNonString_refused long allocated]
            exact .of_same within (Nat.le_succ _) rfl rfl spared
        | some buffer =>
            rcases newLength (by simp [allocated]) long with ⟨newWithin, again⟩
            rw [retryNonString_grows long allocated]
            apply (kept_grown within newWithin allocated spared).trans
            apply induction (pointers _ _ _ allocated) newWithin
            intro _ _
            have same : grownLength (libc.fmtLen fmt branch.arg)
                (output.grown libc startPos fmt branch buffer).length
                (output.grown libc startPos fmt branch buffer).reserved =
                  (startPos + 2 * libc.fmtLen fmt branch.arg) % 2 ^ 64 :=
              grownLength_again (by omega) (grownLength_lt _ _ _)
            rw [same]
            exact ⟨again, again⟩

theorem printString_kept (pointers : libc.Pointers) {arg : VarArg}
    (behind : front ≤ startPos)
    (room : startPos + (libc.render fmt arg).length + 1 ≤ 2 ^ 64)
    (placed : output.logBuffer < 2 ^ 64) (within : front ≤ output.length)
    (newLength : output.reserved < libc.fmtLen fmt arg →
      libc.malloc output.mallocs (wrappingSub
        ((libc.fmtLen fmt arg + 1 + output.length) % 2 ^ 64) output.reserved) ≠ none →
      front ≤ wrappingSub ((libc.fmtLen fmt arg + 1 + output.length) % 2 ^ 64)
        output.reserved) :
    Kept libc front (printStringGrowths libc fmt arg output) output
      (printString libc startPos fmt arg output).1 := by
  have needed (heap : Memory UInt8) (target size : Nat) :
      (snprintf libc heap target size fmt arg).2 = libc.fmtLen fmt arg := rfl
  have spared (heap : Memory UInt8) {logBuffer : Nat} (placed : logBuffer < 2 ^ 64)
      (size : Nat) :
      Memory.slice (snprintf libc heap (pointerAdd logBuffer startPos) size fmt arg).1
        logBuffer front = Memory.slice heap logBuffer front :=
    slice_snprintf_spared libc heap size fmt arg placed behind (by omega)
  simp only [printString, printStringGrowths, needed]
  by_cases long : output.reserved < libc.fmtLen fmt arg
  · have newWithin := newLength long
    simp only [if_pos long]
    generalize wrappingSub ((libc.fmtLen fmt arg + 1 + output.length) % 2 ^ 64)
      output.reserved = newLogBuflen at newWithin ⊢
    cases allocated : libc.malloc output.mallocs newLogBuflen with
    | none => exact .of_same within (Nat.le_succ _) rfl rfl (spared _ placed _)
    | some tmp =>
        refine ⟨Nat.le_succ _, ?_, List.pairwise_singleton _ _, allocated,
          newWithin (by simp [allocated]), ?_⟩
        · intro count member
          cases List.mem_singleton.mp member
          exact ⟨Nat.le_refl _, Nat.lt_succ_self _⟩
        · rw [spared _ (pointers _ _ _ allocated), slice_memcpy _ behind, spared _ placed]
  · simp only [if_neg long]
    exact .of_same within (Nat.le_refl _) rfl rfl (spared _ placed _)

theorem kept_withParamBuffer (within : front ≤ output.length) (paramSize : Nat) :
    Kept libc front [] output (output.withParamBuffer paramSize) := by
  rw [Output.withParamBuffer]
  split
  · exact .of_same within (Nat.le_succ _) rfl rfl rfl
  · exact .refl within

/-- The block that a call gets when it asks for a larger buffer. -/
theorem Call.replacement_of_grows {call : Call} (grows : call.grows libc = true)
    (served : call.unserved libc = false) : call.replacement libc = call.allocation libc := by
  rw [Call.replacement, grows, served]
  rfl

/-- A call that is clear of the front keeps it. -/
theorem Call.run_kept (pointers : libc.Pointers) (passes : Nat) {call : Call}
    (clear : call.prints libc = true → call.Clear libc front call.startPos)
    (placed : call.output.logBuffer < 2 ^ 64) (within : front ≤ call.output.length) :
    Kept libc front (call.growths libc passes) call.output (call.run libc passes).1 := by
  rw [Call.prints] at clear
  rw [Call.run, Call.growths]
  split
  · rename_i isString
    rw [if_pos isString] at clear
    split
    · exact .of_same within (Nat.le_succ _) rfl rfl rfl
    · rename_i copied
      have apart := clear (by simpa using copied)
      have room := apart.room
      have newLength := apart.newLength
      have served : call.unserved libc = false := by simp [Call.unserved, copied]
      rw [text_of_string isString] at room
      refine (kept_withParamBuffer within _).trans
        (printString_kept pointers apart.behind (by omega) ?_ ?_ ?_)
      · rw [withParamBuffer_logBuffer]
        exact placed
      · rw [withParamBuffer_length]
        exact within
      · rw [withParamBuffer_reserved, withParamBuffer_length]
        intro long given
        have grows : call.grows libc = true := by
          rw [grows_of_string isString, fmtLen_of_string isString]
          exact decide_eq_true long
        rw [Call.replacement_of_grows grows served, allocation_of_string isString,
          Call.newLength, if_pos isString, fmtLen_of_string isString] at newLength
        exact newLength given
  · rename_i notString
    have nonString : call.isString = false := by simpa using notString
    rw [if_neg notString] at clear
    cases selected : selectBranch call.value.length (call.fmt.getLastD 0) call.value with
    | none => exact .refl within
    | some branch =>
        have apart := clear (by rw [selected]; rfl)
        have room := apart.room
        have shrinks := apart.shrinks
        have newLength := apart.newLength
        have served : call.unserved libc = false := by simp [Call.unserved, nonString]
        have replacement (long : call.output.reserved ≤ libc.fmtLen call.fmt branch.arg) :
            call.replacement libc = libc.malloc call.output.mallocs
              (grownLength (libc.fmtLen call.fmt branch.arg) call.output.length
                call.output.reserved) := by
          rw [← allocation_of_nonString nonString selected]
          apply Call.replacement_of_grows _ served
          rw [grows_of_nonString nonString selected, fmtLen_of_nonString nonString selected,
            decide_eq_true long, Bool.or_true]
        rw [text_of_nonString nonString selected] at room
        rw [newLength_of_nonString nonString selected] at newLength
        rw [snprintfFails_of_nonString nonString selected] at shrinks
        apply retryNonString_kept pointers apart.behind (by omega) passes placed within
        intro given long
        rw [replacement long] at newLength shrinks
        refine ⟨newLength given, ?_⟩
        have front_le := apart.behind
        cases fails : libc.fails call.fmt branch.arg with
        | false =>
            rw [libc.fmtLen_of_succeeds fails]
            omega
        | true =>
            have behind := shrinks given nonString fails
            rw [libc.fmtLen_of_fails fails]
            omega

end Calls

end Decoding

end StaticLog
