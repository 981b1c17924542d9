import StaticLog.Decoding.Outcomes
import StaticLog.Decoding.Turns

/-! # The write cursor when the buffer is replaced

`log_pos` is taken from `log_buffer` once, and the calls of the decoding functions
may put another block in place of `log_buffer`. The cursor stands where `reserved`
says at every loop head if and only if no call does that. -/

namespace StaticLog.Decoding

open StaticLog.Execution

/-- `log_pos` points into the log buffer, and to the byte that `reserved` says. -/
structure FmtState.CursorInPlace (state : FmtState) : Prop where
  reserved_le : state.output.reserved ≤ state.output.length
  logPos : state.logPos =
    state.output.logBuffer + (state.output.length - state.output.reserved)

/-- What keeps the cursor in place: there is room for a character that the pass
stores, no call that returns replaces the log buffer, and no call fails at its very
start. -/
structure KeepsCursor (libc : Libc) (message : Message) (state : FmtState) : Prop where
  literal : ∀ c rest, state.literal = some (c, rest) → 0 < state.output.reserved
  call : ∀ call, Makes libc message state call → call.Keeps libc
  start : ∀ call, Makes libc message state call → call.fails libc = true →
    call.startPos ≠ 0

/-- The log buffer lies in the address space. -/
structure Output.Placed (output : Output) : Prop where
  small : output.length < 2 ^ 62
  placed : output.logBuffer + output.length < 2 ^ 64

section Pass

variable {libc : Libc} {passes : Nat} {message : Message} {state after : FmtState}
  {call : Call}

theorem CallAt.freeFrom (callAt : CallAt state call) (inPlace : state.CursorInPlace)
    (placed : state.output.Placed) : call.output.FreeFrom call.startPos := by
  have startPos : call.startPos = state.output.length - state.output.reserved := by
    rw [callAt.startPos, inPlace.logPos, wrappingSub_add_left]
  have free : state.output.FreeFrom call.startPos := by
    refine ⟨?_, placed.small, placed.placed⟩
    rw [startPos]
    exact Nat.sub_add_cancel inPlace.reserved_le
  exact free.samePlace callAt.place

theorem CallAt.outcome (callAt : CallAt state call) (inPlace : state.CursorInPlace)
    (placed : state.output.Placed) (enough : 2 ≤ passes) {result : Output × Option Int}
    (run : call.run libc passes = result) : call.Outcome libc result :=
  run ▸ run_outcome (callAt.freeFrom inPlace placed) enough

theorem fmtPass_of_literal {c : UInt8} {rest : List UInt8}
    (literal : state.literal = some (c, rest)) :
    fmtPass libc passes message state = (state.putChar c rest, .running) := by
  simp only [FmtState.literal] at literal
  split at literal
  · cases literal
  · rename_i given
    simp only [fmtPass, given]
    split at literal
    · rename_i plain
      cases literal
      exact if_pos plain
    · rename_i notPlain
      rw [if_neg notPlain]
      split at literal
      · rename_i percent
        cases literal
        exact if_pos percent
      · cases literal

theorem ofInt_neg_one : ofInt (-1) = 2 ^ 64 - 1 := by decide

theorem FmtState.CursorInPlace.putChar (inPlace : state.CursorInPlace)
    (placed : state.output.Placed) (room : 0 < state.output.reserved) (c : UInt8)
    (rest : List UInt8) : (state.putChar c rest).CursorInPlace := by
  have below := inPlace.reserved_le
  have inSpace := placed.placed
  constructor
  · simp only [FmtState.putChar]
    rw [wrappingSub_of_le room]
    omega
  · simp only [FmtState.putChar]
    rw [wrappingSub_of_le room, inPlace.logPos, pointerAdd_of_lt (by omega)]
    omega

theorem FmtState.CursorInPlace.advance (inPlace : state.CursorInPlace)
    (placed : state.output.Placed) {output : Output}
    (place : state.output.SamePlace output) {length : Nat}
    (fits : length ≤ state.output.reserved) (paramList : Nat) (call : Call)
    (rest : List UInt8) :
    (state.advance output length paramList call rest).CursorInPlace := by
  have below := inPlace.reserved_le
  have small := placed.small
  have inSpace := placed.placed
  constructor
  · simp only [FmtState.advance]
    rw [ofInt_natCast (by omega), place.reserved, place.length, wrappingSub_of_le fits]
    omega
  · simp only [FmtState.advance]
    rw [ofInt_natCast (by omega), place.reserved, place.length, place.logBuffer,
      wrappingSub_of_le fits, inPlace.logPos, pointerAdd_of_lt (by omega)]
    omega

theorem not_fruitless {logFmtLen : Int} (success : logFmtLen ≠ -1) :
    ¬Fruitless (some logFmtLen) := by
  rintro (none | failed)
  · cases none
  · exact success (Option.some.inj failed)

/-- A pass that keeps the cursor in place leaves the buffer where it is. -/
theorem KeepsCursor.pass (keeps : KeepsCursor libc message state)
    (inPlace : state.CursorInPlace) (placed : state.output.Placed) (enough : 2 ≤ passes)
    (taken : fmtPass libc passes message state = (after, .running)) :
    after.CursorInPlace ∧ after.output.logBuffer = state.output.logBuffer ∧
      after.output.length = state.output.length := by
  have below := inPlace.reserved_le
  have small := placed.small
  have inSpace := placed.placed
  have pass := fmtPass_pass libc passes message state
  rw [taken] at pass
  cases pass with
  | literal literal =>
      exact ⟨.putChar inPlace placed (keeps.literal _ _ literal) _ _, rfl, rfl⟩
  | left place ended =>
      rcases ended with ended | ended
      · cases ended
      · cases ended
  | @returned call output logFmtLen paramList rest callAt run success =>
      have makes : Makes libc message state call := by
        rw [makes_iff libc passes, taken]
        rfl
      have free := callAt.freeFrom inPlace placed
      have same := callAt.place
      have outcome := callAt.outcome inPlace placed enough run
      have startPos : call.startPos = state.output.length - state.output.reserved := by
        rw [← same.length, ← same.reserved]
        exact Nat.eq_sub_of_add_eq free.free
      cases outcome with
      | kept _ _ _ kept fits =>
          have place := same.trans kept
          rw [same.reserved] at fits
          exact ⟨inPlace.advance placed place fits paramList call rest, place.logBuffer,
            place.length⟩
      | failed _ fails kept =>
          have behind := keeps.start call makes fails
          have place := same.trans kept
          refine ⟨⟨?_, ?_⟩, place.logBuffer, place.length⟩
          · simp only [FmtState.advance, ofInt_neg_one, place.reserved, place.length,
              wrappingSub]
            split <;> omega
          · simp only [FmtState.advance, ofInt_neg_one, place.reserved, place.length,
              place.logBuffer, inPlace.logPos, pointerAdd, wrappingSub]
            split <;> omega
      | left _ nonString _ => exact absurd rfl (success nonString)
      | abandoned nonString _ fruitless _ =>
          exact absurd fruitless (not_fruitless (success nonString))
      | misprinted isString _ replacement _ _ =>
          rcases keeps.call call makes with none | ⟨nonString, _⟩
          · rw [replacement] at none
            cases none
          · rw [isString] at nonString
            cases nonString
      | replaced nonempty succeeds _ replacement _ _ _ _ =>
          rcases keeps.call call makes with none | ⟨_, fails | empty⟩
          · rw [replacement] at none
            cases none
          · rw [succeeds] at fails
            cases fails
          · exact absurd empty nonempty

theorem Makes.outcome (makes : Makes libc message state call)
    (inPlace : state.CursorInPlace) (placed : state.output.Placed) (enough : 2 ≤ passes) :
    call.Outcome libc (call.run libc passes) :=
  makes.callAt.outcome inPlace placed enough (Eq.refl (call.run libc passes))

section Converse

variable (inPlace : state.CursorInPlace) (placed : state.output.Placed)
  (enough : 2 ≤ passes)
  (next : ∀ after, fmtPass libc passes message state = (after, .running) →
    after.CursorInPlace)
include inPlace placed enough next

/-- A call that leaves the cursor in place has not replaced the log buffer: the block of
a new buffer is not that of the old one. -/
theorem Makes.keeps_of_inPlace (makes : Makes libc message state call)
    (fresh : call.replacement libc ≠ some state.output.logBuffer) :
    call.Keeps libc := by
  have below := inPlace.reserved_le
  have small := placed.small
  have inSpace := placed.placed
  have outcome := makes.outcome inPlace placed enough
  have callAt := makes.callAt
  have startPos := (callAt.freeFrom inPlace placed).free
  rw [callAt.place.reserved, callAt.place.length] at startPos
  rcases run : call.run libc passes with ⟨output, ret⟩
  rw [run] at outcome
  -- A new block would have to lie where the old one does.
  have elsewhere (replacement : call.replacement libc = some output.logBuffer)
      (same : output.logBuffer = state.output.logBuffer) : call.Keeps libc := by
    rw [same] at replacement
    exact absurd replacement fresh
  cases outcome with
  | kept keeps _ _ _ _ => exact keeps
  | failed keeps _ _ => exact keeps
  | left keeps _ _ => exact keeps
  | endless keeps _ => exact keeps
  | abandoned nonString fails _ _ => exact .inr ⟨nonString, .inl fails⟩
  | misprinted isString _ replacement newLength none =>
      rcases makes.goesOn run (fun nonString => by simp [isString] at nonString) with
        ⟨paramList, rest, taken⟩
      have moved := next _ taken
      have within := moved.reserved_le
      have position := moved.logPos
      simp only [FmtState.advance, ofInt_neg_one, none, newLength, wrappingSub]
        at within position
      rw [inPlace.logPos] at position
      apply elsewhere replacement
      simp only [pointerAdd] at position
      split at within <;> split at position <;> omega
  | replaced _ _ _ replacement _ grown room _ =>
      rcases makes.goesOn run (fun _ => by omega) with ⟨paramList, rest, taken⟩
      have moved := (next _ taken).logPos
      have bounded := call.text_length_le libc
      simp only [Format.intMax] at bounded
      simp only [FmtState.advance] at moved
      rw [ofInt_natCast (by omega), wrappingSub_of_le (Nat.le_of_lt room),
        inPlace.logPos] at moved
      apply elsewhere replacement
      simp only [pointerAdd] at moved
      omega

/-- A call that has failed has taken the cursor back by one character. -/
theorem Makes.startPos_ne_of_inPlace (makes : Makes libc message state call)
    (fails : call.fails libc = true) : call.startPos ≠ 0 := by
  intro start
  have small := placed.small
  have isString : call.isString = true := by
    rw [Call.fails, Bool.and_eq_true] at fails
    exact fails.1
  have outcome := makes.outcome inPlace placed enough
  have callAt := makes.callAt
  rcases run : call.run libc passes with ⟨output, ret⟩
  rw [run] at outcome
  cases outcome with
  | kept _ succeeds _ _ _ =>
      rw [succeeds] at fails
      cases fails
  | failed _ _ kept =>
      rcases makes.goesOn run (fun nonString => by simp [isString] at nonString) with
        ⟨paramList, rest, taken⟩
      have below := (next _ taken).reserved_le
      have atStart := (callAt.freeFrom inPlace placed).free
      have place := callAt.place.trans kept
      rw [callAt.place.reserved, callAt.place.length, start] at atStart
      simp only [FmtState.advance, ofInt_neg_one, place.reserved, place.length,
        wrappingSub] at below
      split at below <;> omega
  | left _ nonString _ => simp [isString] at nonString
  | endless _ nonString => simp [isString] at nonString
  | abandoned nonString _ _ _ => simp [isString] at nonString
  | misprinted _ _ replacement _ _ =>
      rw [Call.replacement_of_fails fails] at replacement
      cases replacement
  | replaced _ _ _ replacement _ _ _ _ =>
      rw [Call.replacement_of_fails fails] at replacement
      cases replacement

/-- If every pass from a loop head leaves the cursor in place, then because nothing
moves it. -/
theorem keepsCursor_of_inPlace
    (fresh : ∀ call, Makes libc message state call →
      call.replacement libc ≠ some state.output.logBuffer) :
    KeepsCursor libc message state where
  literal := by
    intro c rest literal
    have stored := next _ (fmtPass_of_literal literal)
    have below := stored.reserved_le
    have small := placed.small
    simp only [FmtState.putChar, wrappingSub] at below
    by_contra full
    split at below <;> omega
  call call makes := makes.keeps_of_inPlace inPlace placed enough next (fresh call makes)
  start call makes fails := makes.startPos_ne_of_inPlace inPlace placed enough next fails

end Converse

end Pass

/-! ## Over the loop -/

section Loop

variable {libc : Libc} {passes : Nat} {message : Message} {fmt : List UInt8}
  {paramList startPos : Nat} {output : Output} {state : FmtState}

theorem FmtState.CursorInPlace.enter (placed : output.Placed)
    (start : startPos ≤ output.length) (fmt : List UInt8) (paramList : Nat) :
    (FmtState.enter fmt paramList startPos output).CursorInPlace := by
  have inSpace := placed.placed
  constructor
  · simp only [FmtState.enter]
    rw [wrappingSub_of_le start]
    exact Nat.sub_le _ _
  · simp only [FmtState.enter]
    rw [wrappingSub_of_le start, Nat.sub_sub_self start]
    exact pointerAdd_of_lt (by omega)

/-- The cursor is in place in the buffer that the loop was entered with. -/
structure Anchored (output : Output) (state : FmtState) : Prop where
  inPlace : state.CursorInPlace
  logBuffer : state.output.logBuffer = output.logBuffer
  length : state.output.length = output.length

theorem Anchored.placed (anchored : Anchored output state) (placed : output.Placed) :
    state.output.Placed where
  small := by
    rw [anchored.length]
    exact placed.small
  placed := by
    rw [anchored.logBuffer, anchored.length]
    exact placed.placed

theorem anchored_of_keepsCursor (enough : 2 ≤ passes) (placed : output.Placed)
    (start : startPos ≤ output.length)
    (keeps : ∀ before, IsHead libc passes message fmt paramList startPos output before →
      Anchored output before → KeepsCursor libc message before)
    (reachable : IsHead libc passes message fmt paramList startPos output state) :
    Anchored output state := by
  induction reachable with
  | initial entered =>
      cases entered
      exact ⟨.enter placed start fmt paramList, rfl, rfl⟩
  | step earlier taken induction =>
      rcases (keeps _ earlier induction).pass induction.inPlace (induction.placed placed)
        enough taken with ⟨inPlace, logBuffer, length⟩
      exact ⟨inPlace, logBuffer.trans induction.logBuffer, length.trans induction.length⟩

/-- The cursor is in place at every loop head if and only if no pass moves it away. As
long as the first log buffer is in use, `malloc` does not give its block away. -/
theorem cursor_inPlace_iff (enough : 2 ≤ passes) (placed : output.Placed)
    (start : startPos ≤ output.length)
    (fresh : ∀ state, IsHead libc passes message fmt paramList startPos output state →
      state.output.logBuffer = output.logBuffer →
      ∀ call, Makes libc message state call →
        call.replacement libc ≠ some output.logBuffer) :
    (∀ state, IsHead libc passes message fmt paramList startPos output state →
      state.CursorInPlace) ↔
    ∀ state, IsHead libc passes message fmt paramList startPos output state →
      KeepsCursor libc message state := by
  constructor
  · intro inPlace
    have keeps (state : FmtState)
        (reachable : IsHead libc passes message fmt paramList startPos output state)
        (anchored : Anchored output state) : KeepsCursor libc message state := by
      apply keepsCursor_of_inPlace anchored.inPlace (anchored.placed placed) enough
      · exact fun after taken => inPlace after (heads_next reachable taken)
      · rw [anchored.logBuffer]
        exact fresh state reachable anchored.logBuffer
    intro state reachable
    exact keeps state reachable (anchored_of_keepsCursor enough placed start keeps reachable)
  · intro keeps state reachable
    exact (anchored_of_keepsCursor enough placed start
      (fun before earlier _ => keeps before earlier) reachable).inPlace

end Loop

/-! ## A string that is too long, and a character behind it -/

namespace Boundary

/-- A message with one string. -/
def message (chars : List UInt8) : Message where
  numParams := 1
  paramTypes := [.stringWithNoPrecision]
  paramSizes := [chars.length]
  params := Memory.overwrite (fun _ => 0) 0 (LittleEndian.bytes 4 chars.length ++ chars)

theorem replacement_ne (call : Call) (reserved : Nat) :
    call.replacement libc ≠ some (output reserved).logBuffer := by
  rw [Call.replacement]
  split
  · simp only [Call.allocation, libc, output, ne_eq, Option.some.injEq]
    omega
  · intro given
    cases given

theorem placed : (output 3).Placed := ⟨by decide, by decide⟩

end Boundary

theorem cursor_inPlace_iff_four :
    (∀ state, IsHead Boundary.libc 2 (Boundary.message (ascii "four")) (ascii "%s!") 0 2
        (Boundary.output 3) state → state.CursorInPlace) ↔
    ∀ state, IsHead Boundary.libc 2 (Boundary.message (ascii "four")) (ascii "%s!") 0 2
        (Boundary.output 3) state →
      KeepsCursor Boundary.libc (Boundary.message (ascii "four")) state := by
  apply cursor_inPlace_iff (Nat.le_refl 2) Boundary.placed (by decide)
  exact fun _ _ _ call _ => Boundary.replacement_ne call 3

/-- Behind the text that made the buffer grow the cursor still points into the old
one. -/
theorem cursor_not_inPlace_four :
    (Boundary.output 3).Placed ∧
      ¬∀ state, IsHead Boundary.libc 2 (Boundary.message (ascii "four")) (ascii "%s!") 0 2
          (Boundary.output 3) state → state.CursorInPlace := by
  refine ⟨Boundary.placed, ?_⟩
  intro inPlace
  have behind : IsHead Boundary.libc 2 (Boundary.message (ascii "four")) (ascii "%s!") 0 2
      (Boundary.output 3)
      (fmtLoop Boundary.libc 2 (Boundary.message (ascii "four")) 1
        (FmtState.enter (ascii "%s!") 0 2 (Boundary.output 3))).1 :=
    heads_reachable_of_fmtLoop (.initial rfl) rfl
  have logPos := (inPlace _ behind).logPos
  revert logPos
  decide

end StaticLog.Decoding
