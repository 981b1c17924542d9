import StaticLog.Decoding.CursorGrowth

/-! # The entry assertion of `decodeStringFmt`

It subtracts `start_pos`, which is an offset, from the address of `log_buffer`, and
compares the difference with the number of bytes in use. `process_fmt` passes just that
number as `start_pos`, so that the assertion is about the address alone. -/

namespace StaticLog.Decoding

/-- `log_pos == log_buffer + (buflen - reserved)`, where the address and the length of
the buffer are 64-bit values. -/
structure FmtState.Consistent (state : FmtState) : Prop where
  addressFits : state.output.logBuffer < 2 ^ 64
  lengthFits : state.output.length < 2 ^ 64
  cursor : state.logPos = pointerAdd state.output.logBuffer
    (wrappingSub state.output.length state.output.reserved)

/-- A string call that `process_fmt` makes with a consistent cursor, and the loop head
that it is made from. -/
structure StringCallAt (libc : Libc) (passes : Nat) (message : Message) (fmt : List UInt8)
    (paramList startPos : Nat) (output : Output) (state : FmtState) (call : Call) :
    Prop where
  head : IsHead libc passes message fmt paramList startPos output state
  consistent : state.Consistent
  makes : Makes libc message state call
  isString : call.isString = true

/-- The assertion holds whenever it is evaluated. -/
def AssertionHolds (libc : Libc) (passes : Nat) (message : Message) (fmt : List UInt8)
    (paramList startPos : Nat) (output : Output) : Prop :=
  ∀ state call, StringCallAt libc passes message fmt paramList startPos output state call →
    decodeStringAssertion call.startPos call.output = true

theorem wrappingSub_eq_right_iff {left right : Nat} (leftFits : left < 2 ^ 64)
    (rightFits : right < 2 ^ 64) :
    wrappingSub left right = right ↔ left = 2 * right % 2 ^ 64 := by
  rcases wrappingSub_spec left right with ⟨_, equal⟩ | ⟨_, equal⟩ <;> omega

theorem wrappingSub_pointerAdd {pointer count : Nat} (pointerFits : pointer < 2 ^ 64)
    (countFits : count < 2 ^ 64) : wrappingSub (pointerAdd pointer count) pointer = count := by
  rw [pointerAdd]
  rcases wrappingSub_spec ((pointer + count) % 2 ^ 64) pointer with
    ⟨_, equal⟩ | ⟨_, equal⟩ <;> omega

section Assertion

variable {libc : Libc} {passes : Nat} {message : Message} {fmt : List UInt8}
  {paramList startPos : Nat} {output : Output} {state : FmtState} {call : Call}

/-- A call from a consistent head has the number of bytes in use as `start_pos`. -/
theorem CallAt.startPos_eq (callAt : CallAt state call) (consistent : state.Consistent) :
    call.startPos = wrappingSub state.output.length state.output.reserved := by
  rw [callAt.startPos, consistent.cursor]
  exact wrappingSub_pointerAdd consistent.addressFits
    (wrappingSub_lt consistent.lengthFits)

theorem CallAt.assertion_iff (callAt : CallAt state call) (consistent : state.Consistent) :
    decodeStringAssertion call.startPos call.output = true ↔
      state.output.logBuffer =
        2 * wrappingSub state.output.length state.output.reserved % 2 ^ 64 := by
  have used : wrappingSub state.output.length state.output.reserved < 2 ^ 64 :=
    wrappingSub_lt consistent.lengthFits
  rw [decodeStringAssertion, beq_iff_eq, callAt.startPos_eq consistent,
    callAt.place.logBuffer, callAt.place.length, callAt.place.reserved]
  exact wrappingSub_eq_right_iff consistent.addressFits used

/-- A buffer that lies higher than twice its length never satisfies the assertion. -/
theorem CallAt.not_assertion (callAt : CallAt state call) (consistent : state.Consistent)
    (within : state.output.reserved ≤ state.output.length)
    (high : 2 * state.output.length < state.output.logBuffer) :
    decodeStringAssertion call.startPos call.output = false := by
  rw [Bool.eq_false_iff, ne_eq, callAt.assertion_iff consistent, wrappingSub_of_le within]
  omega

/-- The assertion holds if and only if, at each string call, the address of the buffer is
twice the number of its bytes in use. -/
theorem assertionHolds_iff (libc : Libc) (passes : Nat) (message : Message)
    (fmt : List UInt8) (paramList startPos : Nat) (output : Output) :
    AssertionHolds libc passes message fmt paramList startPos output ↔
      ∀ state call,
        StringCallAt libc passes message fmt paramList startPos output state call →
          state.output.logBuffer =
            2 * wrappingSub state.output.length state.output.reserved % 2 ^ 64 := by
  constructor
  · intro holds state call made
    exact (made.makes.callAt.assertion_iff made.consistent).mp (holds state call made)
  · intro twice state call made
    exact (made.makes.callAt.assertion_iff made.consistent).mpr (twice state call made)

end Assertion

namespace Boundary

/-- The call for the string of the message `hi`, behind two bytes of prefix. -/
def hiCall : Call where
  isString := true
  fmt := ascii "%s"
  paramIdx := 0
  cursor := 0
  value := ascii "hi"
  startPos := 2
  output := output 3

theorem stringCallAt_hi :
    StringCallAt libc 2 (message (ascii "hi")) (ascii "%s") 0 2 (output 3)
      (FmtState.enter (ascii "%s") 0 2 (output 3)) hiCall where
  head := .initial rfl
  consistent := ⟨by decide, by decide, rfl⟩
  makes := rfl
  isString := rfl

end Boundary

/-- Two bytes of the buffer at address 4096 are in use: 4094 is compared with 2. -/
theorem not_assertionHolds_hi :
    ¬AssertionHolds Boundary.libc 2 (Boundary.message (ascii "hi")) (ascii "%s") 0 2
      (Boundary.output 3) := by
  intro holds
  have asserted := holds _ _ Boundary.stringCallAt_hi
  revert asserted
  decide

end StaticLog.Decoding
