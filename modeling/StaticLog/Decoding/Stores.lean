import StaticLog.Decoding.CursorGrowth

/-! # Where formatting stores

Each character that `process_fmt` stores, each region that a decoding function lets
`snprintf` fill and the newline behind the message, against the log buffer of that
moment. The stores stay inside as long as the buffer is the one that the message was
begun in and four things hold that the code does not check: a character is only
stored while there is room, a conversion that passes the length of the buffer as its
bound stands at the beginning, no failure of `snprintf` makes the buffer shrink, and there
is room for the prefixes once more. -/

namespace StaticLog.Decoding

open StaticLog.Execution

/-- A region that is stored to, and the log buffer at that moment. -/
structure Store where
  address : Nat
  size : Nat
  logBuffer : Nat
  length : Nat

/-- The region has no byte outside the log buffer. -/
def Store.Inside (store : Store) : Prop :=
  store.size = 0 ∨
    (store.logBuffer ≤ store.address ∧
      store.address + store.size ≤ store.logBuffer + store.length)

instance (store : Store) : Decidable store.Inside := inferInstanceAs (Decidable (_ ∨ _))

def Output.store (address size : Nat) (output : Output) : Store where
  address := address
  size := size
  logBuffer := output.logBuffer
  length := output.length

/-- The regions that `decodeStringFmt` lets `snprintf` fill. -/
def printStringStores (libc : Libc) (startPos : Nat) (fmt : List UInt8) (arg : VarArg)
    (output : Output) : List Store :=
  let first := output.store (pointerAdd output.logBuffer startPos) output.reserved
  let neededFmtLen := libc.fmtLen fmt arg
  if output.reserved < neededFmtLen then
    let newLogBuflen :=
      wrappingSub ((neededFmtLen + 1 + output.length) % 2 ^ 64) output.reserved
    match libc.malloc output.mallocs newLogBuflen with
    | none => [first]
    | some tmp =>
        [first,
          { address := pointerAdd tmp startPos
            size := (neededFmtLen + 1) % 2 ^ 64
            logBuffer := tmp
            length := newLogBuflen }]
  else [first]

/-- The regions that the body behind the label `retry` lets `snprintf` fill, run after
run. -/
def retryStores (libc : Libc) (startPos : Nat) (fmt : List UInt8) (branch : Branch) :
    Nat → Output → List Store
  | 0, _ => []
  | passes + 1, output =>
      let bound := if branch.boundIsReserved then output.reserved else output.length
      let store := output.store (pointerAdd output.logBuffer startPos) bound
      if output.reserved ≤ libc.fmtLen fmt branch.arg then
        match libc.malloc output.mallocs (grownLength (libc.fmtLen fmt branch.arg)
            output.length output.reserved) with
        | none => [store]
        | some buffer =>
            store :: retryStores libc startPos fmt branch passes
              (output.grown libc startPos fmt branch buffer)
      else [store]

namespace Call

/-- The regions that a call lets `snprintf` fill. -/
def stores (libc : Libc) (passes : Nat) (call : Call) : List Store :=
  if call.isString then
    if paramBufferFails libc call.value.length call.output then []
    else
      printStringStores libc call.startPos call.fmt (.string (cString call.value))
        (call.output.withParamBuffer call.value.length)
  else
    match selectBranch call.value.length (call.fmt.getLastD 0) call.value with
    | none => []
    | some branch =>
        retryStores libc call.startPos call.fmt branch passes call.output

/-- Whether the call comes to `snprintf`. -/
def prints (libc : Libc) (call : Call) : Bool :=
  if call.isString then !paramBufferFails libc call.value.length call.output
  else (selectBranch call.value.length (call.fmt.getLastD 0) call.value).isSome

/-- Whether the call passes the length of the whole buffer as the bound. -/
def boundIsLength (call : Call) : Bool :=
  !call.isString &&
    match selectBranch call.value.length (call.fmt.getLastD 0) call.value with
    | none => false
    | some branch => !branch.boundIsReserved

end Call

/-- `*log = '\n'` in `processLogBuffer`, where the lengths of the prefixes, which make up
`startPos`, and the returned value `len` are added to the pointer. -/
def newlineStore (startPos : Nat) (len : Int) (output : Output) : Store :=
  output.store (pointerAdd (pointerAdd output.logBuffer startPos) (ofInt len)) 1

/-- Nothing is stored outside the log buffer, and `reserved` does not fall below
zero. -/
structure StaysInside (libc : Libc) (passes : Nat) (message : Message) (fmt : List UInt8)
    (paramList startPos : Nat) (output : Output) : Prop where
  literal : ∀ state, IsHead libc passes message fmt paramList startPos output state →
    ∀ c rest, state.literal = some (c, rest) →
      (state.output.store state.logPos 1).Inside ∧ 0 < state.output.reserved
  call : ∀ state, IsHead libc passes message fmt paramList startPos output state →
    ∀ call, Makes libc message state call →
      (∀ store ∈ call.stores libc passes, store.Inside) ∧
        ∀ after logFmtLen, call.run libc passes = (after, some logFmtLen) →
          logFmtLen ≤ after.reserved
  newline : ∀ len, let ended := processFmt libc passes fmt message paramList output startPos
    returned ended.1 ended.2 = some len →
      (newlineStore startPos len ended.1.output).Inside

/-- What a loop head needs: the buffer is still the first one and the cursor in place
when something is stored, there is room for a character, a conversion whose bound is the
length of the buffer is printed at its start, and a conversion of a parameter that is no
string gets no other buffer when `snprintf` fails. -/
structure Roomy (libc : Libc) (message : Message) (output : Output) (state : FmtState) :
    Prop where
  literal : ∀ c rest, state.literal = some (c, rest) →
    Anchored output state ∧ 0 < state.output.reserved
  call : ∀ call, Makes libc message state call → call.prints libc = true →
    Anchored output state ∧ (call.boundIsLength = true → call.startPos = 0) ∧
      (call.isString = false → call.snprintfFails libc = true →
        call.allocation libc = none)

section CallStores

variable {libc : Libc} {startPos passes : Nat} {fmt : List UInt8} {arg : VarArg}
  {branch : Branch} {output : Output} {call : Call}

/-- A region behind the position that ends with the free space. -/
theorem Output.FreeFrom.inside (free : output.FreeFrom startPos) {size : Nat}
    (within : startPos + size ≤ output.length) :
    (output.store (pointerAdd output.logBuffer startPos) size).Inside := by
  right
  rw [free.pointer]
  simp only [Output.store]
  omega

/-- The region of one run of the body. -/
def Output.region (startPos : Nat) (branch : Branch) (output : Output) : Store :=
  output.store (pointerAdd output.logBuffer startPos)
    (if branch.boundIsReserved then output.reserved else output.length)

/-- A call that does not come to `snprintf` stores nothing and adds no text. -/
theorem not_prints (silent : call.prints libc = false) :
    call.stores libc passes = [] ∧
      ∃ after logFmtLen, call.run libc passes = (after, some logFmtLen) ∧
        call.output.SamePlace after ∧
        (logFmtLen = 0 ∨ (call.fails libc = true ∧ logFmtLen = -1)) := by
  rw [Call.prints] at silent
  split at silent
  · rename_i isString
    rw [Bool.not_eq_false'] at silent
    simp only [Call.stores, Call.run, isString, silent, if_true]
    refine ⟨trivial, _, _, rfl, ⟨rfl, rfl, rfl⟩, .inr ⟨?_, rfl⟩⟩
    simp [Call.fails, Call.unserved, isString, silent]
  · rename_i nonString
    have unhandled : selectBranch call.value.length (call.fmt.getLastD 0) call.value =
        none := by
      rw [← Option.not_isSome_iff_eq_none, silent]
      exact Bool.false_ne_true
    simp only [Call.stores, Call.run, if_neg nonString, unhandled]
    exact ⟨trivial, _, _, rfl, ⟨rfl, rfl, rfl⟩, .inl rfl⟩

end CallStores

/-! ## Roomy loop heads -/

section Loop

variable {libc : Libc} {passes : Nat} {message : Message} {fmt : List UInt8}
  {paramList startPos : Nat} {output : Output} {state : FmtState} {call : Call}

/-- The log buffer lies in the address space, and its length is one that a block can
have. -/
structure Output.InSpace (output : Output) : Prop where
  length : output.length < 2 ^ 63
  placed : output.logBuffer + output.length < 2 ^ 64

theorem Output.Placed.inSpace (placed : output.Placed) : output.InSpace where
  length := by
    have small := placed.small
    omega
  placed := placed.placed

theorem Output.InSpace.samePlace {before after : Output} (inSpace : before.InSpace)
    (same : before.SamePlace after) : after.InSpace where
  length := by
    rw [same.length]
    exact inSpace.length
  placed := by
    rw [same.logBuffer, same.length]
    exact inSpace.placed

theorem Output.FreeFrom.inSpace (free : output.FreeFrom startPos) : output.InSpace where
  length := by
    have small := free.small
    omega
  placed := free.placed

/-- A buffer that a call returns lies in the address space. -/
theorem Call.Outcome.inSpace {after : Output} {logFmtLen : Int}
    (outcome : call.Outcome libc (after, some logFmtLen)) (addressable : libc.Addressable)
    (free : call.output.FreeFrom call.startPos)
    (refused : call.isString = false → call.snprintfFails libc = true →
      call.allocation libc = none) : after.InSpace := by
  have sum := free.free
  have small := free.small
  have given {size : Nat} (bounded : size < 2 ^ 63)
      (replacement : call.replacement libc = some after.logBuffer)
      (length : after.length = size) (newLength : size = call.newLength libc) :
      after.InSpace := by
    rw [Call.replacement] at replacement
    split at replacement
    · rw [Call.allocation, ← newLength] at replacement
      refine ⟨by omega, ?_⟩
      rw [length]
      exact addressable _ _ _ bounded replacement
    · cases replacement
  cases outcome with
  | kept _ _ _ place _ => exact free.inSpace.samePlace place
  | failed _ _ place => exact free.inSpace.samePlace place
  | left _ _ same =>
      have length := same.length
      refine ⟨by omega, ?_⟩
      rcases same.logBuffer with logBuffer | ⟨count, allocated⟩
      · rw [logBuffer, length]
        exact free.placed
      · exact addressable _ _ _ (by omega) allocated
  | abandoned nonString fails _ place =>
      exact free.inSpace.samePlace (place (refused nonString fails))
  | misprinted isString fails replacement length _ =>
      exact given (by omega) replacement length
        (newLength_of_failedString isString free fails).symm
  | replaced _ _ _ replacement newLength grown _ twice =>
      have bounded := call.text_length_le libc
      simp only [Format.intMax] at bounded
      exact given (by omega) replacement rfl newLength

/-- A pass from a roomy loop head leaves a buffer that lies in the address space. -/
theorem Roomy.inSpace (roomy : Roomy libc message output state)
    (enough : 2 ≤ passes) (placed : output.Placed) (addressable : libc.Addressable)
    (before : state.output.InSpace) {after : FmtState} {progress : Progress}
    (taken : fmtPass libc passes message state = (after, progress))
    (ends : progress ≠ .retrying) : after.output.InSpace := by
  have called {call : Call} {given : Output} {logFmtLen : Int} (callAt : CallAt state call)
      (makes : Makes libc message state call)
      (run : call.run libc passes = (given, some logFmtLen)) : given.InSpace := by
    cases prints : call.prints libc with
    | true =>
        rcases roomy.call call makes prints with ⟨anchored, _, refused⟩
        have free := callAt.freeFrom anchored.inPlace (anchored.placed placed)
        have outcome := callAt.outcome anchored.inPlace (anchored.placed placed) enough run
        exact outcome.inSpace addressable free refused
    | false =>
        rcases (not_prints prints).2 with ⟨kept, ret, silent, same, _⟩
        rw [run] at silent
        cases silent
        exact before.samePlace (callAt.place.trans same)
  have pass := fmtPass_pass libc passes message state
  have makes (call : Call) (calls : after.calls = state.calls ++ [call]) :
      Makes libc message state call := by
    rw [makes_iff libc passes, taken]
    exact calls
  rw [taken] at pass
  cases pass with
  | finished _ => exact before
  | literal _ => exact ⟨before.length, before.placed⟩
  | left place _ => exact before.samePlace place
  | retrying _ _ => exact absurd rfl ends
  | failed callAt _ run => exact called callAt (makes _ rfl) run
  | returned callAt run _ =>
      have inSpace := called callAt (makes _ rfl) run
      exact ⟨inSpace.length, inSpace.placed⟩

section RoomyHeads

variable (enough : 2 ≤ passes) (placed : output.Placed) (addressable : libc.Addressable)
  (roomy : ∀ state, IsHead libc passes message fmt paramList startPos output state →
    Roomy libc message output state)
include enough placed addressable roomy

end RoomyHeads

end Loop

/-! ## Stores that are inside -/

/-- A cursor that has been left behind in another buffer does not by chance point into
the log buffer of the moment. -/
def Apart (libc : Libc) (passes : Nat) (message : Message) (fmt : List UInt8)
    (paramList startPos : Nat) (output : Output) : Prop :=
  ∀ state, IsHead libc passes message fmt paramList startPos output state →
    Anchored output state ∨
      ¬(state.output.logBuffer ≤ state.logPos ∧
        state.logPos < state.output.logBuffer + state.output.length)

/-- Every string gets the memory that it asks for, and `snprintf` fails for nothing. -/
def Served (libc : Libc) (passes : Nat) (message : Message) (fmt : List UInt8)
    (paramList startPos : Nat) (output : Output) : Prop :=
  ∀ state, IsHead libc passes message fmt paramList startPos output state →
    ∀ call, Makes libc message state call →
      call.fails libc = false ∧ call.snprintfFails libc = false

/-- What holds at the loop heads of a run that stores inside: the cursor is in place, or
it is not and there is free space to store to. -/
structure Traced (output : Output) (state : FmtState) : Prop where
  place : Anchored output state ∨
    (0 < state.output.reserved ∧ state.output.reserved ≤ state.output.length)
  logPos : state.logPos < 2 ^ 64
  inSpace : state.output.InSpace

section Converse

variable {libc : Libc} {passes : Nat} {message : Message} {fmt : List UInt8}
  {paramList startPos : Nat} {output : Output} {state : FmtState} {call : Call}

theorem first_mem_printStringStores (libc : Libc) (startPos : Nat) (fmt : List UInt8)
    (arg : VarArg) (output : Output) :
    output.store (pointerAdd output.logBuffer startPos) output.reserved ∈
      printStringStores libc startPos fmt arg output := by
  simp only [printStringStores]
  split
  · split
    · exact List.mem_singleton_self _
    · exact List.mem_cons_self
  · exact List.mem_singleton_self _

theorem region_mem_retryStores (libc : Libc) (startPos : Nat) (fmt : List UInt8)
    (branch : Branch) (passes : Nat) (output : Output) :
    output.region startPos branch ∈
      retryStores libc startPos fmt branch (passes + 1) output := by
  simp only [retryStores]
  split
  · split
    · exact List.mem_singleton_self _
    · exact List.mem_cons_self
  · exact List.mem_singleton_self _

/-- The first region of a printing call. -/
theorem first_mem_stores (prints : call.prints libc = true) (some_run : passes ≠ 0) :
    call.output.store (pointerAdd call.output.logBuffer call.startPos)
      (if call.boundIsLength then call.output.length else call.output.reserved) ∈
        call.stores libc passes := by
  rw [Call.prints] at prints
  split at prints
  · rename_i isString
    have copied : paramBufferFails libc call.value.length call.output = false := by
      simpa using prints
    have first := first_mem_printStringStores libc call.startPos call.fmt
      (.string (cString call.value)) (call.output.withParamBuffer call.value.length)
    simp only [Output.store, withParamBuffer_logBuffer, withParamBuffer_length,
      withParamBuffer_reserved] at first
    simp only [Call.stores, Call.boundIsLength, isString, copied, Bool.not_true,
      Bool.false_and, Bool.false_eq_true, if_false, if_true]
    exact first
  · rename_i nonString
    rcases Option.isSome_iff_exists.mp prints with ⟨branch, selected⟩
    obtain ⟨more, rfl⟩ : ∃ more, passes = more + 1 := ⟨passes - 1, by omega⟩
    have bound : call.boundIsLength = !branch.boundIsReserved := by
      rw [Call.boundIsLength, selected]
      simp [nonString]
    have first := region_mem_retryStores libc call.startPos call.fmt branch more call.output
    simp only [Output.region] at first
    simp only [Call.stores, if_neg nonString, selected, bound]
    cases reserved : branch.boundIsReserved with
    | true => simpa [reserved] using first
    | false => simpa [reserved] using first

/-- A loop head of a run that stores inside is roomy. -/
theorem Traced.roomy (traced : Traced output state) (enough : 2 ≤ passes)
    (placed : output.Placed)
    (served : Served libc passes message fmt paramList startPos output)
    (apart : Apart libc passes message fmt paramList startPos output)
    (stays : StaysInside libc passes message fmt paramList startPos output)
    (reachable : IsHead libc passes message fmt paramList startPos output state) :
    Roomy libc message output state := by
  have logPos := traced.logPos
  have inSpace := traced.inSpace.placed
  constructor
  · intro c rest literal
    rcases stays.literal state reachable c rest literal with ⟨inside, room⟩
    rcases apart state reachable with anchored | outside
    · exact ⟨anchored, room⟩
    · rcases inside with nothing | within
      · cases nothing
      · exact absurd ⟨within.1, within.2⟩ outside
  · intro call makes prints
    have callAt := makes.callAt
    have inside := (stays.call state reachable call makes).1 _
      (first_mem_stores prints (by omega : passes ≠ 0))
    have pointer : pointerAdd state.output.logBuffer call.startPos = state.logPos := by
      rw [callAt.startPos]
      simp only [pointerAdd, wrappingSub]
      split <;> omega
    simp only [Store.Inside, Output.store, callAt.place.logBuffer, callAt.place.length,
      callAt.place.reserved, pointer] at inside
    have anchored : Anchored output state := by
      by_contra moved
      have outside := (apart state reachable).resolve_left moved
      have space := traced.place.resolve_left moved
      split at inside <;> omega
    refine ⟨anchored, ?_, ?_⟩
    · intro wide
      have free := (callAt.freeFrom anchored.inPlace (anchored.placed placed)).free
      have position := anchored.inPlace.logPos
      rw [callAt.place.reserved, callAt.place.length] at free
      rw [if_pos wide] at inside
      omega
    · intro _ fails
      rw [(served state reachable call makes).2] at fails
      cases fails

theorem Traced.enter (placed : output.Placed) (start : startPos ≤ output.length) :
    Traced output (FmtState.enter fmt paramList startPos output) where
  place := .inl ⟨.enter placed start fmt paramList, rfl, rfl⟩
  logPos := Nat.mod_lt _ (by decide)
  inSpace := ⟨placed.inSpace.length, placed.inSpace.placed⟩

/-- What a pass from a roomy loop head leaves, if its call does not fail. -/
theorem Roomy.traced (roomy : Roomy libc message output state)
    (traced : Traced output state)
    (served : ∀ call, Makes libc message state call →
      call.fails libc = false ∧ call.snprintfFails libc = false)
    (addressable : libc.Addressable) (enough : 2 ≤ passes) (placed : output.Placed)
    {after : FmtState} (taken : fmtPass libc passes message state = (after, .running)) :
    Traced output after := by
  have inSpace := roomy.inSpace enough placed addressable traced.inSpace taken (by simp)
  have pass := fmtPass_pass libc passes message state
  rw [taken] at pass
  cases pass with
  | literal literal =>
      rcases roomy.literal _ _ literal with ⟨anchored, room⟩
      refine ⟨.inl ?_, Nat.mod_lt _ (by decide), inSpace⟩
      exact ⟨anchored.inPlace.putChar (anchored.placed placed) room _ _, anchored.logBuffer,
        anchored.length⟩
  | left place ended =>
      rcases ended with ended | ended
      · cases ended
      · cases ended
  | @returned call given logFmtLen paramList rest callAt run success =>
      have makes : Makes libc message state call := by
        rw [makes_iff libc passes, taken]
        rfl
      have succeeds := served call makes
      have kept {length : Nat} (anchored : Anchored output state)
          (place : state.output.SamePlace given) (fits : length ≤ state.output.reserved) :
          Anchored output (state.advance given length paramList call rest) :=
        ⟨anchored.inPlace.advance (anchored.placed placed) place fits paramList call rest,
          place.logBuffer.trans anchored.logBuffer, place.length.trans anchored.length⟩
      refine ⟨?_, Nat.mod_lt _ (by decide), inSpace⟩
      cases prints : call.prints libc with
      | true =>
          have anchored := (roomy.call call makes prints).1
          have bounded := call.text_length_le libc
          simp only [Format.intMax] at bounded
          have outcome := callAt.outcome anchored.inPlace (anchored.placed placed) enough run
          cases outcome with
          | kept _ _ _ place fits =>
              rw [callAt.place.reserved] at fits
              exact .inl (kept anchored (callAt.place.trans place) fits)
          | failed _ fails _ =>
              rw [succeeds.1] at fails
              cases fails
          | left _ nonString _ => exact absurd rfl (success nonString)
          | abandoned _ fails _ _ =>
              rw [succeeds.2] at fails
              cases fails
          | misprinted _ fails _ _ _ =>
              rw [succeeds.2] at fails
              cases fails
          | replaced _ _ _ _ _ grown room _ =>
              right
              simp only [FmtState.advance]
              rw [ofInt_natCast (by omega), wrappingSub_of_le (Nat.le_of_lt room)]
              omega
      | false =>
          rcases (not_prints prints).2 with ⟨_, _, silent, same, none | ⟨fails, _⟩⟩
          · rw [run] at silent
            cases silent
            subst none
            have place := callAt.place.trans same
            rcases traced.place with anchored | space
            · have unmoved : Anchored output
                  (state.advance given (0 : Nat) paramList call rest) :=
                kept anchored place (Nat.zero_le _)
              exact .inl unmoved
            · right
              have zero : ofInt 0 = 0 := rfl
              simp only [FmtState.advance, zero, place.reserved, place.length]
              rw [wrappingSub_zero]
              exact space
          · rw [succeeds.1] at fails
            cases fails

theorem Traced.reserved_le (traced : Traced output state) :
    state.output.reserved ≤ state.output.length := by
  rcases traced.place with anchored | space
  · exact anchored.inPlace.reserved_le
  · exact space.2

theorem StaysInside.traced (addressable : libc.Addressable)
    (enough : 2 ≤ passes) (placed : output.Placed) (start : startPos ≤ output.length)
    (served : Served libc passes message fmt paramList startPos output)
    (apart : Apart libc passes message fmt paramList startPos output)
    (stays : StaysInside libc passes message fmt paramList startPos output)
    (reachable : IsHead libc passes message fmt paramList startPos output state) :
    Traced output state := by
  induction reachable with
  | initial enters =>
      cases enters
      exact .enter placed start
  | step earlier taken induction =>
      exact (induction.roomy enough placed served apart stays earlier).traced induction
        (served _ earlier) addressable enough placed taken

end Converse

/-! ## A string with room behind it, and a number without -/

namespace Boundary

def start : FmtState := FmtState.enter (ascii "%s") 0 2 (output 10)

/-- The loop head behind the string `ab`. -/
def behind : FmtState := (fmtPass libc 2 (message (ascii "ab")) start).1

end Boundary

end StaticLog.Decoding
