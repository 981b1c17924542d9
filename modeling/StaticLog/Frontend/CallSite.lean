import StaticLog.Common
import StaticLog.Encoding.Exactness
import StaticLog.Foundation.Execution
import StaticLog.Backend.LogEntry

/-! # A call site that several threads execute

The steps of `STATIC_LOG` up to `finishAlloc`. The array `param_size` is a static
variable of the call site, while each thread reserves and fills space of its own.
What was stored and what was committed is recorded. -/

namespace StaticLog.CallSite

open Encoding Execution

/-- How far a thread has come. The region is what lies behind the entry's record in
the space that the thread has reserved. -/
inductive Phase
  | idle
  | sized (args : List Arg) (allocSize : Nat)
  | reserved (args : List Arg) (allocSize : Nat) (region : Memory UInt8)
  | stored (args : List Arg) (allocSize : Nat) (region : Memory UInt8)

/-- A call of `storeArguments` that has been made. -/
structure Store where
  thread : Nat
  args : List Arg
  allocSize : Nat
  written : Except StoreError (List UInt8)

/-- The argument bytes of an entry that was committed. -/
structure Commit where
  thread : Nat
  args : List Arg
  bytes : List UInt8

structure State where
  paramSize : List Nat
  phase : Nat → Phase
  stores : List Store
  commits : List Commit

inductive Label
  | getArgSizes (thread : Nat) (args : List Arg)
  | reserveAlloc (thread : Nat) (region : Memory UInt8)
  | storeArguments (thread : Nat)
  | finishAlloc (thread : Nat)

def State.enter (thread : Nat) (phase : Phase) (state : State) : State :=
  { state with
    phase := fun other => if other = thread then phase else state.phase other }

/-- An exception of `storeArguments` ends the call. -/
def afterStore (args : List Arg) (size : Nat) (region : Memory UInt8) :
    Except StoreError (List UInt8) → Phase
  | .ok written => .stored args size (Memory.overwrite region 0 written)
  | .error _ => .idle

/-- `alloc_size`, for the sum that `getArgSizes` returns. -/
def allocSize (argSizes : Nat) : Nat := argSizes + LogEntry.size

/-- The steps of any number of threads, for the parameter types of the format. A
reservation of the size of a staging buffer is never granted. -/
inductive Step (types : List ParamType) : State → Label → State → Prop
  | getArgSizes {state : State} {thread : Nat} (args : List Arg) :
      state.phase thread = .idle →
      Step types state (.getArgSizes thread args)
        { state.enter thread (.sized args (allocSize
            (getArgSizes types initialPrecision state.paramSize args).1)) with
          paramSize := (getArgSizes types initialPrecision state.paramSize args).2 }
  | reserveAlloc {state : State} {thread : Nat} {args : List Arg} {size : Nat}
      (region : Memory UInt8) :
      state.phase thread = .sized args size → size < stagingBufferSize →
      Step types state (.reserveAlloc thread region)
        (state.enter thread (.reserved args size region))
  | storeArguments {state : State} {thread : Nat} {args : List Arg} {size : Nat}
      {region : Memory UInt8} :
      state.phase thread = .reserved args size region →
      Step types state (.storeArguments thread)
        { state.enter thread (afterStore args size region
            (storeArguments types state.paramSize args)) with
          stores := state.stores ++
            [{ thread := thread, args := args, allocSize := size,
               written := storeArguments types state.paramSize args }] }
  | finishAlloc {state : State} {thread : Nat} {args : List Arg} {size : Nat}
      {region : Memory UInt8} :
      state.phase thread = .stored args size region →
      Step types state (.finishAlloc thread)
        { state.enter thread .idle with
          commits := state.commits ++
            [{ thread := thread, args := args,
               bytes := Memory.slice region 0 (size - LogEntry.size) }] }

def initial (types : List ParamType) : State where
  paramSize := initialSizes types.length
  phase _ := .idle
  stores := []
  commits := []

def system (types : List ParamType) : System State Label where
  Initial state := state = initial types
  Step := Step types

/-! ## What the calls are to do -/

/-- The call has written the encoding of its own arguments, as many bytes as were
reserved for it. -/
def Store.Exact (types : List ParamType) (store : Store) : Prop :=
  ∃ written, store.written = .ok written ∧
    written.length = store.allocSize - LogEntry.size ∧
    encoding types store.args = .ok written

structure Faithful (types : List ParamType) (state : State) : Prop where
  stores : ∀ store ∈ state.stores, store.Exact types
  commits : ∀ commit ∈ state.commits, encoding types commit.args = .ok commit.bytes

/-- When arguments are stored, the size array has the lengths of their own strings,
and no wide string is among them. -/
def Undisturbed (types : List ParamType) (before : State) : Label → Prop
  | .storeArguments thread =>
      match before.phase thread with
      | .reserved args _ _ =>
          wideStrings types args = 0 ∧
            stagedLengths types before.paramSize args =
              stagedLengths types
                (getArgSizes types initialPrecision (initialSizes types.length) args).2
                args
      | _ => True
  | _ => True

end StaticLog.CallSite
