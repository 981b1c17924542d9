import StaticLog.Frontend.CallSite

/-! # When the shared size array does no harm

Two threads at one call site disturb each other exactly when one of them stores its
arguments after the other has put different string lengths into the size array. -/

namespace StaticLog.CallSite

open Encoding Execution

variable {types : List ParamType}

def ownSizes (types : List ParamType) (args : List Arg) : Nat × List Nat :=
  getArgSizes types initialPrecision (initialSizes types.length) args

/-- What is known of a thread from how far it has come. -/
def PhaseAccounted (types : List ParamType) (stores : List Store) (thread : Nat) :
    Phase → Prop
  | .idle => True
  | .sized args size => size = allocSize (ownSizes types args).1
  | .reserved args size _ =>
      size = allocSize (ownSizes types args).1 ∧ size < stagingBufferSize
  | .stored args size region =>
      ∃ written,
        { thread := thread, args := args, allocSize := size, written := .ok written } ∈
          stores ∧
        Memory.slice region 0 written.length = written

/-- What is known of a committed entry. -/
def CommitAccounted (stores : List Store) (commit : Commit) : Prop :=
  ∃ store ∈ stores, store.args = commit.args ∧
    ∀ written, store.written = .ok written →
      written.length = store.allocSize - LogEntry.size → commit.bytes = written

structure Accounted (types : List ParamType) (state : State) : Prop where
  sizes : state.paramSize.length = types.length + 1
  phases : ∀ thread, PhaseAccounted types state.stores thread (state.phase thread)
  commits : ∀ commit ∈ state.commits, CommitAccounted state.stores commit

theorem PhaseAccounted.mono {before after : List Store} {thread : Nat} {phase : Phase}
    (accounted : PhaseAccounted types before thread phase)
    (kept : ∀ store ∈ before, store ∈ after) :
    PhaseAccounted types after thread phase := by
  cases phase with
  | idle => trivial
  | sized args size => exact accounted
  | reserved args size region => exact accounted
  | stored args size region =>
      rcases accounted with ⟨written, member, stored⟩
      exact ⟨written, kept _ member, stored⟩

theorem CommitAccounted.mono {before after : List Store} {commit : Commit}
    (accounted : CommitAccounted before commit)
    (kept : ∀ store ∈ before, store ∈ after) : CommitAccounted after commit := by
  rcases accounted with ⟨store, member, equal⟩
  exact ⟨store, kept store member, equal⟩

/-- Only the thread that takes the step changes its phase. -/
theorem phases_enter {state : State} {thread : Nat} {phase : Phase} {stores : List Store}
    (accounted : ∀ thread, PhaseAccounted types stores thread (state.phase thread))
    (entered : PhaseAccounted types stores thread phase) :
    ∀ other, PhaseAccounted types stores other ((state.enter thread phase).phase other) := by
  intro other
  simp only [State.enter]
  split
  · rename_i same
    rw [same]
    exact entered
  · exact accounted other

theorem Accounted.initial (types : List ParamType) :
    Accounted types (CallSite.initial types) where
  sizes := List.length_replicate
  phases := fun _ => trivial
  commits := fun _ member => absurd member List.not_mem_nil

theorem Accounted.step {before after : State} {label : Label}
    (accounted : Accounted types before) (step : Step types before label after) :
    Accounted types after := by
  have sizes := accounted.sizes
  cases step with
  | getArgSizes args idle =>
      refine ⟨by rw [getArgSizes_length, sizes], ?_, accounted.commits⟩
      apply phases_enter accounted.phases
      have sameLength : before.paramSize.length = (initialSizes types.length).length := by
        rw [sizes, initialSizes, List.length_replicate]
      exact congrArg allocSize
        (getArgSizes_stale types initialPrecision args sameLength).1
  | reserveAlloc region sized granted =>
      rename_i thread args size
      have own := accounted.phases thread
      rw [sized] at own
      exact ⟨sizes, phases_enter accounted.phases ⟨own, granted⟩, accounted.commits⟩
  | storeArguments reserved =>
      rename_i thread args size region
      have kept (last : Store) : ∀ store ∈ before.stores,
          store ∈ before.stores ++ [last] :=
        fun store member => List.mem_append_left _ member
      refine ⟨sizes,
        phases_enter (fun thread => (accounted.phases thread).mono (kept _)) ?_,
        fun commit member => (accounted.commits commit member).mono (kept _)⟩
      cases stored : storeArguments types before.paramSize args with
      | error error => trivial
      | ok written =>
          exact ⟨written, List.mem_append_right _ (List.mem_singleton_self _),
            Memory.slice_overwrite_self region 0 written⟩
  | finishAlloc stored =>
      rename_i thread args size region
      have own := accounted.phases thread
      rw [stored] at own
      rcases own with ⟨written, member, filled⟩
      refine ⟨sizes, phases_enter accounted.phases trivial, ?_⟩
      intro commit committed
      rcases List.mem_append.mp committed with earlier | now
      · exact accounted.commits commit earlier
      · cases List.mem_singleton.mp now
        refine ⟨_, member, rfl, ?_⟩
        intro own equal whole
        cases equal
        rw [← filled, whole]

theorem accounted {state : State} (reachable : (system types).Reachable state) :
    Accounted types state := by
  apply reachable.invariant (Accounted types)
  · intro state starts
    rw [starts]
    exact Accounted.initial types
  · exact fun _ _ _ accounted step => accounted.step step

/-! ## One store -/

/-- A store is exact if and only if the size array has not been disturbed. -/
theorem exact_iff_undisturbed {state : State} {thread : Nat} {args : List Arg}
    {size : Nat} {region : Memory UInt8} (accounted : Accounted types state)
    (reserved : state.phase thread = .reserved args size region) :
    Store.Exact types
        { thread := thread, args := args, allocSize := size,
          written := storeArguments types state.paramSize args } ↔
      Undisturbed types state (.storeArguments thread) := by
  have own := accounted.phases thread
  rw [reserved] at own
  rcases own with ⟨counted, granted⟩
  have small : (ownSizes types args).1 < 2 ^ 32 := by
    rw [counted, allocSize] at granted
    have limit : stagingBufferSize < 2 ^ 32 := by decide
    omega
  rcases storeArguments_total small with ⟨encoded, alone⟩
  have enough : types.length ≤ (initialSizes types.length).length := by
    rw [initialSizes, List.length_replicate]
    exact Nat.le_succ _
  have length := storeArguments_length enough alone
  have sameLength : state.paramSize.length = (ownSizes types args).2.length := by
    rw [accounted.sizes, ownSizes, getArgSizes_length, initialSizes,
      List.length_replicate]
  have shared := storeArguments_eq_iff alone sameLength
  have room : encoded.length = size - LogEntry.size ↔ wideStrings types args = 0 := by
    rw [counted, allocSize, Nat.add_sub_cancel, length, ownSizes]
    omega
  simp only [Undisturbed, reserved]
  rw [← room]
  constructor
  · rintro ⟨written, stored, fits, encodes⟩
    cases alone.symm.trans encodes
    exact ⟨fits, shared.mp stored⟩
  · rintro ⟨fits, lengths⟩
    exact ⟨encoded, shared.mpr lengths, fits, alone⟩

/-! ## Whole runs -/

/-- What was committed is what was stored. -/
theorem faithful_iff {state : State} (accounted : Accounted types state) :
    Faithful types state ↔ ∀ store ∈ state.stores, store.Exact types := by
  constructor
  · exact Faithful.stores
  · intro exact_stores
    refine ⟨exact_stores, ?_⟩
    intro commit member
    rcases accounted.commits commit member with ⟨store, stored, sameArgs, bytes⟩
    rcases exact_stores store stored with ⟨written, ok, fits, encodes⟩
    rw [← sameArgs, bytes written ok fits]
    exact encodes

/-- A step keeps all stores exact if and only if it is undisturbed. -/
theorem faithful_step_iff {before after : State} {label : Label}
    (accounted : Accounted types before) (step : Step types before label after) :
    Faithful types after ↔ Faithful types before ∧ Undisturbed types before label := by
  rw [faithful_iff (accounted.step step), faithful_iff accounted]
  cases step with
  | getArgSizes args idle => exact (and_iff_left trivial).symm
  | reserveAlloc region sized granted => exact (and_iff_left trivial).symm
  | finishAlloc stored => exact (and_iff_left trivial).symm
  | storeArguments reserved =>
      rw [← exact_iff_undisturbed accounted reserved]
      simp only [List.mem_append, List.mem_singleton, or_imp, forall_and, forall_eq]

/-- The runs in which no store is disturbed are those in which every thread stores
and commits the encoding of its own arguments. -/
theorem undisturbed_iff_faithful (types : List ParamType) (state : State) :
    ((system types).restrict (Undisturbed types)).Reachable state ↔
      (system types).Reachable state ∧ Faithful types state := by
  constructor
  · intro undisturbed
    refine ⟨undisturbed.of_restrict, ?_⟩
    induction undisturbed with
    | initial starts =>
        rw [show _ = initial types from starts]
        exact ⟨fun _ member => absurd member List.not_mem_nil,
          fun _ member => absurd member List.not_mem_nil⟩
    | step earlier taken induction =>
        exact (faithful_step_iff (accounted earlier.of_restrict) taken.2).mpr
          ⟨induction, taken.1⟩
  · rintro ⟨reachable, faithful⟩
    induction reachable with
    | initial starts => exact .initial starts
    | step earlier taken induction =>
        have both := (faithful_step_iff (accounted earlier) taken).mp faithful
        exact .step (induction both.1) ⟨both.2, taken⟩

/-! ## Two threads and two strings -/

namespace Example

def oneString : List ParamType := [.stringWithNoPrecision]

def short : List Arg :=
  [.charPtr ⟨0, ascii "a", List.forall_iff_forall_mem.mp (by decide), fun _ => 0⟩]

def long : List Arg :=
  [.charPtr ⟨0, ascii "bcd", List.forall_iff_forall_mem.mp (by decide), fun _ => 0⟩]

def firstSized : State :=
  { (initial oneString).enter 0 (.sized short 37) with paramSize := [1, 0] }

def bothSized : State :=
  { firstSized.enter 1 (.sized long 39) with paramSize := [3, 0] }

def firstReserved : State := bothSized.enter 0 (.reserved short 37 fun _ => 0)

def firstStored : State :=
  { firstReserved.enter 0 (afterStore short 37 (fun _ => 0)
      (storeArguments oneString [3, 0] short)) with
    stores := [{ thread := 0, args := short, allocSize := 37,
                 written := storeArguments oneString [3, 0] short }] }

theorem reachable : (system oneString).Reachable firstStored := by
  have start : (system oneString).Reachable (initial oneString) := .initial rfl
  have first : Step oneString (initial oneString) (.getArgSizes 0 short) firstSized :=
    .getArgSizes short rfl
  have second : Step oneString firstSized (.getArgSizes 1 long) bothSized :=
    .getArgSizes long rfl
  have third : Step oneString bothSized (.reserveAlloc 0 fun _ => 0) firstReserved :=
    .reserveAlloc _ rfl (by decide)
  have fourth : Step oneString firstReserved (.storeArguments 0) firstStored :=
    .storeArguments rfl
  exact (((start.step first).step second).step third).step fourth

end Example

/-- The string `a` is stored after another thread has measured `bcd`: three bytes of
it are taken, 7 with the length field, where 5 are reserved. -/
theorem disturbed_store :
    ¬∀ state, (system Example.oneString).Reachable state → Faithful Example.oneString state := by
  intro faithful
  rcases (faithful _ Example.reachable).stores _ (List.mem_singleton_self _) with
    ⟨written, stored, fits, _⟩
  cases stored
  revert fits
  decide

end StaticLog.CallSite
