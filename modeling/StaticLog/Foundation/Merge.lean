import Mathlib.Algebra.Order.BigOperators.Group.List
import Mathlib.Algebra.Order.Group.Nat
import Mathlib.Algebra.Ring.Nat
import Mathlib.Logic.Function.Basic
import StaticLog.Foundation.Execution

/-! # Merging any number of sorted sources

Each step takes an item that is least among the heads of all sources. Whatever
the order of the steps, the items taken so far are sorted, each source's items
are taken in their order, and none is lost or taken twice. -/

namespace StaticLog.Merge

open StaticLog.Execution

/-- What the sources still have, and what was taken, with its source. -/
structure State (Source : Type u) (Item : Type v) where
  pending : Source → List Item
  taken : List (Source × Item)

variable {Source : Type u} {Item : Type v} {Key : Type w} [DecidableEq Source]
  [LinearOrder Key]

/-- The items taken from a source. -/
def State.takenFrom (state : State Source Item) (source : Source) : List Item :=
  (state.taken.filter (fun pair => pair.1 = source)).map Prod.snd

/-- The head of `source` is taken; no other source has a smaller head. -/
inductive Step (key : Item → Key) :
    State Source Item → Source → State Source Item → Prop
  | take (state : State Source Item) (source : Source) (item : Item)
      (later : List Item) :
      state.pending source = item :: later →
      (∀ other head rest, state.pending other = head :: rest → key item ≤ key head) →
      Step key state source
        { pending := Function.update state.pending source later
          taken := state.taken ++ [(source, item)] }

def system (key : Item → Key) (sources : Source → List Item) :
    System (State Source Item) Source where
  Initial state := state = { pending := sources, taken := [] }
  Step := Step key

variable {key : Item → Key} {sources : Source → List Item}

/-! ## Nothing is lost and the order of each source is kept -/

theorem Step.conserves {before after : State Source Item} {label : Source}
    (step : Step key before label after) (source : Source) :
    after.takenFrom source ++ after.pending source =
      before.takenFrom source ++ before.pending source := by
  cases step with
  | take item later head least =>
      by_cases same : label = source
      · subst same
        simp [State.takenFrom, head]
      · have other : source ≠ label := fun equal => same equal.symm
        simp [State.takenFrom, same, Function.update_of_ne other]

theorem conserved {state : State Source Item}
    (reachable : (system key sources).Reachable state) (source : Source) :
    state.takenFrom source ++ state.pending source = sources source := by
  induction reachable with
  | initial starts => simp [show _ = _ from starts, State.takenFrom]
  | step _ taken induction => exact (Step.conserves taken source).trans induction

/-! ## What is taken is sorted -/

/-- The items taken are sorted and lie below everything that is pending. -/
structure Sorted (key : Item → Key) (state : State Source Item) : Prop where
  taken : state.taken.Pairwise (fun left right => key left.2 ≤ key right.2)
  below : ∀ pair ∈ state.taken, ∀ source, ∀ item ∈ state.pending source,
    key pair.2 ≤ key item
  pending : ∀ source,
    (state.pending source).Pairwise (fun left right => key left ≤ key right)

theorem Sorted.step {before after : State Source Item} {label : Source}
    (sorted : Sorted key before) (step : Step key before label after) :
    Sorted key after := by
  cases step with
  | take item later head least =>
      have pendingSorted := sorted.pending label
      rw [head, List.pairwise_cons] at pendingSorted
      -- The item taken is least among the heads, so among all that is pending.
      have least (other : Source) (later' : Item)
          (member : later' ∈ before.pending other) : key item ≤ key later' := by
        have otherSorted := sorted.pending other
        cases shape : before.pending other with
        | nil =>
            rw [shape] at member
            cases member
        | cons first rest =>
            rw [shape, List.pairwise_cons] at otherSorted
            rw [shape, List.mem_cons] at member
            have first_le := least other first rest shape
            rcases member with same | member
            · rw [same]
              exact first_le
            · exact first_le.trans (otherSorted.1 later' member)
      have still (source : Source) (later' : Item)
          (member : later' ∈ Function.update before.pending label later source) :
          later' ∈ before.pending source := by
        by_cases same : source = label
        · subst same
          rw [Function.update_self] at member
          rw [head]
          exact List.mem_cons_of_mem _ member
        · rwa [Function.update_of_ne same] at member
      constructor
      · rw [List.pairwise_append]
        refine ⟨sorted.taken, List.pairwise_singleton _ _, ?_⟩
        intro pair member last only
        rw [List.mem_singleton] at only
        rw [only]
        apply sorted.below pair member label
        rw [head]
        exact List.mem_cons_self
      · intro pair member source later' pending
        rw [List.mem_append, List.mem_singleton] at member
        rcases member with member | only
        · exact sorted.below pair member source later' (still source later' pending)
        · rw [only]
          exact least source later' (still source later' pending)
      · intro source
        by_cases same : source = label
        · subst same
          simp only [Function.update_self]
          exact pendingSorted.2
        · simp only [Function.update_of_ne same]
          exact sorted.pending source

theorem sorted {state : State Source Item}
    (reachable : (system key sources).Reachable state)
    (sourcesSorted : ∀ source,
      (sources source).Pairwise (fun left right => key left ≤ key right)) :
    Sorted key state := by
  apply reachable.invariant (Sorted key)
  · intro state starts
    rw [show state = _ from starts]
    exact ⟨.nil, by simp, sourcesSorted⟩
  · intro before label after sorted step
    exact sorted.step step

/-! ## How much is left -/

/-- The number of items that some sources have left. -/
def size (among : List Source) (pending : Source → List Item) : Nat :=
  (among.map fun source => (pending source).length).sum

theorem Step.size_lt {before after : State Source Item} {label : Source}
    (step : Step key before label after) {among : List Source} (member : label ∈ among) :
    size among after.pending < size among before.pending := by
  cases step with
  | take item later head least =>
      apply List.sum_lt_sum
      · intro source _
        by_cases same : source = label
        · subst same
          simp [head]
        · simp [Function.update_of_ne same]
      · exact ⟨label, member, by simp [head]⟩

end StaticLog.Merge
