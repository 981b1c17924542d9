/-! # Executions of labelled transition systems

States, labelled steps, reachability and the two rules every safety argument
uses: an invariant that each step preserves holds in every reachable state, and
a system that simulates another one reaches only states whose images the other
one reaches. Nothing here depends on a particular program. -/

namespace StaticLog.Execution

/-- Where a system may start and which labelled steps it may take. -/
structure System (State : Type u) (Label : Type v) where
  Initial : State → Prop
  Step : State → Label → State → Prop

namespace System

/-- The states of the runs of a system. -/
inductive Reachable (system : System State Label) : State → Prop
  | initial {state : State} : system.Initial state → Reachable system state
  | step {before after : State} {label : Label} :
      Reachable system before → system.Step before label after →
      Reachable system after

/-- The part of a run that leads from one state to another. -/
inductive Run (system : System State Label) (start : State) :
    List Label → State → Prop
  | nil : Run system start [] start
  | snoc {labels : List Label} {before after : State} {label : Label} :
      Run system start labels before → system.Step before label after →
      Run system start (labels ++ [label]) after

/-- The same system when only the steps that meet a condition are taken. -/
def restrict (system : System State Label) (Allowed : State → Label → Prop) :
    System State Label where
  Initial := system.Initial
  Step before label after := Allowed before label ∧ system.Step before label after

/-- The invariant rule: what holds initially and is kept by every step holds in
every reachable state. -/
theorem Reachable.invariant {system : System State Label} (Invariant : State → Prop)
    (initial : ∀ state, system.Initial state → Invariant state)
    (step : ∀ before label after, Invariant before →
      system.Step before label after → Invariant after)
    {state : State} (reachable : system.Reachable state) : Invariant state := by
  induction reachable with
  | initial starts => exact initial _ starts
  | step _ taken induction => exact step _ _ _ induction taken

/-- The invariant rule for a run that starts in a state of interest. -/
theorem Run.invariant {system : System State Label} (Invariant : State → Prop)
    (step : ∀ before label after, Invariant before →
      system.Step before label after → Invariant after)
    {start final : State} {labels : List Label} (run : system.Run start labels final)
    (starts : Invariant start) : Invariant final := by
  induction run with
  | nil => exact starts
  | snoc _ taken induction => exact step _ _ _ induction taken

theorem Reachable.run {system : System State Label} {start final : State}
    {labels : List Label} (reachable : system.Reachable start)
    (run : system.Run start labels final) : system.Reachable final := by
  induction run with
  | nil => exact reachable
  | snoc _ taken induction => exact .step induction taken

/-- A reachable state is at the end of some run. -/
theorem Reachable.exists_run {system : System State Label} {final : State}
    (reachable : system.Reachable final) :
    ∃ start labels, system.Initial start ∧ system.Run start labels final := by
  induction reachable with
  | initial starts => exact ⟨_, [], starts, .nil⟩
  | step _ taken induction =>
      rcases induction with ⟨start, labels, starts, run⟩
      exact ⟨start, _, starts, run.snoc taken⟩

/-- What a system reaches is reached by another one that starts where it does and takes the
same steps. -/
theorem Reachable.mono {system other : System State Label} {state : State}
    (starts : ∀ state, system.Initial state → other.Initial state)
    (steps : ∀ before label after, system.Step before label after →
      other.Step before label after)
    (reachable : system.Reachable state) : other.Reachable state := by
  induction reachable with
  | initial initial => exact .initial (starts _ initial)
  | step _ taken induction => exact .step induction (steps _ _ _ taken)

/-- Restricting the steps reaches no new states. -/
theorem Reachable.of_restrict {system : System State Label}
    {Allowed : State → Label → Prop} {state : State}
    (reachable : (system.restrict Allowed).Reachable state) :
    system.Reachable state :=
  have starts : ∀ state, (system.restrict Allowed).Initial state → system.Initial state :=
    fun _ starts => starts
  reachable.mono starts fun _ _ _ taken => taken.2

/-- A run of one system is a run of another one that takes the same steps. -/
theorem Run.mono {system other : System State Label} {start final : State}
    {labels : List Label}
    (steps : ∀ before label after, system.Step before label after →
      other.Step before label after)
    (run : system.Run start labels final) : other.Run start labels final := by
  induction run with
  | nil => exact .nil
  | snoc _ taken induction => exact .snoc induction (steps _ _ _ taken)

theorem Run.of_restrict {system : System State Label}
    {Allowed : State → Label → Prop} {start final : State} {labels : List Label}
    (run : (system.restrict Allowed).Run start labels final) :
    system.Run start labels final := by
  apply run.mono
  intro before label after taken
  exact taken.2

theorem Run.append {system : System State Label} {start middle final : State}
    {first second : List Label} (earlier : system.Run start first middle)
    (later : system.Run middle second final) : system.Run start (first ++ second) final := by
  induction later with
  | nil =>
      rw [List.append_nil]
      exact earlier
  | snoc _ taken induction =>
      rw [← List.append_assoc]
      exact .snoc induction taken

theorem Run.cons {system : System State Label} {start middle final : State}
    {label : Label} {labels : List Label} (taken : system.Step start label middle)
    (later : system.Run middle labels final) : system.Run start (label :: labels) final :=
  (Run.snoc .nil taken).append later

theorem Run.eq_start {system : System State Label} {start final : State}
    (run : system.Run start [] final) : final = start := by
  generalize nothing : [] = labels at run
  cases run with
  | nil => rfl
  | snoc _ _ => simp at nothing

/-- The first step of a run. -/
theorem Run.uncons {system : System State Label} {start final : State} {label : Label}
    {labels : List Label} (run : system.Run start (label :: labels) final) :
    ∃ middle, system.Step start label middle ∧ system.Run middle labels final := by
  generalize whole : label :: labels = all at run
  induction run generalizing labels with
  | nil => cases whole
  | @snoc earlier before after last run taken induction =>
      cases earlier with
      | nil =>
          cases run.eq_start
          cases whole
          exact ⟨after, taken, .nil⟩
      | cons first others =>
          rcases List.cons.inj whole with ⟨rfl, rfl⟩
          rcases induction rfl with ⟨middle, first, later⟩
          exact ⟨middle, first, later.snoc taken⟩

/-- A run whose labels are all allowed is a run of the restricted system. -/
theorem Run.restrict {system : System State Label} {Allowed : State → Label → Prop}
    {start final : State} {labels : List Label} (run : system.Run start labels final)
    (allowed : ∀ label ∈ labels, ∀ state, Allowed state label) :
    (system.restrict Allowed).Run start labels final := by
  induction run with
  | nil => exact .nil
  | snoc _ taken induction =>
      apply Run.snoc
      · exact induction fun label member => allowed label (List.mem_append_left _ member)
      · exact ⟨allowed _ (by simp) _, taken⟩

end System

/-- A rank that falls as long as the goal is not met leads to it. -/
theorem leads_to (run : Nat → State) (Goal : State → Prop) (rank : State → Nat)
    (falls : ∀ n, ¬Goal (run n) → Goal (run (n + 1)) ∨ rank (run (n + 1)) < rank (run n))
    (n : Nat) : ∃ m, n ≤ m ∧ Goal (run m) := by
  induction height : rank (run n) using Nat.strongRecOn generalizing n with
  | _ _ induction =>
      by_cases goal : Goal (run n)
      · exact ⟨n, Nat.le_refl n, goal⟩
      · rcases falls n goal with reached | lower
        · exact ⟨n + 1, Nat.le_succ n, reached⟩
        · rcases induction _ (height ▸ lower) (n + 1) rfl with ⟨m, later, reached⟩
          exact ⟨m, Nat.le_of_succ_le later, reached⟩

/-- A concrete system refines an abstract one: seen through `view`, and as long
as the concrete invariant holds, each concrete step is an abstract step or is
not visible. -/
structure Refinement (concrete : System State Label)
    (abstract : System AbstractState AbstractLabel) where
  view : State → AbstractState
  Invariant : State → Prop
  initial : ∀ state, concrete.Initial state →
    Invariant state ∧ abstract.Initial (view state)
  keeps : ∀ before label after, Invariant before →
    concrete.Step before label after → Invariant after
  simulates : ∀ before label after, Invariant before →
    concrete.Step before label after →
    view after = view before ∨
      ∃ visible, abstract.Step (view before) visible (view after)

namespace Refinement

variable {concrete : System State Label}
  {abstract : System AbstractState AbstractLabel}

theorem invariant (refinement : Refinement concrete abstract) {state : State}
    (reachable : concrete.Reachable state) : refinement.Invariant state :=
  reachable.invariant refinement.Invariant
    (fun state starts => (refinement.initial state starts).1) refinement.keeps

/-- Every reachable concrete state shows a reachable abstract state. -/
theorem reachable_view (refinement : Refinement concrete abstract) {state : State}
    (reachable : concrete.Reachable state) :
    abstract.Reachable (refinement.view state) := by
  induction reachable with
  | initial starts => exact .initial (refinement.initial _ starts).2
  | step earlier taken induction =>
      rcases refinement.simulates _ _ _ (refinement.invariant earlier) taken with
        hidden | ⟨visible, shown⟩
      · rw [hidden]
        exact induction
      · exact .step induction shown

/-- A concrete run shows an abstract one that takes no more steps. -/
theorem run (refinement : Refinement concrete abstract) {start final : State}
    {labels : List Label} (begins : refinement.Invariant start)
    (run : concrete.Run start labels final) :
    ∃ visible, abstract.Run (refinement.view start) visible (refinement.view final) ∧
      visible.length ≤ labels.length := by
  induction run with
  | nil => exact ⟨[], .nil, Nat.le_refl 0⟩
  | snoc earlier taken induction =>
      rcases induction with ⟨visible, shown, fewer⟩
      have invariant := earlier.invariant refinement.Invariant refinement.keeps begins
      rw [List.length_append]
      rcases refinement.simulates _ _ _ invariant taken with hidden | ⟨last, next⟩
      · rw [hidden]
        exact ⟨visible, shown, Nat.le_add_right_of_le fewer⟩
      · refine ⟨visible ++ [last], shown.snoc next, ?_⟩
        rw [List.length_append]
        exact Nat.add_le_add_right fewer 1

end Refinement

end StaticLog.Execution
