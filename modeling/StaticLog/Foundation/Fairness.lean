import Mathlib.Order.WellFounded
import StaticLog.Foundation.Execution

/-! # Executions that go on for ever

Executions without an end, and the rule with which a goal is shown to be reached in them: a
rank that no step raises and that some step lowers again and again. Nothing here depends on
a particular program. -/

namespace StaticLog.Execution

/-- An execution of a system without an end. -/
structure Endless (system : System State Label) where
  state : Nat → State
  label : Nat → Label
  step : ∀ n, system.Step (state n) (label n) (state (n + 1))

/-- What holds again and again. -/
def Recurs (Happens : Nat → Prop) : Prop := ∀ n, ∃ m, n ≤ m ∧ Happens m

namespace Endless

variable {system : System State Label}

theorem reachable (endless : Endless system) (starts : system.Reachable (endless.state 0))
    (n : Nat) : system.Reachable (endless.state n) := by
  induction n with
  | zero => exact starts
  | succ n induction => exact induction.step (endless.step n)

/-- The first steps of the execution. -/
theorem exists_run (endless : Endless system) (n : Nat) :
    ∃ labels, system.Run (endless.state 0) labels (endless.state n) := by
  induction n with
  | zero => exact ⟨[], .nil⟩
  | succ n induction =>
      rcases induction with ⟨labels, run⟩
      exact ⟨_, run.snoc (endless.step n)⟩

/-- What is left of the execution behind its first steps. -/
def suffix (endless : Endless system) (start : Nat) : Endless system where
  state n := endless.state (start + n)
  label n := endless.label (start + n)
  step n := endless.step (start + n)

end Endless

theorem Recurs.suffix {Happens : Nat → Prop} (recurs : Recurs Happens) (start : Nat) :
    Recurs fun n => Happens (start + n) := by
  intro n
  rcases recurs (start + n) with ⟨m, later, happens⟩
  rcases Nat.exists_eq_add_of_le later with ⟨more, rfl⟩
  rw [Nat.add_assoc] at happens
  exact ⟨n + more, Nat.le_add_right n more, happens⟩

/-- What no step ends but by reaching the goal goes on until the goal is reached. -/
theorem holds_until (Goal Waits : Nat → Prop)
    (keeps : ∀ n, Waits n → Goal (n + 1) ∨ Waits (n + 1)) {n m : Nat} (later : n ≤ m)
    (waits : Waits n) : (∃ k, n ≤ k ∧ Goal k) ∨ Waits m := by
  induction m, later using Nat.le_induction with
  | base => exact .inr waits
  | succ m later induction =>
      rcases induction with reached | waits
      · exact .inl reached
      · rcases keeps m waits with goal | waits
        · exact .inl ⟨m + 1, by omega, goal⟩
        · exact .inr waits

section Ranking

variable {Rank : Type u} [Preorder Rank] {Helps : Nat → Prop}

/-- A rank that no step raises, and that falls whenever a step helps, leads to the goal if
there is always another step that helps. -/
theorem fair_leads_to [WellFoundedLT Rank] (Goal : Nat → Prop)
    (Ranked : Nat → Rank → Prop)
    (helps : ∀ n rank, Ranked n rank → ∃ m, n ≤ m ∧ Helps m)
    (falls : ∀ n rank, Ranked n rank → Goal (n + 1) ∨
      ∃ next, Ranked (n + 1) next ∧ next ≤ rank ∧ (Helps n → next < rank))
    {n : Nat} {rank : Rank} (ranked : Ranked n rank) : ∃ m, n ≤ m ∧ Goal m := by
  induction rank using WellFoundedLT.induction generalizing n with
  | ind rank induction =>
      rcases helps n rank ranked with ⟨m, later, helps⟩
      have keeps (n : Nat) (below : ∃ next, Ranked n next ∧ next ≤ rank) :
          Goal (n + 1) ∨ ∃ next, Ranked (n + 1) next ∧ next ≤ rank := by
        rcases below with ⟨middle, ranked, lower⟩
        rcases falls n middle ranked with goal | ⟨next, ranked, lowered, _⟩
        · exact .inl goal
        · exact .inr ⟨next, ranked, lowered.trans lower⟩
      rcases holds_until Goal _ keeps later ⟨rank, ranked, le_refl rank⟩ with
        reached | ⟨middle, ranked, lower⟩
      · exact reached
      · rcases falls m middle ranked with goal | ⟨next, ranked, _, lowers⟩
        · exact ⟨m + 1, by omega, goal⟩
        · rcases induction next ((lowers helps).trans_le lower) ranked with ⟨k, after, goal⟩
          exact ⟨k, by omega, goal⟩

end Ranking

end StaticLog.Execution
