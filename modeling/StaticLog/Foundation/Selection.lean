import Mathlib.Order.Lattice

/-! # The first least item of a list

What a loop selects that remembers an item until it meets a smaller one. -/

namespace StaticLog.Selection

variable {Item : Type u} {Key : Type v} [LinearOrder Key]

/-- `chosen` stands before every other item whose key is as small. -/
def FirstLeast (key : Item → Key) (items : List Item) (chosen : Item) : Prop :=
  ∃ before behind, items = before ++ chosen :: behind ∧
    (∀ item ∈ before, key chosen < key item) ∧
    ∀ item ∈ behind, key chosen ≤ key item

namespace FirstLeast

variable {key : Item → Key} {items : List Item} {chosen item : Item}

theorem singleton (key : Item → Key) (item : Item) : FirstLeast key [item] item :=
  ⟨[], [], rfl, by simp, by simp⟩

theorem mem (first : FirstLeast key items chosen) : chosen ∈ items := by
  rcases first with ⟨before, behind, rfl, _, _⟩
  simp

theorem least (first : FirstLeast key items chosen) (member : item ∈ items) :
    key chosen ≤ key item := by
  rcases first with ⟨before, behind, rfl, earlier, later⟩
  rw [List.mem_append, List.mem_cons] at member
  rcases member with member | rfl | member
  · exact (earlier item member).le
  · exact le_refl _
  · exact later item member

/-- An item that is not smaller is passed over. -/
theorem keep (first : FirstLeast key items chosen) (notSmaller : key chosen ≤ key item) :
    FirstLeast key (items ++ [item]) chosen := by
  rcases first with ⟨before, behind, rfl, earlier, later⟩
  refine ⟨before, behind ++ [item], by simp, earlier, ?_⟩
  intro other member
  rw [List.mem_append, List.mem_singleton] at member
  rcases member with member | rfl
  · exact later other member
  · exact notSmaller

/-- A smaller item takes the place of the one so far. -/
theorem replace (first : FirstLeast key items chosen) (smaller : key item < key chosen) :
    FirstLeast key (items ++ [item]) item :=
  ⟨items, [], rfl, fun _ member => smaller.trans_le (first.least member), by simp⟩

end FirstLeast

end StaticLog.Selection
