import Mathlib.Tactic
import Mathlib.Order.CompletePartialOrder

/-! Areas marked one after the other by toggling, which frees an occupied point again. They are
exclusive exactly when each one lies in what is free at its turn. -/

namespace OranSlice.Toggle

variable {α : Type*}

def EachInside : Set α → List (Set α) → Prop
  | _, [] => True
  | free, area :: rest => area ⊆ free ∧ EachInside (symmDiff free area) rest

theorem symmDiff_of_subset {free area : Set α} (inside : area ⊆ free) : symmDiff free area = free \ area := by
  rw [Set.symmDiff_def, Set.sdiff_eq_empty.mpr inside, Set.union_empty]

theorem eachInside_iff (free : Set α) (areas : List (Set α)) :
    EachInside free areas ↔ (∀ area ∈ areas, area ⊆ free) ∧ areas.Pairwise Disjoint := by
  induction areas generalizing free with
  | nil => simp [EachInside]
  | cons area rest ih =>
    rw [EachInside, List.forall_mem_cons, List.pairwise_cons]
    constructor
    · rintro ⟨inside, later⟩
      rw [symmDiff_of_subset inside, ih] at later
      refine ⟨⟨inside, fun other member => ?_⟩, fun other member => ?_, later.2⟩
      · exact (later.1 other member).trans Set.sdiff_subset
      · exact (Set.disjoint_sdiff_left.mono_left (later.1 other member)).symm
    · rintro ⟨⟨inside, others⟩, apart, pairwise⟩
      rw [symmDiff_of_subset inside, ih]
      refine ⟨inside, fun other member => ?_, pairwise⟩
      exact Set.subset_sdiff.mpr ⟨others other member, (apart other member).symm⟩

end OranSlice.Toggle
