import Mathlib.Tactic

/-! Which places a list of intervals covers, read off by one sweep over the list in the order of
their starts. -/

namespace OranSlice.Cover

open List

variable {α : Type*} {start size : α → Nat} {list : List α} {n k : Nat}

def Covered (start size : α → Nat) (list : List α) (k : Nat) : Prop :=
  ∃ a ∈ list, start a ≤ k ∧ k < start a + size a

instance (start size : α → Nat) (list : List α) (k : Nat) : Decidable (Covered start size list k) :=
  inferInstanceAs (Decidable (∃ a ∈ list, _))

/-- The first place from `n` on that is not covered, when the list is ordered. -/
def reach (start size : α → Nat) : List α → Nat → Nat
  | [], n => n
  | a :: rest, n => if n < start a then n else reach start size rest (max n (start a + size a))

theorem Covered.mono {other : List α} (covered : Covered start size list k)
    (sub : ∀ a ∈ list, a ∈ other) : Covered start size other k := by
  obtain ⟨a, member, inside⟩ := covered
  exact ⟨a, sub a member, inside⟩

theorem covered_append {other : List α} :
    Covered start size (list ++ other) k ↔ Covered start size list k ∨ Covered start size other k := by
  simp [Covered, or_and_right, exists_or]

theorem covered_singleton {a : α} : Covered start size [a] k ↔ start a ≤ k ∧ k < start a + size a := by
  simp [Covered]

theorem le_reach (list : List α) (n : Nat) : n ≤ reach start size list n := by
  induction list generalizing n with
  | nil => exact le_refl n
  | cons a rest ih =>
    rw [reach]
    split
    · exact le_refl n
    · exact (le_max_left n _).trans (ih _)

theorem covered_of_lt_reach (low : n ≤ k) (high : k < reach start size list n) : Covered start size list k := by
  induction list generalizing n with
  | nil => exact absurd high (not_lt.mpr low)
  | cons a rest ih =>
    rw [reach] at high
    split at high
    · exact absurd high (not_lt.mpr low)
    · by_cases here : k < start a + size a
      · exact ⟨a, mem_cons_self, by omega, here⟩
      · exact (ih (by omega) high).mono (fun b member => mem_cons_of_mem a member)

theorem not_covered_reach (sorted : list.Pairwise (fun a b => start a ≤ start b)) (n : Nat) :
    ¬ Covered start size list (reach start size list n) := by
  induction list generalizing n with
  | nil =>
    rintro ⟨a, member, _⟩
    cases member
  | cons a rest ih =>
    obtain ⟨first, later⟩ := pairwise_cons.mp sorted
    rw [reach]
    split
    · -- there is a gap before this interval, and all others start behind it
      rintro ⟨b, member, low, _⟩
      rcases mem_cons.mp member with here | there
      · rw [here] at low
        omega
      · have := first b there
        omega
    · rintro ⟨b, member, low, high⟩
      rcases mem_cons.mp member with here | there
      · have further : _ ≤ reach start size rest _ := le_reach rest (max n (start a + size a))
        rw [here] at high
        omega
      · exact ih later _ ⟨b, there, low, high⟩

theorem le_reach_iff (sorted : list.Pairwise (fun a b => start a ≤ start b)) {last : Nat} :
    last ≤ reach start size list n ↔ ∀ k, n ≤ k → k < last → Covered start size list k := by
  constructor
  · intro passed k low high
    exact covered_of_lt_reach low (by omega)
  · intro all
    by_contra short
    exact not_covered_reach sorted n (all _ (le_reach list n) (by omega))

theorem reach_of_lt (behind : ∀ a ∈ list, n < start a) : reach start size list n = n := by
  cases list with
  | nil => rfl
  | cons a rest => rw [reach, if_pos (behind a mem_cons_self)]

end OranSlice.Cover
