import Mathlib.Tactic

/-! Search for runs of free positions in a row of cells. -/

namespace OranSlice.FreeRun

variable (free : Nat → Bool)

/-- The first free position from `start` on, or the end after `fuel` occupied ones. -/
def skip : Nat → Nat → Nat
  | 0, start => start
  | fuel + 1, start => if free start then start else skip fuel (start + 1)

/-- The number of consecutive free positions from `start` on, at most `fuel`. -/
def run : Nat → Nat → Nat
  | 0, _ => 0
  | fuel + 1, start => if free start then run fuel (start + 1) + 1 else 0

def skipReads : Nat → Nat → List Nat
  | 0, _ => []
  | fuel + 1, start => start :: if free start then [] else skipReads fuel (start + 1)

/-- The positions looked at to count a run of at most `limit`, where a position is looked at before
the limit is. -/
def runReads : Nat → Nat → Nat → List Nat
  | 0, _, _ => []
  | fuel + 1, limit, start =>
    start :: if free start && decide (0 < limit) then runReads fuel (limit - 1) (start + 1) else []

variable {free}

theorem le_skip (fuel start : Nat) : start ≤ skip free fuel start := by
  induction fuel generalizing start with
  | zero => exact le_refl start
  | succ fuel ih =>
    unfold skip
    split
    · exact le_refl start
    · exact Nat.le_of_succ_le (ih (start + 1))

theorem skip_le (fuel start : Nat) : skip free fuel start ≤ start + fuel := by
  induction fuel generalizing start with
  | zero => exact le_refl start
  | succ fuel ih =>
    have later := ih (start + 1)
    unfold skip
    split <;> omega

theorem skip_free (fuel start : Nat) (early : skip free fuel start < start + fuel) :
    free (skip free fuel start) = true := by
  induction fuel generalizing start with
  | zero => exact absurd early (by simp [skip])
  | succ fuel ih =>
    unfold skip at early ⊢
    split_ifs with occupied
    · assumption
    · rw [if_neg occupied] at early
      exact ih (start + 1) (by omega)

variable {start position fuel limit i : Nat}

theorem skip_of_free (here : free start = true) (fuel : Nat) : skip free fuel start = start := by
  cases fuel with
  | zero => rfl
  | succ fuel => simp [skip, here]

theorem skip_le_of_free (here : free position = true) (fuel : Nat)
    (after : start ≤ position) : skip free fuel start ≤ position := by
  induction fuel generalizing start with
  | zero => exact after
  | succ fuel ih =>
    unfold skip
    split
    · exact after
    rename_i occupied
    refine ih ?_
    rcases Nat.lt_or_eq_of_le after with before | same
    · exact before
    · rw [same] at occupied
      exact absurd here occupied

theorem mem_skipReads :
    position ∈ skipReads free fuel start ↔
      start ≤ position ∧ position ≤ skip free fuel start ∧ position < start + fuel := by
  induction fuel generalizing start with
  | zero =>
    simp only [skipReads, List.not_mem_nil, false_iff]
    omega
  | succ fuel ih =>
    unfold skipReads skip
    split
    · simp only [List.mem_singleton]
      omega
    · have forward := @le_skip free fuel (start + 1)
      rw [List.mem_cons, ih]
      omega

theorem run_le (fuel start : Nat) : run free fuel start ≤ fuel := by
  induction fuel generalizing start with
  | zero => exact le_refl 0
  | succ fuel ih =>
    unfold run
    split
    · exact Nat.succ_le_succ (ih (start + 1))
    · exact Nat.zero_le _

theorem le_run_iff (fuel start size : Nat) :
    size ≤ run free fuel start ↔ size ≤ fuel ∧ ∀ i < size, free (start + i) = true := by
  induction fuel generalizing start size with
  | zero =>
    simp only [run, Nat.le_zero_eq]
    constructor
    · rintro rfl
      exact ⟨rfl, fun i below => absurd below (Nat.not_lt_zero i)⟩
    · exact fun both => both.1
  | succ fuel ih =>
    cases size with
    | zero => simp
    | succ size =>
      unfold run
      split_ifs with here
      · rw [Nat.add_le_add_iff_right, ih (start + 1) size, Nat.add_le_add_iff_right]
        constructor
        · rintro ⟨bound, all⟩
          refine ⟨bound, ?_⟩
          intro i below
          cases i with
          | zero => exact here
          | succ i =>
            have next := all i (by omega)
            rwa [Nat.add_assoc, Nat.add_comm 1] at next
        · rintro ⟨bound, all⟩
          refine ⟨bound, ?_⟩
          intro i below
          have next := all (i + 1) (by omega)
          rwa [Nat.add_comm i 1, ← Nat.add_assoc] at next
      · constructor
        · omega
        · rintro ⟨_, all⟩
          exact absurd (all 0 (by omega)) here

theorem run_free (below : i < run free fuel start) : free (start + i) = true :=
  ((le_run_iff fuel start (run free fuel start)).mp (le_refl _)).2 i below

theorem run_stops (short : run free fuel start < fuel) : free (start + run free fuel start) = false := by
  by_contra next
  have longer : run free fuel start + 1 ≤ run free fuel start := by
    refine (le_run_iff fuel start _).mpr ⟨short, fun i below => ?_⟩
    rcases Nat.lt_succ_iff_lt_or_eq.mp below with inner | last
    · exact run_free inner
    · rw [last]
      exact Bool.not_eq_false _ ▸ next
  omega

theorem run_eq_of_all_free (all : ∀ i < fuel, free (start + i) = true) : run free fuel start = fuel :=
  le_antisymm (run_le fuel start) ((le_run_iff fuel start fuel).mpr ⟨le_refl _, all⟩)

theorem run_min (fuel limit start : Nat) :
    run free (min fuel limit) start = min (run free fuel start) limit := by
  refine eq_of_forall_le_iff fun size => ?_
  rw [le_run_iff, Nat.le_min, Nat.le_min, le_run_iff]
  constructor
  · rintro ⟨⟨first, second⟩, all⟩
    exact ⟨⟨first, all⟩, second⟩
  · rintro ⟨⟨first, all⟩, second⟩
    exact ⟨⟨first, second⟩, all⟩

theorem run_succ_of_free (here : free start = true) (fuel : Nat) :
    run free (fuel + 1) start = run free fuel (start + 1) + 1 := by
  simp [run, here]

theorem mem_runReads :
    position ∈ runReads free fuel limit start ↔
      start ≤ position ∧ position < start + fuel ∧ position ≤ start + run free (min fuel limit) start := by
  induction fuel generalizing limit start with
  | zero =>
    simp only [runReads, List.not_mem_nil, false_iff]
    omega
  | succ fuel ih =>
    unfold runReads
    split_ifs with more
    · simp only [Bool.and_eq_true, decide_eq_true_eq] at more
      have split : min (fuel + 1) limit = min fuel (limit - 1) + 1 := by omega
      rw [List.mem_cons, ih, split, run_succ_of_free more.1]
      omega
    · have none : run free (min (fuel + 1) limit) start = 0 := by
        simp only [Bool.and_eq_true, decide_eq_true_eq, not_and, not_lt] at more
        by_cases here : free start = true
        · rw [Nat.le_zero.mp (more here), Nat.min_zero, run]
        · cases min (fuel + 1) limit with
          | zero => rfl
          | succ size => rw [run, if_neg here]
      rw [List.mem_singleton, none]
      omega

theorem skipReads_below {bound : Nat} : (∀ position ∈ skipReads free fuel start, position < bound) ↔
    fuel = 0 ∨ min (skip free fuel start) (start + fuel - 1) < bound := by
  have forward := @le_skip free fuel start
  simp only [mem_skipReads]
  constructor
  · intro all
    by_contra outside
    have last := all (min (skip free fuel start) (start + fuel - 1))
    omega
  · intro below position inside
    omega

theorem runReads_below {bound : Nat} : (∀ position ∈ runReads free fuel limit start, position < bound) ↔
    fuel = 0 ∨ min (start + run free (min fuel limit) start) (start + fuel - 1) < bound := by
  simp only [mem_runReads]
  constructor
  · intro all
    by_contra outside
    have last := all (min (start + run free (min fuel limit) start) (start + fuel - 1))
    omega
  · intro below position inside
    omega

end OranSlice.FreeRun
