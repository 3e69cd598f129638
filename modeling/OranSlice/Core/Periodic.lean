import Mathlib.Tactic

/-! Times that a periodic pattern selects: in every period those from some offset on. The rank of a
selected time counts those before it, as if each period had `count` of them. Ranks modulo the size of a
table give different places to the selected times of a short window. -/

namespace OranSlice.Periodic

structure Pattern where
  (period first count : Nat)
  positive : 0 < period

namespace Pattern

variable (pattern : Pattern)

def Selected (time : Nat) : Prop := pattern.first ≤ time % pattern.period

instance (time : Nat) : Decidable (pattern.Selected time) :=
  inferInstanceAs (Decidable (pattern.first ≤ time % pattern.period))

def rank (time : Nat) : Nat :=
  time / pattern.period * pattern.count + (time % pattern.period - pattern.first)

def Regular : Prop := pattern.period ≤ pattern.first + pattern.count

variable {pattern}

variable {time a b window size cycles : Nat}

theorem offset_lt (regular : pattern.Regular) (selected : pattern.Selected time) :
    time % pattern.period - pattern.first < pattern.count := by
  have below := Nat.mod_lt time pattern.positive
  unfold Regular at regular
  unfold Selected at selected
  omega

theorem rank_lt_next (regular : pattern.Regular) (selected : pattern.Selected time) :
    pattern.rank time < (time / pattern.period + 1) * pattern.count := by
  have offset := offset_lt regular selected
  rw [rank, add_mul]
  omega

theorem le_rank (time : Nat) : time / pattern.period * pattern.count ≤ pattern.rank time := Nat.le_add_right _ _

theorem rank_lt_rank (regular : pattern.Regular) (selected : pattern.Selected a)
    (before : a < b) (also : pattern.Selected b) : pattern.rank a < pattern.rank b := by
  rcases Nat.lt_or_eq_of_le (Nat.div_le_div_right (c := pattern.period) (le_of_lt before)) with
    earlier | same
  · calc pattern.rank a
        < (a / pattern.period + 1) * pattern.count := rank_lt_next regular selected
      _ ≤ b / pattern.period * pattern.count := Nat.mul_le_mul_right _ earlier
      _ ≤ pattern.rank b := le_rank b
  · have whole := Nat.div_add_mod a pattern.period
    have whole' := Nat.div_add_mod b pattern.period
    rw [same] at whole
    unfold Selected at selected also
    rw [rank, rank, same]
    omega

theorem rank_lt_add (regular : pattern.Regular) (selected : pattern.Selected a)
    (also : pattern.Selected b) (near : b ≤ a + window) :
    pattern.rank b < pattern.rank a + (window / pattern.period + 1) * pattern.count := by
  have whole := Nat.div_add_mod a pattern.period
  have whole' := Nat.div_add_mod b pattern.period
  have windows := Nat.div_add_mod window pattern.period
  have short := Nat.mod_lt window pattern.positive
  have small := Nat.mod_lt a pattern.positive
  rcases Nat.lt_or_ge (a / pattern.period + window / pattern.period) (b / pattern.period) with
    far | close
  · -- only the first selected times of one more period are within reach
    have reach : pattern.period * (b / pattern.period) + b % pattern.period ≤
        pattern.period * (a / pattern.period + window / pattern.period) + a % pattern.period +
          window % pattern.period := by
      rw [mul_add]
      omega
    have next : pattern.period * (a / pattern.period + window / pattern.period + 1) ≤
        pattern.period * (b / pattern.period) := Nat.mul_le_mul_left _ far
    have last : b / pattern.period < a / pattern.period + window / pattern.period + 2 := by
      by_contra beyond
      have more := Nat.mul_le_mul_left pattern.period (not_lt.mp beyond)
      rw [mul_add] at more
      omega
    have exactly : b / pattern.period = a / pattern.period + (window / pattern.period + 1) := by omega
    have wrapped : b % pattern.period < a % pattern.period := by
      rw [mul_add] at next
      omega
    unfold Selected at selected also
    rw [rank, rank, exactly, add_mul]
    omega
  · calc pattern.rank b
        < (b / pattern.period + 1) * pattern.count := rank_lt_next regular also
      _ ≤ (a / pattern.period + window / pattern.period + 1) * pattern.count :=
          Nat.mul_le_mul_right _ (by omega)
      _ = a / pattern.period * pattern.count + (window / pattern.period + 1) * pattern.count := by ring
      _ ≤ pattern.rank a + (window / pattern.period + 1) * pattern.count := Nat.add_le_add_right (le_rank a) _

private theorem mod_ne_of_lt (less : a < b) (near : b < a + size) : a % size ≠ b % size := by
  intro same
  have divides : size ∣ b - a := (Nat.modEq_iff_dvd' (le_of_lt less)).mp same
  exact absurd (Nat.le_of_dvd (by omega) divides) (by omega)

theorem place_injective (regular : pattern.Regular)
    (large : (window / pattern.period + 1) * pattern.count ≤ size)
    (selected : pattern.Selected a) (also : pattern.Selected b) (after : b ≤ a + window)
    (before : a ≤ b + window) (same : pattern.rank a % size = pattern.rank b % size) : a = b := by
  rcases Nat.lt_trichotomy a b with less | equal | more
  · have near := rank_lt_add regular selected also after
    exact absurd same (mod_ne_of_lt (rank_lt_rank regular selected less also) (by omega))
  · exact equal
  · have near := rank_lt_add regular also selected before
    exact absurd same.symm (mod_ne_of_lt (rank_lt_rank regular also more selected) (by omega))

theorem place_wrap (divides : size ∣ cycles * pattern.count) (time : Nat) :
    pattern.rank (time % (cycles * pattern.period)) % size = pattern.rank time % size := by
  obtain ⟨tables, whole⟩ := divides
  have offset : time % (cycles * pattern.period) % pattern.period = time % pattern.period :=
    Nat.mod_mod_of_dvd time (Dvd.intro_left cycles rfl)
  have quotient : time / pattern.period =
      cycles * (time / (cycles * pattern.period)) + time % (cycles * pattern.period) / pattern.period := by
    have split := Nat.div_add_mod time (cycles * pattern.period)
    calc time / pattern.period
        = (pattern.period * (cycles * (time / (cycles * pattern.period))) +
            time % (cycles * pattern.period)) / pattern.period := by
          rw [← mul_assoc, mul_comm pattern.period cycles, split]
      _ = cycles * (time / (cycles * pattern.period)) +
            time % (cycles * pattern.period) / pattern.period := Nat.mul_add_div pattern.positive _ _
  have more : pattern.rank time = pattern.rank (time % (cycles * pattern.period)) +
        size * (tables * (time / (cycles * pattern.period))) := by
    rw [rank, rank, quotient, add_mul]
    have counted : cycles * (time / (cycles * pattern.period)) * pattern.count =
        size * (tables * (time / (cycles * pattern.period))) := by
      rw [Nat.mul_right_comm, whole, mul_assoc]
    omega
  rw [more, Nat.add_mul_mod_self_left]

end Pattern

end OranSlice.Periodic
