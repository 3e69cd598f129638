import Mathlib.Tactic

/-! Sequence numbers modulo `m`, ordered from a base. -/

namespace OranSlice.Window

def distance (m base a : Int) : Int := if a - base < 0 then a - base + m else a - base

def Within (m a : Int) : Prop := 0 ≤ a ∧ a < m

instance (m a : Int) : Decidable (Within m a) := inferInstanceAs (Decidable (_ ∧ _))

def InInterval (m low high a : Int) : Prop := Within m a ∧ distance m low a < distance m low high

instance (m low high a : Int) : Decidable (InInterval m low high a) :=
  inferInstanceAs (Decidable (_ ∧ _))

variable {m base a b : Int}

theorem within_mod (positive : 0 < m) (a : Int) : Within m (a % m) :=
  ⟨Int.emod_nonneg a (by omega), Int.emod_lt_of_pos a positive⟩

@[simp] theorem distance_self : distance m base base = 0 := by simp [distance]

theorem distance_bounds (_ : Within m base) (_ : Within m a) :
    0 ≤ distance m base a ∧ distance m base a < m := by
  unfold distance Within at *
  split <;> omega

theorem distance_inj (_ : Within m base) (_ : Within m a) (_ : Within m b) :
    distance m base a = distance m base b ↔ a = b := by
  unfold distance Within at *
  split <;> split <;> omega

theorem succ_mod (a_ok : Within m a) : (a + 1) % m = if a + 1 = m then 0 else a + 1 := by
  obtain ⟨low, high⟩ := a_ok
  split_ifs with wraps
  · rw [wraps, Int.emod_self]
  · exact Int.emod_eq_of_lt (by omega) (by omega)

theorem pred_mod (a_ok : Within m a) : (a - 1 + m) % m = if a = 0 then m - 1 else a - 1 := by
  obtain ⟨low, high⟩ := a_ok
  split
  · rw [Int.emod_eq_of_lt (by omega) (by omega)]
    omega
  · have shift : a - 1 + m = (a - 1) + m * 1 := by omega
    rw [shift, Int.add_mul_emod_self_left]
    exact Int.emod_eq_of_lt (by omega) (by omega)

theorem distance_rebase {new : Int} (base_ok : Within m base) (new_ok : Within m new)
    (a_ok : Within m a) (ahead : distance m base new ≤ distance m base a) :
    distance m new a = distance m base a - distance m base new := by
  unfold distance Within at *
  split at ahead <;> split at ahead <;> split <;> omega

theorem before_trans {c : Int} {p q r : Prop} (first : distance m base a < distance m base b ∨ a = b ∧ p)
    (second : distance m base b < distance m base c ∨ b = c ∧ q) (both : p → q → r) :
    distance m base a < distance m base c ∨ a = c ∧ r := by
  rcases first with lower | ⟨rfl, first⟩
  · rcases second with higher | ⟨rfl, _⟩
    · exact .inl (lower.trans higher)
    · exact .inl lower
  · exact second.imp_right fun ⟨same, second⟩ => ⟨same, both first second⟩

theorem before_rebase {new : Int} {p : Prop} (base_ok : Within m base) (new_ok : Within m new)
    (a_ok : Within m a) (b_ok : Within m b) (a_ahead : distance m base new ≤ distance m base a)
    (b_ahead : distance m base new ≤ distance m base b) (ordered : distance m base a < distance m base b ∨ p) :
    distance m new a < distance m new b ∨ p := by
  rw [distance_rebase base_ok new_ok a_ok a_ahead, distance_rebase base_ok new_ok b_ok b_ahead]
  exact ordered.imp_left fun lower => by omega

theorem distance_rebase_behind {new : Int} (new_ok : Within m new) (a_ok : Within m a)
    (behind : distance m base a < distance m base new) :
    distance m new a = distance m base a + m - distance m base new := by
  unfold distance Within at *
  split at behind <;> split at behind <;> split <;> omega

theorem distance_add (base_ok : Within m base) {offset : Int} (offset_ok : Within m offset) :
    distance m base ((base + offset) % m) = offset := by
  obtain ⟨low, high⟩ := base_ok
  obtain ⟨start, bound⟩ := offset_ok
  by_cases wraps : base + offset < m
  · rw [Int.emod_eq_of_lt (by omega) wraps, distance]
    omega
  have shift : base + offset = (base + offset - m) + m * 1 := by omega
  rw [shift, Int.add_mul_emod_self_left, Int.emod_eq_of_lt (by omega) (by omega), distance]
  omega

theorem distance_succ (base_ok : Within m base) (a_ok : Within m a) (inside : distance m base a + 1 < m) :
    distance m base ((a + 1) % m) = distance m base a + 1 := by
  rw [succ_mod a_ok]
  unfold distance Within at *
  split at inside <;> split <;> split <;> omega

theorem distance_pred (base_ok : Within m base) (a_ok : Within m a) (ahead : 0 < distance m base a) :
    distance m base ((a - 1 + m) % m) = distance m base a - 1 := by
  rw [pred_mod a_ok]
  unfold distance Within at *
  split at ahead <;> split <;> split <;> omega

theorem pred_within (a_ok : Within m a) : Within m ((a - 1 + m) % m) := by
  have := a_ok.1
  have := a_ok.2
  exact within_mod (by omega) _

theorem distance_back (_ : Within m base) (_ : Within m a) (ahead : 0 < distance m base a) :
    distance m a base = m - distance m base a := by
  unfold distance Within at *
  split at ahead <;> split <;> omega

theorem sub_mod_eq (base_ok : Within m base) (a_ok : Within m a) (b_ok : Within m b)
    (ordered : distance m base a ≤ distance m base b) :
    (b - a + m) % m = distance m base b - distance m base a := by
  have steps : distance m a b = distance m base b - distance m base a :=
    distance_rebase base_ok a_ok b_ok ordered
  have bounds := distance_bounds a_ok b_ok
  rw [← steps]
  unfold distance at bounds ⊢
  split
  · exact Int.emod_eq_of_lt (by omega) (by omega)
  · rw [Int.add_emod_right]
    exact Int.emod_eq_of_lt (by omega) (by omega)

theorem add_steps_mod (base_ok : Within m base) (a_ok : Within m a) (b_ok : Within m b)
    (ordered : distance m base a ≤ distance m base b) :
    (a + (distance m base b - distance m base a)) % m = b := by
  rw [← sub_mod_eq base_ok a_ok b_ok ordered, Int.add_emod_emod,
    show a + (b - a + m) = b + m by omega, Int.add_emod_right]
  exact Int.emod_eq_of_lt b_ok.1 b_ok.2

theorem distance_shift (base_ok : Within m base) (a_ok : Within m a) {steps : Int} (forward : 0 ≤ steps)
    (inside : distance m base a + steps < m) :
    distance m base ((a + steps) % m) = distance m base a + steps := by
  have bounds := distance_bounds base_ok a_ok
  have from_base := add_steps_mod base_ok base_ok a_ok (by rw [distance_self]; exact bounds.1)
  rw [distance_self, Int.sub_zero] at from_base
  calc distance m base ((a + steps) % m)
      = distance m base (((base + distance m base a) % m + steps) % m) := by rw [from_base]
    _ = distance m base ((base + (distance m base a + steps)) % m) := by
        rw [Int.emod_add_emod, Int.add_assoc]
    _ = distance m base a + steps := distance_add base_ok ⟨by omega, inside⟩

end OranSlice.Window
