import Mathlib.Tactic

/-! Resource indication values (RIV): a start and a number of PRBs as one number. -/

namespace OranSlice.Mac

/-- No value for an allocation that the assertion refuses, or where the sum, which is the largest
number computed, leaves an `int`. -/
def prballocToLocationandbandwidth0 (nprb rbStart bwpSize : Nat) : Option Nat :=
  if 0 < nprb ∧ nprb + rbStart ≤ bwpSize then
    let riv := if nprb ≤ 1 + bwpSize / 2 then bwpSize * (nprb - 1) + rbStart
      else bwpSize * (bwpSize + 1 - nprb) + (bwpSize - 1 - rbStart)
    if riv < 2 ^ 31 then some riv else none
  else none

def nrRiv2Bw (locationAndBandwidth nRb : Nat) : Int :=
  let tmp := locationAndBandwidth / nRb
  let tmp2 := locationAndBandwidth % nRb
  if tmp ≤ nRb / 2 + 1 ∧ tmp + tmp2 < nRb then tmp + 1 else nRb + 1 - tmp

def nrRiv2PrbOffset (locationAndBandwidth nRb : Nat) : Int :=
  let tmp := locationAndBandwidth / nRb
  let tmp2 := locationAndBandwidth % nRb
  if tmp ≤ nRb / 2 + 1 ∧ tmp + tmp2 < nRb then tmp2 else nRb - 1 - tmp2

def RivBijective (n : Nat) : Prop :=
  (∀ l s, 0 < l → l + s ≤ n → ∃ riv, prballocToLocationandbandwidth0 l s n = some riv ∧ riv < n * (n + 1) / 2 ∧
    nrRiv2Bw riv n = l ∧ nrRiv2PrbOffset riv n = s) ∧
  ∀ l s l' s', 0 < l → l + s ≤ n → 0 < l' → l' + s' ≤ n →
    prballocToLocationandbandwidth0 l s n = prballocToLocationandbandwidth0 l' s' n → l = l' ∧ s = s'

theorem riv_bound {n q r : Nat} (rest : 2 * q ≤ n ∧ q + r < n ∨ 2 * q < n ∧ r < n) :
    n * q + r < n * (n + 1) / 2 := by
  obtain ⟨m, rfl⟩ := Nat.exists_eq_succ_of_ne_zero (show n ≠ 0 by omega)
  have square : (m + 1) * (m + 1 + 1) = m * m + 3 * m + 2 := by simp only [Nat.mul_add, Nat.add_mul]; omega
  rw [Nat.succ_eq_add_one, Nat.add_one_mul]
  rcases rest with ⟨half, sum⟩ | ⟨half, below⟩
  · have product := Nat.mul_le_mul_left m half
    rw [Nat.mul_left_comm, Nat.mul_add_one] at product
    omega
  · have product := Nat.mul_le_mul_left m (Nat.le_of_lt_succ half)
    rw [Nat.mul_left_comm] at product
    omega

theorem riv_read {n l s : Nat} (small : n < 2 ^ 16) (positive : 0 < l) (fits : l + s ≤ n) :
    ∃ riv, prballocToLocationandbandwidth0 l s n = some riv ∧ riv < n * (n + 1) / 2 ∧
      nrRiv2Bw riv n = l ∧ nrRiv2PrbOffset riv n = s := by
  have largest : n * (n + 1) ≤ 2 ^ 16 * 2 ^ 16 := Nat.mul_le_mul (by omega) (by omega)
  rw [prballocToLocationandbandwidth0, if_pos ⟨positive, fits⟩]
  -- the quotient and the remainder by the bandwidth are the two numbers the encoder put together
  have parts (q r : Nat) (below : r < n) : (n * q + r) / n = q ∧ (n * q + r) % n = r := by
    rw [Nat.mul_add_div (by omega), Nat.div_eq_of_lt below, Nat.mul_add_mod, Nat.mod_eq_of_lt below]
    exact ⟨rfl, rfl⟩
  by_cases short : l ≤ 1 + n / 2
  · rw [if_pos short]
    have bound : n * (l - 1) + s < n * (n + 1) / 2 := riv_bound (by omega)
    obtain ⟨quotient, remainder⟩ := parts (l - 1) s (by omega)
    refine ⟨_, if_pos (by omega), bound, ?_, ?_⟩
    · rw [nrRiv2Bw]
      omega
    · rw [nrRiv2PrbOffset, remainder, if_pos (by omega)]
  · rw [if_neg short]
    have bound : n * (n + 1 - l) + (n - 1 - s) < n * (n + 1) / 2 := riv_bound (by omega)
    obtain ⟨quotient, remainder⟩ := parts (n + 1 - l) (n - 1 - s) (by omega)
    refine ⟨_, if_pos (by omega), bound, ?_, ?_⟩
    · rw [nrRiv2Bw]
      omega
    · rw [nrRiv2PrbOffset]
      omega

theorem riv_bijective_iff (n : Nat) : RivBijective n ↔ n < 2 ^ 16 := by
  constructor
  · intro bijective
    by_contra large
    obtain ⟨riv, made, _⟩ := bijective.1 (1 + n / 2) 0 (by omega) (by omega)
    have product : 2 ^ 16 * 2 ^ 15 ≤ n * (n / 2) := Nat.mul_le_mul (by omega) (by omega)
    rw [prballocToLocationandbandwidth0, if_pos (by omega), if_pos (le_refl _), if_neg (by
      rw [Nat.add_sub_cancel_left]
      omega)] at made
    cases made
  · intro small
    refine ⟨fun l s => riv_read small, fun l s l' s' positive fits positive' fits' same => ?_⟩
    obtain ⟨riv, made, _, bw, offset⟩ := riv_read small positive fits
    obtain ⟨riv', made', _, bw', offset'⟩ := riv_read small positive' fits'
    cases made.symm.trans (same.trans made')
    omega

/-- The callers pass the size of a BWP, 16 bits wide, or 275. -/
theorem riv_bijective (bwpSize : UInt16) : RivBijective bwpSize.toNat :=
  (riv_bijective_iff _).mpr bwpSize.toNat_lt

end OranSlice.Mac
