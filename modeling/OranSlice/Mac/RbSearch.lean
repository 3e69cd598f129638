import OranSlice.Mac.Tbs

/-! Transport block sizes grow with the number of resource blocks unless a product leaves 32 bits. The
search of `nr_find_nb_rb` is exact where they grow. -/

namespace OranSlice.Mac

open List

structure Rounds (round : Nat → Nat → Nat) : Prop where
  mono : ∀ unit {a b}, a ≤ b → round unit a ≤ round unit b
  above : ∀ {unit a multiple}, 0 < unit → unit ∣ multiple → a ≤ multiple → round unit a ≤ multiple
  below : ∀ {unit a multiple}, 0 < unit → unit ∣ multiple → multiple ≤ a → multiple ≤ round unit a

theorem rounds_down : Rounds (fun unit a => a / unit * unit) where
  mono unit _ _ le := Nat.mul_le_mul_right unit (Nat.div_le_div_right le)
  above _ _ le := (Nat.div_mul_le_self _ _).trans le
  below _ divides le := by
    rw [← Nat.div_mul_cancel divides]
    exact Nat.mul_le_mul_right _ (Nat.div_le_div_right le)

theorem rounds_nearest : Rounds (fun unit a => roundIDiv a unit * unit) where
  mono unit _ _ le := Nat.mul_le_mul_right unit (Nat.div_le_div_right (by omega))
  above := by
    rintro unit a _ positive ⟨count, rfl⟩ le
    have twice : (count + 1) * (2 * unit) = 2 * (unit * count) + 2 * unit := by ring
    rw [mul_comm]
    apply Nat.mul_le_mul_left
    exact Nat.le_of_lt_add_one ((Nat.div_lt_iff_lt_mul (by omega)).mpr (by omega))
  below := by
    rintro unit a _ positive ⟨count, rfl⟩ le
    have twice : count * (2 * unit) = 2 * (unit * count) := by ring
    rw [mul_comm]
    apply Nat.mul_le_mul_right
    exact (Nat.le_div_iff_mul_le (by omega)).mpr (by omega)

theorem Rounds.scaled {round : Nat → Nat → Nat} (rounds : Rounds round) (least shift : Nat) {a b : Nat} (le : a ≤ b) :
    round (2 ^ max least (a.log2 - shift)) a ≤ round (2 ^ max least (b.log2 - shift)) b := by
  by_cases same : max least (a.log2 - shift) = max least (b.log2 - shift)
  · rw [same]
    exact rounds.mono _ le
  -- between the two there is a power of two that is a multiple of both units
  have zero : b ≠ 0 := by
    rintro rfl
    exact same (by rw [Nat.le_zero.mp le])
  have logs : a.log2 ≤ b.log2 := by
    rw [Nat.log2_eq_log_two, Nat.log2_eq_log_two]
    exact Nat.log_mono_right le
  have large : a < 2 ^ b.log2 := Nat.lt_log2_self.trans_le (Nat.pow_le_pow_right (by decide) (by omega))
  have up := rounds.above (Nat.two_pow_pos _) (Nat.pow_dvd_pow 2 (show max least (a.log2 - shift) ≤ b.log2 by omega))
    large.le
  exact up.trans (rounds.below (Nat.two_pow_pos _) (Nat.pow_dvd_pow 2 (by omega)) (Nat.log2_self_le zero))

theorem ceilIDiv_mono (unit : Nat) {a b : Nat} (le : a ≤ b) : ceilIDiv a unit ≤ ceilIDiv b unit :=
  Nat.div_le_div_right (by omega)

theorem mul_ceilIDiv_le {a unit multiple : Nat} (positive : 0 < unit) (divides : unit ∣ multiple)
    (le : a ≤ multiple) : unit * ceilIDiv a unit ≤ multiple := by
  have tight := mul_ceilIDiv_lt a positive
  obtain ⟨count, rfl⟩ := divides
  apply Nat.mul_le_mul_left
  apply Nat.le_of_lt_succ
  exact Nat.lt_of_mul_lt_mul_left (tight.trans_le (by rw [Nat.mul_succ]; omega))

theorem segmented_mono {block a b : Nat} (bytes : 8 ∣ block) (positive : 0 < block) (some : 0 < a) (le : a ≤ b) :
    8 * ceilIDiv a block * ceilIDiv a (8 * ceilIDiv a block) ≤
      8 * ceilIDiv b block * ceilIDiv b (8 * ceilIDiv b block) := by
  have count : 0 < ceilIDiv a block := by
    have := le_mul_ceilIDiv a positive
    exact pos_of_ne_zero (fun none => by rw [none] at this; omega)
  have counts := ceilIDiv_mono block le
  rcases Nat.eq_or_lt_of_le counts with same | more
  · rw [← same]
    exact Nat.mul_le_mul_left _ (ceilIDiv_mono _ le)
  have up := mul_ceilIDiv_le (Nat.mul_pos (by decide) count) (Nat.mul_dvd_mul_right bytes _)
    (le_mul_ceilIDiv a positive)
  have full : block * ceilIDiv a block ≤ b := by
    have := mul_ceilIDiv_lt b positive
    have := Nat.mul_le_mul_left block more
    rw [Nat.mul_succ] at this
    omega
  exact up.trans (full.trans (le_mul_ceilIDiv b (Nat.mul_pos (by decide) (count.trans_le counts))))

theorem largeTbs_mono (r : Nat) {a b : Nat} (le : a ≤ b) : largeTbs r a ≤ largeTbs r b := by
  have rounded := rounds_nearest.scaled 0 5 (Nat.sub_le_sub_right le 24)
  simp only [Nat.zero_max] at rounded
  simp only [largeTbs]
  generalize roundIDiv (a - 24) _ * _ = first at rounded ⊢
  generalize roundIDiv (b - 24) _ * _ = second at rounded ⊢
  have grown : max 3840 first + 24 ≤ max 3840 second + 24 := by omega
  have few := @segmented_mono 3816 _ _ (by decide) (by decide) (by omega) grown
  have many := @segmented_mono 8424 _ _ (by decide) (by decide) (by omega) grown
  have single := Nat.mul_le_mul_left 8 (ceilIDiv_mono 8 grown)
  have upper := mul_ceilIDiv_lt (max 3840 first + 24) (b := 8) (by decide)
  have lower := (segmented_bounds (max 3840 second) 8424 (by decide)).1
  split
  · exact Nat.sub_le_sub_right few 24
  split
  · rw [if_pos (by omega)]
    exact Nat.sub_le_sub_right many 24
  · split
    · omega
    · exact Nat.sub_le_sub_right single 24

theorem firstFit_mono {table : List Nat} (sorted : table.Pairwise (· ≤ ·)) {a b last : Nat} (le : a ≤ b)
    (member : last ∈ table) (fits : b ≤ last) :
    (table.find? (fun size => a ≤ size)).getD 0 ≤ (table.find? (fun size => b ≤ size)).getD 0 := by
  induction table with
  | nil => cases member
  | cons size rest ih =>
    obtain ⟨first, later⟩ := pairwise_cons.mp sorted
    by_cases large : b ≤ size
    · simp [large, le.trans large]
    have behind : last ∈ rest := (mem_cons.mp member).resolve_left (by rintro rfl; exact large fits)
    by_cases here : a ≤ size
    · have some : (rest.find? (fun size => b ≤ size)).isSome := find?_isSome.mpr ⟨last, behind, by simpa⟩
      obtain ⟨found, same⟩ := Option.isSome_iff_exists.mp some
      simpa [large, here, same] using first found (mem_of_find?_eq_some same)
    · simpa [large, here] using ih later behind

theorem smallTbs_mono {a b : Nat} (le : a ≤ b) (small : b ≤ nrMaxPdschTbs) : smallTbs a ≤ smallTbs b := by
  have rounded := rounds_down.scaled 3 6 le
  have bound := (Nat.div_mul_le_self b (2 ^ max 3 (b.log2 - 6))).trans small
  apply firstFit_mono (by decide) (max_le_max_left 24 rounded) (show 3824 ∈ tbsTableNr by decide)
  exact max_le (by decide) bound

theorem tbs_mono (r : Nat) {a b : Nat} (le : a ≤ b) :
    (if a ≤ nrMaxPdschTbs then smallTbs a else largeTbs r a) ≤
      if b ≤ nrMaxPdschTbs then smallTbs b else largeTbs r b := by
  by_cases small : b ≤ nrMaxPdschTbs
  · rw [if_pos (le.trans small), if_pos small]
    exact smallTbs_mono le small
  split_ifs with first
  · have least : 3824 ≤ largeTbs r 0 := by
      simp only [largeTbs]
      split <;> decide
    exact (smallTbs_bounds first).2.trans (least.trans (largeTbs_mono r (Nat.zero_le b)))
  · exact largeTbs_mono r le

namespace TbsParams

variable {params : TbsParams} {bytes nbRbMin nbRbMax : Nat}

/-- The bits of a resource block, in units of 2^-11 bits. -/
def perRb (params : TbsParams) : Nat :=
  min 156 ((12 * params.nbSymbSch - params.nbDmrsPrb : Int) % 2 ^ 32).toNat * (params.r / 5) * params.qm *
    params.nrOfLayers

theorem nInfo_eq (params : TbsParams) (nbRb : Nat) :
    params.nInfo nbRb 0 0 = params.perRb * nbRb % 2 ^ 32 / 2 ^ 11 := by
  unfold nInfo perRb
  generalize params.r / 5 = rate
  rw [pow_zero, Nat.div_one, Nat.cast_zero, sub_zero]
  generalize min 156 _ = re
  congr 1
  calc re * nbRb % 2 ^ 32 * rate * params.qm * params.nrOfLayers % 2 ^ 32
      = re * nbRb % 2 ^ 32 * (rate * params.qm * params.nrOfLayers) % 2 ^ 32 := by
        rw [mul_assoc, mul_assoc, mul_assoc]
    _ = re * nbRb * (rate * params.qm * params.nrOfLayers) % 2 ^ 32 := Nat.mod_mul_mod _ _ _
    _ = re * rate * params.qm * params.nrOfLayers * nbRb % 2 ^ 32 := by ring_nf

def Grows (params : TbsParams) (top : Nat) : Prop := ∀ a b, a ≤ b → b ≤ top → params.tbs a ≤ params.tbs b

theorem grows (narrow : params.perRb * nbRbMax < 2 ^ 32) : params.Grows nbRbMax := by
  intro a b le top
  have last := Nat.mul_le_mul_left params.perRb top
  have grown := Nat.mul_le_mul_left params.perRb le
  apply Nat.div_le_div_right
  apply tbs_mono
  rw [nInfo_eq, nInfo_eq, Nat.mod_eq_of_lt (by omega), Nat.mod_eq_of_lt (by omega)]
  exact Nat.div_le_div_right grown

end TbsParams

variable {params : TbsParams} {bytes nbRbMin nbRbMax : Nat}

theorem searchNbRb_least {top : Nat} (grows : params.Grows top) {fuel lo hi : Nat} (enough : hi - lo ≤ fuel)
    (proper : lo < hi) (inside : hi ≤ top) (below : params.tbs lo < bytes) (above : bytes ≤ params.tbs hi) :
    bytes ≤ params.tbs (searchNbRb params false bytes fuel lo hi) ∧
      ∀ rb ≤ top, bytes ≤ params.tbs rb → params.tbs (searchNbRb params false bytes fuel lo hi) ≤ params.tbs rb := by
  induction fuel generalizing lo hi with
  | zero => omega
  | succ fuel ih =>
    simp only [searchNbRb, raiseToAllowed_false]
    split
    · rw [if_neg (by omega)]
      split
      · rename_i same
        rw [← same]
        exact ⟨le_refl bytes, fun _ _ => id⟩
      · split
        · exact ih (by omega) (by omega) (by omega) below (by omega)
        · exact ih (by omega) (by omega) inside (by omega) above
    · refine ⟨above, fun rb le fits => grows hi rb ?_ le⟩
      -- up to `lo` no size is enough
      by_contra early
      have := grows rb lo (by omega) (by omega)
      omega

structure NbRb.Exact (params : TbsParams) (bytes nbRbMin nbRbMax : Nat) (answer : NbRb) : Prop where
  fits : answer.fits = true ↔ bytes ≤ params.tbs nbRbMax
  inside : answer.fits = true → nbRbMin ≤ answer.nbRb ∧ answer.nbRb ≤ nbRbMax
  tbs : answer.tbs = params.tbs answer.nbRb
  enough : answer.fits = true → bytes ≤ answer.tbs
  least : answer.fits = true → ∀ rb, nbRbMin ≤ rb → rb ≤ nbRbMax → bytes ≤ params.tbs rb → answer.tbs ≤ params.tbs rb
  most : answer.fits = false → answer.nbRb = nbRbMax

theorem nrFindNbRb_exact (grows : params.Grows nbRbMax) (le : nbRbMin ≤ nbRbMax) :
    (nrFindNbRb params false bytes nbRbMin nbRbMax).Exact params bytes nbRbMin nbRbMax := by
  have size := nrFindNbRb_tbs params false bytes nbRbMin nbRbMax
  simp only [nrFindNbRb, lowerToAllowed_false] at size ⊢
  split
  · exact ⟨by simp; omega, by simp, rfl, by simp, by simp, fun _ => rfl⟩
  split
  · rename_i same
    refine ⟨by simp; omega, fun _ => ⟨le, le_refl _⟩, rfl, fun _ => same.le, ?_, by simp⟩
    exact fun _ rb _ _ fits => same ▸ fits
  split
  · rename_i small
    refine ⟨by simp; omega, fun _ => ⟨le_refl _, le⟩, rfl, fun _ => small, ?_, by simp⟩
    exact fun _ rb above top _ => grows nbRbMin rb above top
  have proper : nbRbMin < nbRbMax := Nat.lt_of_le_of_ne le (by rintro rfl; omega)
  obtain ⟨low, high⟩ := searchNbRb_bounds params bytes nbRbMax nbRbMin nbRbMax proper
  obtain ⟨enough, least⟩ := @searchNbRb_least params bytes nbRbMax grows nbRbMax nbRbMin nbRbMax (by omega)
    proper (le_refl _) (by omega) (by omega)
  refine ⟨by simp; omega, fun _ => ⟨low.le, high⟩, rfl, fun _ => enough,
    fun _ rb _ top => least rb top, by simp [enough, high]⟩

theorem tbs_drops (small : params.perRb < 2 ^ 30) (wide : 2 ^ 32 ≤ params.perRb * nbRbMax) :
    ∃ rb, 1 ≤ rb ∧ rb < nbRbMax ∧ params.tbs (rb + 1) < params.tbs rb := by
  have positive : 0 < params.perRb := pos_of_ne_zero (fun none => by rw [none] at wide; omega)
  generalize last : (2 ^ 32 - 1) / params.perRb = rb
  have low : params.perRb * rb < 2 ^ 32 := by
    have := Nat.mul_div_le (2 ^ 32 - 1) params.perRb
    rw [last] at this
    omega
  have high : 2 ^ 32 ≤ params.perRb * (rb + 1) := by
    have := Nat.lt_mul_div_succ (2 ^ 32 - 1) positive
    rw [last] at this
    omega
  have next : params.perRb * (rb + 1) = params.perRb * rb + params.perRb := Nat.mul_succ _ _
  have drop : largeTbs params.r (2 ^ 19) / 8 < largeTbs params.r (3 * 2 ^ 19) / 8 := by
    simp only [largeTbs]
    split <;> decide
  refine ⟨rb, ?_, Nat.lt_of_mul_lt_mul_left (low.trans_le wide), ?_⟩
  · rw [← last]
    exact (Nat.le_div_iff_mul_le positive).mpr (by omega)
  · have before := @tbs_mono params.r (3 * 2 ^ 19) (params.nInfo rb 0 0) (by rw [TbsParams.nInfo_eq]; omega)
    have behind := @tbs_mono params.r (params.nInfo (rb + 1) 0 0) (2 ^ 19) (by rw [TbsParams.nInfo_eq]; omega)
    exact (Nat.div_le_div_right behind).trans_lt (drop.trans_le (Nat.div_le_div_right before))

/-- Without transform precoding the search is exact as long as the bits of a resource block times the
maximum stay in 32 bits; for less than 2^30 units per resource block only then. -/
theorem nr_find_nb_rb_exact (params : TbsParams) (nbRbMax : Nat) :
    (params.perRb * nbRbMax < 2 ^ 32 → ∀ bytes nbRbMin, 1 ≤ nbRbMin → nbRbMin ≤ nbRbMax →
      (nrFindNbRb params false bytes nbRbMin nbRbMax).Exact params bytes nbRbMin nbRbMax) ∧
    (params.perRb < 2 ^ 30 → 2 ^ 32 ≤ params.perRb * nbRbMax → ∃ bytes nbRbMin, 1 ≤ nbRbMin ∧ nbRbMin ≤ nbRbMax ∧
      ¬ (nrFindNbRb params false bytes nbRbMin nbRbMax).Exact params bytes nbRbMin nbRbMax) := by
  refine ⟨fun narrow bytes nbRbMin _ le => nrFindNbRb_exact (TbsParams.grows narrow) le, fun small wide => ?_⟩
  obtain ⟨rb, positive, inside, drops⟩ := tbs_drops small wide
  have three := params.three_le_tbs nbRbMax
  -- the minimum is `rb`, which is enough for what a larger number serves with less
  have early {bytes : Nat} (less : bytes < params.tbs nbRbMax) (fits : bytes ≤ params.tbs rb) :
      nrFindNbRb params false bytes rb nbRbMax = ⟨true, params.tbs rb, rb⟩ := by
    simp [nrFindNbRb, not_lt.mpr less.le, less.ne, fits]
  by_cases last : params.tbs (rb + 1) < params.tbs nbRbMax
  · refine ⟨params.tbs (rb + 1), rb, positive, inside.le, fun exact => ?_⟩
    rw [early last drops.le] at exact
    exact absurd (exact.least rfl (rb + 1) (by omega) inside (le_refl _)) (not_le.mpr drops)
  refine ⟨params.tbs nbRbMax - 1, rb, positive, inside.le, fun exact => ?_⟩
  rw [early (by omega) (by omega)] at exact
  have := exact.least rfl nbRbMax inside.le (le_refl _) (by omega)
  dsimp only at this
  omega

/-- With 8 layers of 256QAM at the highest code rate 275 resource blocks carry less than 226. -/
theorem nr_find_nb_rb_overflows :
    ¬ (nrFindNbRb ⟨8, 9480, 8, 14, 12⟩ false 1000 226 275).Exact ⟨8, 9480, 8, 14, 12⟩ 1000 226 275 := by
  intro exact
  have least := exact.least (by decide) 275
  revert least
  decide

end OranSlice.Mac
