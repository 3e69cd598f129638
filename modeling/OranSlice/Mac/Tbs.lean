import Mathlib.Tactic

/-! Transport block sizes and the number of resource blocks for a demand. -/

namespace OranSlice.Mac

def tbsTableNr : List Nat :=
  [24, 32, 40, 48, 56, 64, 72, 80, 88, 96, 104, 112, 120, 128, 136, 144, 152, 160, 168, 176, 184, 192, 208, 224,
   240, 256, 272, 288, 304, 320, 336, 352, 368, 384, 408, 432, 456, 480, 504, 528, 552, 576, 608, 640, 672, 704,
   736, 768, 808, 848, 888, 928, 984, 1032, 1064, 1128, 1160, 1192, 1224, 1256, 1288, 1320, 1352, 1416, 1480,
   1544, 1608, 1672, 1736, 1800, 1864, 1928, 2024, 2088, 2152, 2216, 2280, 2408, 2472, 2536, 2600, 2664, 2728,
   2792, 2856, 2976, 3104, 3240, 3368, 3496, 3624, 3752, 3824]

def nrMaxPdschTbs : Nat := 3824

variable (a r : Nat) (transformPrecoding : Bool) (fuel rb nbRbMin : Nat)

def ceilIDiv (b : Nat) : Nat := (a + b - 1) / b

def roundIDiv (b : Nat) : Nat := (2 * a + b) / (2 * b)

structure TbsParams where
  (qm r nrOfLayers nbSymbSch nbDmrsPrb : Nat)
deriving DecidableEq, Repr

variable (params : TbsParams) (nbRb nbRbOh tbScaling : Nat)

/-- The intermediate number of information bits, in the `uint32_t` arithmetic of the
code. -/
def TbsParams.nInfo : Nat :=
  let nbpRe := ((12 * params.nbSymbSch - params.nbDmrsPrb - nbRbOh : Int) % 2 ^ 32).toNat
  let nbRe := (min 156 nbpRe * nbRb) % 2 ^ 32
  (nbRe * (params.r / 5) * params.qm * params.nrOfLayers % 2 ^ 32 / 2 ^ 11) / 2 ^ tbScaling

/-- The size in bits for up to 3824 information bits: the first table entry that holds them. -/
def smallTbs (nInfo : Nat) : Nat :=
  let n := max 3 (Nat.log2 nInfo - 6)
  let npInfo := max 24 (nInfo / 2 ^ n * 2 ^ n)
  (tbsTableNr.find? (fun size => npInfo ≤ size)).getD 0

def largeTbs (nInfo : Nat) : Nat :=
  let n := Nat.log2 (nInfo - 24) - 5
  let npInfo := max 3840 (roundIDiv (nInfo - 24) (2 ^ n) * 2 ^ n)
  if r ≤ 2560 then
    let c := ceilIDiv (npInfo + 24) 3816
    8 * c * ceilIDiv (npInfo + 24) (8 * c) - 24
  else if npInfo > 8424 then
    let c := ceilIDiv (npInfo + 24) 8424
    8 * c * ceilIDiv (npInfo + 24) (8 * c) - 24
  else 8 * ceilIDiv (npInfo + 24) 8 - 24

def nrComputeTbs : Nat :=
  let nInfo := params.nInfo nbRb nbRbOh tbScaling
  if nInfo ≤ nrMaxPdschTbs then smallTbs nInfo else largeTbs params.r nInfo

def TbsParams.tbs (nbRb : Nat) : Nat := nrComputeTbs params nbRb 0 0 / 8

def stripFactor (d : Nat) : Nat → Nat → Nat
  | 0, rb => rb
  | fuel + 1, rb => if rb % d = 0 then stripFactor d fuel (rb / d) else rb

def multiple235 : Bool :=
  stripFactor 5 rb (stripFactor 3 rb (stripFactor 2 rb rb)) == 1

def lowerToAllowed (transformPrecoding : Bool) : Nat → Nat
  | 0 => 0
  | rb + 1 =>
    if transformPrecoding && !multiple235 (rb + 1) then lowerToAllowed transformPrecoding rb
    else rb + 1

def raiseToAllowed (transformPrecoding : Bool) : Nat → Nat → Nat
  | 0, rb => rb
  | fuel + 1, rb =>
    if transformPrecoding && !multiple235 rb then raiseToAllowed transformPrecoding fuel (rb + 1)
    else rb

def searchNbRb (params : TbsParams) (transformPrecoding : Bool) (bytes : Nat) :
    Nat → Nat → Nat → Nat
  | 0, _, hi => hi
  | fuel + 1, lo, hi =>
    if lo + 1 < hi then
      let p := raiseToAllowed transformPrecoding (hi - (hi + lo) / 2) ((hi + lo) / 2)
      if p = hi then hi
      else if bytes = params.tbs p then p
      else if bytes < params.tbs p then searchNbRb params transformPrecoding bytes fuel lo p
      else searchNbRb params transformPrecoding bytes fuel p hi
    else hi

structure NbRb where
  fits : Bool
  (tbs nbRb : Nat)
deriving DecidableEq, Repr

/-- The number of resource blocks for a demand, with two early exits: the maximum is not more than
enough, and the minimum is enough. -/
def nrFindNbRb (transformPrecoding : Bool) (bytes nbRbMin nbRbMax : Nat) :
    NbRb :=
  let nbRbMax := lowerToAllowed transformPrecoding nbRbMax
  if params.tbs nbRbMax < bytes then ⟨false, params.tbs nbRbMax, nbRbMax⟩
  else if bytes = params.tbs nbRbMax then ⟨true, params.tbs nbRbMax, nbRbMax⟩
  else if bytes ≤ params.tbs nbRbMin then ⟨true, params.tbs nbRbMin, nbRbMin⟩
  else
    let hi := searchNbRb params transformPrecoding bytes nbRbMax nbRbMin nbRbMax
    ⟨bytes ≤ params.tbs hi && hi ≤ nbRbMax, params.tbs hi, hi⟩

@[simp] theorem lowerToAllowed_false : lowerToAllowed false rb = rb := by
  cases rb <;> rfl

@[simp] theorem raiseToAllowed_false : raiseToAllowed false fuel rb = rb := by
  cases fuel <;> rfl

theorem lowerToAllowed_le : lowerToAllowed transformPrecoding rb ≤ rb := by
  induction rb with
  | zero => exact le_refl 0
  | succ rb ih =>
    unfold lowerToAllowed
    split
    · exact Nat.le_succ_of_le ih
    · exact le_refl _

theorem raiseToAllowed_le : raiseToAllowed transformPrecoding fuel rb ≤ rb + fuel := by
  induction fuel generalizing rb with
  | zero => exact le_refl rb
  | succ fuel ih =>
    unfold raiseToAllowed
    split
    · have later := ih (rb + 1)
      omega
    · omega

theorem searchNbRb_le (transformPrecoding : Bool) (bytes fuel lo hi : Nat) :
    searchNbRb params transformPrecoding bytes fuel lo hi ≤ hi := by
  induction fuel generalizing lo hi with
  | zero => exact le_refl hi
  | succ fuel ih =>
    have raised := raiseToAllowed_le transformPrecoding (hi - (hi + lo) / 2) ((hi + lo) / 2)
    simp only [searchNbRb]
    generalize raiseToAllowed transformPrecoding _ _ = p at raised ⊢
    have left := ih lo p
    have right := ih p hi
    split_ifs <;> omega

theorem searchNbRb_bounds (bytes fuel lo hi : Nat) (proper : lo < hi) :
    lo < searchNbRb params false bytes fuel lo hi ∧ searchNbRb params false bytes fuel lo hi ≤ hi := by
  induction fuel generalizing lo hi with
  | zero => exact ⟨proper, le_refl hi⟩
  | succ fuel ih =>
    simp only [searchNbRb, raiseToAllowed_false]
    split
    · split
      · omega
      split
      · omega
      split
      · have left := ih lo ((hi + lo) / 2) (by omega)
        omega
      · have right := ih ((hi + lo) / 2) hi (by omega)
        omega
    · omega

theorem searchNbRb_of_le (transformPrecoding : Bool) (bytes fuel lo hi : Nat)
    (narrow : hi ≤ lo + 1) : searchNbRb params transformPrecoding bytes fuel lo hi = hi := by
  cases fuel with
  | zero => rfl
  | succ fuel => simp [searchNbRb, not_lt.mpr narrow]

theorem nrFindNbRb_cases (bytes nbRbMin nbRbMax : Nat) :
    (params.tbs nbRbMax ≤ bytes ∧ (nrFindNbRb params false bytes nbRbMin nbRbMax).nbRb = nbRbMax) ∨
    (bytes < params.tbs nbRbMax ∧ bytes ≤ params.tbs nbRbMin ∧
      (nrFindNbRb params false bytes nbRbMin nbRbMax).nbRb = nbRbMin) ∨
    (bytes < params.tbs nbRbMax ∧ params.tbs nbRbMin < bytes ∧ nbRbMax ≤ nbRbMin ∧
      (nrFindNbRb params false bytes nbRbMin nbRbMax).nbRb = nbRbMax) ∨
    (bytes < params.tbs nbRbMax ∧ params.tbs nbRbMin < bytes ∧
      nbRbMin < (nrFindNbRb params false bytes nbRbMin nbRbMax).nbRb ∧
      (nrFindNbRb params false bytes nbRbMin nbRbMax).nbRb ≤ nbRbMax) := by
  simp only [nrFindNbRb, lowerToAllowed_false]
  split
  · exact .inl ⟨by omega, rfl⟩
  split
  · exact .inl ⟨by omega, rfl⟩
  split
  · exact .inr (.inl ⟨by omega, by omega, rfl⟩)
  by_cases proper : nbRbMin < nbRbMax
  · have bounds := searchNbRb_bounds params bytes nbRbMax nbRbMin nbRbMax proper
    exact .inr (.inr (.inr ⟨by omega, by omega, bounds.1, bounds.2⟩))
  · have stays := searchNbRb_of_le params false bytes nbRbMax nbRbMin nbRbMax (by omega)
    exact .inr (.inr (.inl ⟨by omega, by omega, by omega, stays⟩))

theorem nrFindNbRb_pos (bytes : Nat) {nbRbMin nbRbMax : Nat} (least : 0 < nbRbMin) (most : 0 < nbRbMax) :
    0 < (nrFindNbRb params false bytes nbRbMin nbRbMax).nbRb := by
  have ways := nrFindNbRb_cases params bytes nbRbMin nbRbMax
  omega

theorem nrFindNbRb_le (transformPrecoding : Bool) (bytes nbRbMin nbRbMax : Nat) :
    (nrFindNbRb params transformPrecoding bytes nbRbMin nbRbMax).nbRb ≤ max nbRbMin nbRbMax := by
  have lowered := lowerToAllowed_le transformPrecoding nbRbMax
  have found := searchNbRb_le params transformPrecoding bytes (lowerToAllowed transformPrecoding nbRbMax)
    nbRbMin (lowerToAllowed transformPrecoding nbRbMax)
  simp only [nrFindNbRb]
  split_ifs <;> dsimp only <;> omega

theorem nrFindNbRb_tbs (transformPrecoding : Bool) (bytes nbRbMin nbRbMax : Nat) :
    (nrFindNbRb params transformPrecoding bytes nbRbMin nbRbMax).tbs =
      params.tbs (nrFindNbRb params transformPrecoding bytes nbRbMin nbRbMax).nbRb := by
  simp only [nrFindNbRb]
  split_ifs <;> rfl

variable {params : TbsParams} {bytes nbRbMax nInfo b : Nat}

theorem nrFindNbRb_full (large : params.tbs nbRbMax < bytes) :
    nrFindNbRb params false bytes nbRbMin nbRbMax = ⟨false, params.tbs nbRbMax, nbRbMax⟩ := by
  simp [nrFindNbRb, large]

theorem TbsParams.nInfo_lt (params : TbsParams) (nbRb nbRbOh tbScaling : Nat) :
    params.nInfo nbRb nbRbOh tbScaling < 2 ^ 21 := by
  refine lt_of_le_of_lt (Nat.div_le_self _ _) ?_
  rw [Nat.div_lt_iff_lt_mul (by decide)]
  exact Nat.mod_lt _ (by decide)

theorem smallTbs_bounds (small : nInfo ≤ nrMaxPdschTbs) : 24 ≤ smallTbs nInfo ∧ smallTbs nInfo ≤ 3824 := by
  have rounded : nInfo / 2 ^ max 3 (Nat.log2 nInfo - 6) * 2 ^ max 3 (Nat.log2 nInfo - 6) ≤ 3824 :=
    (Nat.div_mul_le_self _ _).trans small
  have largest : ∀ size ∈ tbsTableNr, size ≤ 3824 := by decide
  simp only [smallTbs]
  generalize nInfo / 2 ^ max 3 (Nat.log2 nInfo - 6) * 2 ^ max 3 (Nat.log2 nInfo - 6) = part at rounded
  cases found : tbsTableNr.find? (fun size => max 24 part ≤ size) with
  | none =>
    have none := List.find?_eq_none.mp found 3824 (by decide)
    simp only [decide_eq_true_eq] at none
    omega
  | some size =>
    have enough := List.find?_some found
    simp only [decide_eq_true_eq] at enough
    have inside := largest size (List.mem_of_find?_eq_some found)
    simp only [Option.getD_some]
    omega

theorem le_mul_ceilIDiv (positive : 0 < b) : a ≤ b * ceilIDiv a b := by
  have rest := Nat.div_add_mod (a + b - 1) b
  have below := Nat.mod_lt (a + b - 1) positive
  unfold ceilIDiv
  omega

theorem mul_ceilIDiv_lt (positive : 0 < b) : b * ceilIDiv a b < a + b := by
  have rest := Nat.div_add_mod (a + b - 1) b
  unfold ceilIDiv
  omega

theorem segmented_bounds (npInfo block : Nat) (positive : 0 < block) :
    npInfo ≤ 8 * ceilIDiv (npInfo + 24) block * ceilIDiv (npInfo + 24) (8 * ceilIDiv (npInfo + 24) block) - 24 ∧
      8 * ceilIDiv (npInfo + 24) block * ceilIDiv (npInfo + 24) (8 * ceilIDiv (npInfo + 24) block) - 24 ≤
      npInfo + 8 * (npInfo + 24 + block) := by
  have blocks := le_mul_ceilIDiv (npInfo + 24) positive
  have few := mul_ceilIDiv_lt (npInfo + 24) positive
  have some : 0 < ceilIDiv (npInfo + 24) block := by
    rcases Nat.eq_zero_or_pos (ceilIDiv (npInfo + 24) block) with none | some
    · rw [none] at blocks
      omega
    · exact some
  have count : ceilIDiv (npInfo + 24) block ≤ block * ceilIDiv (npInfo + 24) block :=
    Nat.le_mul_of_pos_left _ positive
  have lower := le_mul_ceilIDiv (npInfo + 24) (b := 8 * ceilIDiv (npInfo + 24) block) (by omega)
  have upper := mul_ceilIDiv_lt (npInfo + 24) (b := 8 * ceilIDiv (npInfo + 24) block) (by omega)
  omega

theorem largeTbs_bounds (bound : nInfo < 2 ^ 21) : 24 ≤ largeTbs r nInfo ∧ largeTbs r nInfo < 2 ^ 31 := by
  have rounded : roundIDiv (nInfo - 24) (2 ^ (Nat.log2 (nInfo - 24) - 5)) *
      2 ^ (Nat.log2 (nInfo - 24) - 5) ≤ 2 ^ 22 := by
    generalize size : 2 ^ (Nat.log2 (nInfo - 24) - 5) = unit
    have unitBound : unit ≤ 2 ^ 21 := by
      rw [← size]
      refine Nat.pow_le_pow_right (by decide) ?_
      by_cases zero : nInfo - 24 = 0
      · simp [zero]
      · have log := (Nat.log2_lt zero (k := 21)).mpr (by omega)
        omega
    have exact := Nat.div_mul_le_self (2 * (nInfo - 24) + unit) (2 * unit)
    unfold roundIDiv
    have twice : (2 * (nInfo - 24) + unit) / (2 * unit) * (2 * unit) =
        2 * ((2 * (nInfo - 24) + unit) / (2 * unit) * unit) := by
      rw [Nat.mul_left_comm]
    omega
  simp only [largeTbs]
  generalize roundIDiv (nInfo - 24) (2 ^ (Nat.log2 (nInfo - 24) - 5)) *
    2 ^ (Nat.log2 (nInfo - 24) - 5) = part at rounded
  have few := segmented_bounds (max 3840 part) 3816 (by decide)
  have many := segmented_bounds (max 3840 part) 8424 (by decide)
  have single := le_mul_ceilIDiv (max 3840 part + 24) (b := 8) (by decide)
  have tight := mul_ceilIDiv_lt (max 3840 part + 24) (b := 8) (by decide)
  split
  · omega
  · split
    · omega
    · omega

theorem nrComputeTbs_bounds (params : TbsParams) (nbRb nbRbOh tbScaling : Nat) :
    24 ≤ nrComputeTbs params nbRb nbRbOh tbScaling ∧
      nrComputeTbs params nbRb nbRbOh tbScaling < 2 ^ 31 := by
  simp only [nrComputeTbs]
  split_ifs with small
  · have bounds := smallTbs_bounds small
    omega
  · exact largeTbs_bounds _ (params.nInfo_lt nbRb nbRbOh tbScaling)

theorem TbsParams.three_le_tbs (params : TbsParams) (nbRb : Nat) : 3 ≤ params.tbs nbRb := by
  have bounds := nrComputeTbs_bounds params nbRb 0 0
  unfold TbsParams.tbs
  omega

theorem TbsParams.tbs_zero (params : TbsParams) : params.tbs 0 = 3 := by
  have none : params.nInfo 0 0 0 = 0 := by simp [TbsParams.nInfo]
  have least : smallTbs 0 = 24 := by decide
  simp [TbsParams.tbs, nrComputeTbs, none, least]

theorem nrFindNbRb_exact_le (exact : (nrFindNbRb params false bytes 1 nbRbMax).tbs = bytes) :
    (nrFindNbRb params false bytes 1 nbRbMax).nbRb ≤ nbRbMax := by
  have size := nrFindNbRb_tbs params false bytes 1 nbRbMax
  rcases nrFindNbRb_cases params bytes 1 nbRbMax with
    ⟨_, most⟩ | ⟨below, _, one⟩ | ⟨_, _, _, most⟩ | ⟨_, _, _, bound⟩
  · omega
  · rcases Nat.eq_zero_or_pos nbRbMax with empty | positive
    · have least := params.three_le_tbs 1
      rw [empty, params.tbs_zero] at below
      rw [one] at size
      omega
    · omega
  · omega
  · exact bound

theorem TbsParams.tbs_lt (params : TbsParams) (nbRb : Nat) : params.tbs nbRb < 2 ^ 28 := by
  have bounds := nrComputeTbs_bounds params nbRb 0 0
  unfold TbsParams.tbs
  omega

end OranSlice.Mac
