import OranSlice.Mac.RbSearch

/-! The search for a number of resource blocks with transform precoding: only numbers 2^a * 3^b * 5^c
are admissible, and the test for them does not return for 0. -/

namespace OranSlice.Mac

variable {params : TbsParams} {bytes nbRbMin nbRbMax d fuel rb : Nat}

/-- `while (rb % d == 0) rb /= d`, or `none` if the fuel is used up. -/
def stripLoop (d : Nat) : Nat → Nat → Option Nat
  | 0, _ => none
  | fuel + 1, rb => if rb % d = 0 then stripLoop d fuel (rb / d) else some rb

def multiple235Loop (fuel rb : Nat) : Option Bool :=
  ((stripLoop 2 fuel rb).bind (stripLoop 3 fuel)).bind (stripLoop 5 fuel) |>.map (· == 1)

def lowerLoop : Nat → Nat → Option Nat
  | 0, _ => none
  | fuel + 1, rb => (multiple235Loop fuel rb).bind (fun ok => if ok then some rb else lowerLoop fuel (rb - 1))

def raiseLoop : Nat → Nat → Option Nat
  | 0, _ => none
  | fuel + 1, rb => (multiple235Loop fuel rb).bind (fun ok => if ok then some rb else raiseLoop fuel (rb + 1))

def searchLoop (params : TbsParams) (bytes : Nat) : Nat → Nat → Nat → Option Nat
  | 0, _, _ => none
  | fuel + 1, lo, hi =>
    if lo + 1 < hi then
      (raiseLoop fuel ((hi + lo) / 2)).bind (fun p =>
        if p = hi then some hi
        else if bytes = params.tbs p then some p
        else if bytes < params.tbs p then searchLoop params bytes fuel lo p
        else searchLoop params bytes fuel p hi)
    else some hi

def findNbRbLoop (params : TbsParams) (bytes nbRbMin nbRbMax fuel : Nat) : Option NbRb :=
  (lowerLoop fuel nbRbMax).bind (fun nbRbMax =>
    if params.tbs nbRbMax < bytes then some ⟨false, params.tbs nbRbMax, nbRbMax⟩
    else if bytes = params.tbs nbRbMax then some ⟨true, params.tbs nbRbMax, nbRbMax⟩
    else if bytes ≤ params.tbs nbRbMin then some ⟨true, params.tbs nbRbMin, nbRbMin⟩
    else (searchLoop params bytes fuel nbRbMin nbRbMax).map (fun hi =>
      ⟨bytes ≤ params.tbs hi && hi ≤ nbRbMax, params.tbs hi, hi⟩))

def DftSize (rb : Nat) : Prop := ∃ a b c, rb = 2 ^ a * 3 ^ b * 5 ^ c

theorem stripLoop_eq (prime : 1 < d) (positive : 0 < rb) (enough : rb < fuel) :
    ∃ count rest, rb = d ^ count * rest ∧ ¬ d ∣ rest ∧ stripLoop d fuel rb = some rest := by
  induction fuel generalizing rb with
  | zero => omega
  | succ fuel ih =>
    unfold stripLoop
    split
    · rename_i divides
      have divides := Nat.dvd_of_mod_eq_zero divides
      have less := Nat.div_lt_self positive prime
      obtain ⟨count, rest, whole, left, stripped⟩ := ih (Nat.div_pos (Nat.le_of_dvd positive divides) (by omega))
        (by omega)
      refine ⟨count + 1, rest, ?_, left, stripped⟩
      rw [pow_succ', mul_assoc, ← whole, Nat.mul_div_cancel' divides]
    · rename_i whole
      exact ⟨0, rb, by simp, fun divides => whole (Nat.mod_eq_zero_of_dvd divides), rfl⟩

theorem multiple235Loop_eq (positive : 0 < rb) (enough : rb < fuel) :
    ∃ answer, multiple235Loop fuel rb = some answer ∧ (answer = true ↔ DftSize rb) := by
  obtain ⟨a, odd, whole, notTwo, two⟩ := @stripLoop_eq 2 fuel rb (by decide) positive enough
  have oddDvd : odd ∣ rb := ⟨_, whole.trans (mul_comm _ _)⟩
  have oddLe := Nat.le_of_dvd positive oddDvd
  obtain ⟨b, next, oddWhole, notThree, three⟩ := @stripLoop_eq 3 fuel odd (by decide)
    (Nat.pos_of_dvd_of_pos oddDvd positive) (by omega)
  have nextDvd : next ∣ odd := ⟨_, oddWhole.trans (mul_comm _ _)⟩
  have nextLe := Nat.le_of_dvd positive (nextDvd.trans oddDvd)
  obtain ⟨c, rest, nextWhole, notFive, five⟩ := @stripLoop_eq 5 fuel next (by decide)
    (Nat.pos_of_dvd_of_pos (nextDvd.trans oddDvd) positive) (by omega)
  have restDvd : rest ∣ next := ⟨_, nextWhole.trans (mul_comm _ _)⟩
  refine ⟨rest == 1, by simp [multiple235Loop, two, three, five], ?_⟩
  rw [beq_iff_eq]
  constructor
  · rintro rfl
    exact ⟨a, b, c, by rw [whole, oddWhole, nextWhole, mul_one, mul_assoc]⟩
  · rintro ⟨a', b', c', same⟩
    have apart {p : Nat} (prime : p.Prime) (none : ¬ p ∣ rest) (count : Nat) : rest.Coprime (p ^ count) :=
      (((Nat.Prime.coprime_iff_not_dvd prime).mpr none).pow_left count).symm
    have whole : rest ∣ 2 ^ a' * 3 ^ b' * 5 ^ c' := same ▸ restDvd.trans (nextDvd.trans oddDvd)
    have left := (apart Nat.prime_five notFive c').dvd_of_dvd_mul_right whole
    have left := (apart Nat.prime_three (fun d => notThree (d.trans restDvd)) b').dvd_of_dvd_mul_right left
    exact (apart Nat.prime_two (fun d => notTwo (d.trans (restDvd.trans nextDvd))) a').eq_one_of_dvd left

theorem lowerLoop_eq (positive : 0 < rb) (enough : rb + 1 < fuel) :
    ∃ most, lowerLoop fuel rb = some most ∧ DftSize most ∧ most ≤ rb ∧ ∀ size ≤ rb, DftSize size → size ≤ most := by
  induction fuel generalizing rb with
  | zero => omega
  | succ fuel ih =>
    obtain ⟨answer, tested, ok⟩ := @multiple235Loop_eq fuel rb positive (by omega)
    rw [lowerLoop, tested, Option.bind_some]
    by_cases size : DftSize rb
    · rw [if_pos (ok.mpr size)]
      exact ⟨rb, rfl, size, le_refl rb, fun _ le _ => le⟩
    rw [if_neg (mt ok.mp size)]
    have other : rb ≠ 1 := by
      rintro rfl
      exact size ⟨0, 0, 0, rfl⟩
    obtain ⟨most, lowered, isSize, le, largest⟩ := @ih (rb - 1) (by omega) (by omega)
    refine ⟨most, lowered, isSize, by omega, fun other below isOther => largest other ?_ isOther⟩
    have : other ≠ rb := by
      rintro rfl
      exact size isOther
    omega

theorem raiseLoop_eq {hi : Nat} (size : DftSize hi) (positive : 0 < rb) (le : rb ≤ hi)
    (enough : hi + (hi - rb) + 1 < fuel) : ∃ p, raiseLoop fuel rb = some p ∧ DftSize p ∧ rb ≤ p ∧ p ≤ hi := by
  induction fuel generalizing rb with
  | zero => omega
  | succ fuel ih =>
    obtain ⟨answer, tested, ok⟩ := @multiple235Loop_eq fuel rb positive (by omega)
    rw [raiseLoop, tested, Option.bind_some]
    by_cases here : DftSize rb
    · rw [if_pos (ok.mpr here)]
      exact ⟨rb, rfl, here, le_refl rb, le⟩
    rw [if_neg (mt ok.mp here)]
    have other : rb ≠ hi := by
      rintro rfl
      exact here size
    obtain ⟨p, raised, isSize, above, below⟩ := @ih (rb + 1) (by omega) (by omega) (by omega)
    exact ⟨p, raised, isSize, by omega, below⟩

theorem searchLoop_eq {lo hi : Nat} (size : DftSize hi) (above : bytes ≤ params.tbs hi)
    (enough : 2 * hi + 2 + (hi - lo) < fuel) :
    ∃ found, searchLoop params bytes fuel lo hi = some found ∧ DftSize found ∧ found ≤ hi ∧
      bytes ≤ params.tbs found := by
  induction fuel generalizing lo hi with
  | zero => omega
  | succ fuel ih =>
    unfold searchLoop
    split
    · obtain ⟨p, raised, isSize, low, high⟩ := @raiseLoop_eq fuel ((hi + lo) / 2) hi size (by omega) (by omega)
        (by omega)
      rw [raised, Option.bind_some]
      split
      · exact ⟨hi, rfl, size, le_refl hi, above⟩
      split
      · rename_i same
        exact ⟨p, rfl, isSize, high, same.le⟩
      split_ifs with more
      · obtain ⟨found, searched, isFound, le, fits⟩ := @ih lo p isSize more.le (by omega)
        exact ⟨found, searched, isFound, le.trans high, fits⟩
      · exact ih size above (by omega)
    · exact ⟨hi, rfl, size, le_refl hi, above⟩

structure NbRb.Admissible (params : TbsParams) (bytes nbRbMax : Nat) (answer : NbRb) : Prop where
  size : DftSize answer.nbRb
  le : answer.nbRb ≤ nbRbMax
  fits : answer.fits = true ↔ ∃ rb ≤ nbRbMax, DftSize rb ∧ bytes ≤ params.tbs rb

/-- What an answer depends on, with `most` as the maximum that was lowered to a DFT size. -/
structure TbsParams.Settled (params : TbsParams) (bytes nbRbMin most : Nat) : Prop where
  minimum : bytes < params.tbs most → bytes ≤ params.tbs nbRbMin → DftSize nbRbMin ∧ nbRbMin ≤ most
  narrow : params.tbs most < bytes →
    params.perRb * most < 2 ^ 32 ∨ ∀ rb ≤ most, DftSize rb → params.tbs rb < bytes

theorem findNbRbLoop_admissible_iff {most : Nat} (positive : 0 < nbRbMax)
    (greatest : IsGreatest {rb | DftSize rb ∧ rb ≤ nbRbMax} most) (enough : 3 * nbRbMax + 2 < fuel) :
    (∃ answer, findNbRbLoop params bytes nbRbMin nbRbMax fuel = some answer ∧
      answer.Admissible params bytes nbRbMax) ↔ params.Settled bytes nbRbMin most := by
  obtain ⟨⟨isSize, below⟩, largest⟩ := greatest
  have top : ∀ rb ≤ nbRbMax, DftSize rb → rb ≤ most := fun rb le size => largest ⟨size, le⟩
  obtain ⟨last, lowered, size, le, all⟩ := @lowerLoop_eq fuel nbRbMax positive (by omega)
  obtain rfl : most = last := Nat.le_antisymm (all most below isSize) (top last le size)
  simp only [findNbRbLoop, lowered, Option.bind_some]
  rcases Nat.lt_trichotomy (params.tbs most) bytes with short | rfl | long
  · rw [if_pos short]
    constructor
    · rintro ⟨_, ⟨⟩, admissible⟩
      refine ⟨fun long => absurd long (by omega), fun _ => .inr fun rb inside isRb => ?_⟩
      by_contra fits
      have found := admissible.fits.mpr ⟨rb, inside.trans below, isRb, Nat.le_of_not_lt fits⟩
      cases found
    · intro settled
      refine ⟨_, rfl, isSize, below, nofun, ?_⟩
      rintro ⟨rb, inside, isRb, fits⟩
      have inside := top rb inside isRb
      rcases settled.narrow short with narrow | none
      · have grown := TbsParams.grows narrow rb most inside (le_refl most)
        omega
      · have less := none rb inside isRb
        omega
  · rw [if_neg (lt_irrefl _), if_pos rfl]
    exact ⟨fun _ => ⟨fun long => absurd long (lt_irrefl _), fun short => absurd short (lt_irrefl _)⟩,
      fun _ => ⟨_, rfl, isSize, below, fun _ => ⟨most, below, isSize, le_refl _⟩, fun _ => rfl⟩⟩
  · rw [if_neg (by omega), if_neg (by omega)]
    by_cases least : bytes ≤ params.tbs nbRbMin
    · rw [if_pos least]
      constructor
      · rintro ⟨_, ⟨⟩, admissible⟩
        exact ⟨fun _ _ => ⟨admissible.size, top nbRbMin admissible.le admissible.size⟩,
          fun short => absurd short (by omega)⟩
      · intro settled
        obtain ⟨isMin, inside⟩ := settled.minimum long least
        have inside := inside.trans below
        exact ⟨_, rfl, isMin, inside, fun _ => ⟨nbRbMin, inside, isMin, least⟩, fun _ => rfl⟩
    · rw [if_neg least]
      refine ⟨fun _ => ⟨fun _ fits => absurd fits least, fun short => absurd short (by omega)⟩, fun _ => ?_⟩
      obtain ⟨found, searched, isFound, inside, fits⟩ :=
        @searchLoop_eq params bytes fuel nbRbMin most isSize long.le (by omega)
      rw [searched]
      refine ⟨_, rfl, isFound, inside.trans below, fun _ => ⟨found, inside.trans below, isFound, fits⟩, fun _ => ?_⟩
      simp [fits, inside]

theorem findNbRbLoop_zero : findNbRbLoop params bytes nbRbMin 0 fuel = none := by
  have endless (fuel : Nat) : stripLoop 2 fuel 0 = none := by
    induction fuel with
    | zero => rfl
    | succ fuel ih => exact ih
  cases fuel with
  | zero => rfl
  | succ fuel => simp [findNbRbLoop, lowerLoop, multiple235Loop, endless]

/-- With transform precoding the search ends with an admissible answer exactly when there is a resource
block and the lowered maximum settles the input. -/
theorem nr_find_nb_rb_dft_iff (params : TbsParams) (bytes nbRbMin nbRbMax : Nat) :
    (∃ bound, ∀ fuel ≥ bound, ∃ answer,
      findNbRbLoop params bytes nbRbMin nbRbMax fuel = some answer ∧ answer.Admissible params bytes nbRbMax) ↔
    nbRbMax ≠ 0 ∧ ∃ most, IsGreatest {rb | DftSize rb ∧ rb ≤ nbRbMax} most ∧ params.Settled bytes nbRbMin most := by
  rcases Nat.eq_zero_or_pos nbRbMax with rfl | positive
  · refine ⟨fun ⟨bound, found⟩ => ?_, fun ⟨nonzero, _⟩ => absurd rfl nonzero⟩
    obtain ⟨answer, ran, _⟩ := found bound (le_refl bound)
    rw [findNbRbLoop_zero] at ran
    cases ran
  obtain ⟨most, _, size, le, all⟩ := @lowerLoop_eq (nbRbMax + 2) nbRbMax positive (by omega)
  have greatest : IsGreatest {rb | DftSize rb ∧ rb ≤ nbRbMax} most :=
    ⟨⟨size, le⟩, fun rb ⟨isRb, inside⟩ => all rb inside isRb⟩
  constructor
  · rintro ⟨bound, found⟩
    exact ⟨positive.ne', most, greatest,
      (findNbRbLoop_admissible_iff positive greatest (by omega)).mp (found (bound + 3 * nbRbMax + 3) (by omega))⟩
  · rintro ⟨_, other, greatest, settled⟩
    exact ⟨3 * nbRbMax + 3, fun fuel enough =>
      (findNbRbLoop_admissible_iff positive greatest (by omega)).mpr settled⟩

/-- No resource block is free: the test of 0 divides it by 2 without end. -/
theorem nr_find_nb_rb_dft_endless :
    ¬ ∃ fuel answer, findNbRbLoop ⟨2, 1200, 1, 14, 12⟩ 100 5 0 fuel = some answer := by
  rintro ⟨fuel, answer, ended⟩
  cases findNbRbLoop_zero.symm.trans ended

end OranSlice.Mac
