import OranSlice.Mac.DlShares

/-! Reservations of the slices: what is kept free for slices served later in the slot,
and when the resource blocks used exceed those there are. -/

namespace OranSlice.Mac

open SlSched List

variable {κ : Type}

def reserved (n : Int) (entries : List SlSched) : Int :=
  (entries.map (fun entry => ratioPrbs n entry.sl.spolicy.minRatio)).sum

def firstLimit (n : Int) (first : SlSched) (rest : List SlSched) : Int :=
  min (first.maxPrbs - reserved n rest) (ratioPrbs n first.sl.spolicy.maxRatio)

/-- The share a slice is promised: its minimum ratio, but no more than its maximum ratio. -/
def promisedShare (n : Int) (policy : SlicePrbPolicy) : Int :=
  min (n * policy.minRatio.toNat / 100) (n * policy.maxRatio.toNat / 100)

def SliceCall.KeepsShare (n : Int) (call : SliceCall) : Prop :=
  promisedShare n call.entry.sl.spolicy ≤ call.entry.maxPrbs

def headNeed (n : Int) : List SlSched → Int
  | [] => 0
  | entry :: rest => promisedShare n entry.sl.spolicy + reserved n rest

@[simp] theorem reserved_nil (n : Int) : reserved n [] = 0 := rfl

@[simp] theorem reserved_cons (n : Int) (entry : SlSched) (rest : List SlSched) :
    reserved n (entry :: rest) = ratioPrbs n entry.sl.spolicy.minRatio + reserved n rest := by
  simp [reserved]

variable {n total : Int} {sid : Nat} {others served later rest : List SlSched} {entry limited first : SlSched}
  {s : DlState κ} {cell : DlCell κ} {p : PfState κ}

theorem reserved_nonneg (nonneg : 0 ≤ n) (entries : List SlSched) : 0 ≤ reserved n entries := by
  induction entries with
  | nil => simp
  | cons entry rest ih =>
    have here := ratioPrbs_nonneg nonneg entry.sl.spolicy.minRatio
    rw [reserved_cons]
    omega

theorem promisedShare_eq (nonneg : 0 ≤ n) (policy : SlicePrbPolicy) :
    promisedShare n policy = min (ratioPrbs n policy.minRatio) (ratioPrbs n policy.maxRatio) := by
  rw [promisedShare, ratioPrbs_eq_div nonneg, ratioPrbs_eq_div nonneg]

theorem headNeed_le_reserved (nonneg : 0 ≤ n) (entries : List SlSched) :
    headNeed n entries ≤ reserved n entries := by
  cases entries with
  | nil => exact le_refl 0
  | cons entry rest =>
    rw [headNeed, promisedShare_eq nonneg, reserved_cons]
    omega

theorem reserved_le (nonneg : 0 ≤ n) (entries : List SlSched)
    (policy : totalMinRatio (entries.map sl) ≤ 100) : reserved n entries ≤ n := by
  have hundredth : 100 * reserved n entries ≤ n * totalMinRatio (entries.map sl) := by
    clear policy
    induction entries with
    | nil => simp
    | cons entry rest ih =>
      have here : 100 * ratioPrbs n entry.sl.spolicy.minRatio ≤
          n * entry.sl.spolicy.minRatio.toNat := by
        rw [ratioPrbs_eq_div nonneg]
        omega
      rw [reserved_cons, map_cons, totalMinRatio_cons, Int.natCast_add, Int.mul_add, Int.mul_add]
      omega
  have scaled : n * (totalMinRatio (entries.map sl) : Int) ≤ n * 100 :=
    Int.mul_le_mul_of_nonneg_left (by omega) nonneg
  omega

theorem limited_maxPrbs (n : Int) (others : List SlSched) (entry : SlSched) :
    (entry.limited n others).maxPrbs = min (entry.maxPrbs - otherPrbs entry.sl.sid others)
        (ratioPrbs n entry.sl.spolicy.maxRatio) := by
  unfold limited
  dsimp only
  split <;> omega

theorem otherPrbs_eq (apart : ∀ other ∈ others, other.sl.sid ≠ sid) :
    otherPrbs sid others = (others.map minPrbs).sum := by
  rw [otherPrbs, filter_eq_self.mpr fun other member => by simpa using apart other member]

theorem initLimits_minPrbs_sum (n : Int) (entries : List SlSched) :
    ((entries.map (initLimits n)).map minPrbs).sum = reserved n entries := by
  rw [map_map]
  rfl

structure LoopHead (n : Int) (served : List SlSched) (total : Int) (later : List SlSched)
    (s : DlState κ) : Prop where
  used : (served.map minPrbs).sum = total
  distinct : ((served ++ later).map (fun entry => entry.sl.sid)).Nodup
  counter : s.nRbSched = n - total

theorem LoopHead.limit (head : LoopHead n served total (entry :: later) s) :
    ((entry.initLimits n).limited n (served ++ later.map (initLimits n))).maxPrbs =
      min (n - (total + reserved n later)) (ratioPrbs n entry.sl.spolicy.maxRatio) := by
  have distinct := head.distinct
  rw [map_append, map_cons, nodup_middle, nodup_cons] at distinct
  have apart : ∀ other ∈ served ++ later.map (initLimits n),
      other.sl.sid ≠ (entry.initLimits n).sl.sid := by
    intro other member same
    refine distinct.1 ?_
    rw [mem_append] at member ⊢
    rcases member with inServed | inLater
    · exact .inl (mem_map.mpr ⟨other, inServed, same⟩)
    · obtain ⟨raw, inside, rfl⟩ := mem_map.mp inLater
      exact .inr (mem_map.mpr ⟨raw, inside, same⟩)
  rw [limited_maxPrbs, otherPrbs_eq apart, map_append, sum_append, head.used, initLimits_minPrbs_sum]
  rfl

theorem LoopHead.next (head : LoopHead n served total (entry :: later) s) (same : limited.sl = entry.sl)
    (result : PfResult cell limited s p) :
    LoopHead n (served ++ [{ limited with minPrbs := p.nRbSchedS }]) (total + p.nRbSchedS) later
      (p.close limited) := by
  refine ⟨?_, ?_, ?_⟩
  · simp [head.used]
  · have distinct := head.distinct
    simpa [same] using distinct
  · have counter := result.counter
    have before := head.counter
    simp only [PfState.close]
    omega

theorem LoopHead.used_le (head : LoopHead n served total (entry :: later) s) (result : PfResult cell
      ((entry.initLimits n).limited n (served ++ later.map (initLimits n))) s p) :
    p.nRbSchedS = 0 ∨ total + p.nRbSchedS + reserved n later ≤ n := by
  rcases result.within with none | some
  · exact .inl none
  · have limit := head.limit
    omega

theorem sliceTurns_no_violation (cell : DlCell κ) (nonneg : 0 ≤ n) (later : List SlSched)
    (head : LoopHead n served total later s) (bound : total ≤ n) :
    (sliceTurns cell n served total (later.map (initLimits n)) s).reason? ≠ some .prbViolation := by
  induction later generalizing served total s with
  | nil => simp [sliceTurns]
  | cons entry later ih =>
    obtain ⟨p, result, round⟩ := sliceTurns_cases cell n served total (entry.initLimits n)
      (later.map (initLimits n)) s
    have used := head.used_le result
    have others := reserved_nonneg nonneg later
    rw [map_cons]
    rcases round with ⟨reason, other, _, stopped⟩ | ⟨_, exceeded, _⟩ | ⟨_, within, goes⟩
    · rw [stopped]
      simpa using other
    · omega
    · rw [goes]
      exact ih (head.next rfl result) within

theorem sliceTurns_keeps_shares (cell : DlCell κ) (nonneg : 0 ≤ n) (later : List SlSched)
    (head : LoopHead n served total later s) (kept : total + headNeed n later ≤ n) :
    ∀ call ∈ (sliceTurns cell n served total (later.map (initLimits n)) s).state.calls,
      call ∈ s.calls ∨ call.KeepsShare n := by
  induction later generalizing served total s with
  | nil => exact fun call member => .inl member
  | cons entry later ih =>
    obtain ⟨p, result, round⟩ := sliceTurns_cases cell n served total (entry.initLimits n)
      (later.map (initLimits n)) s
    have used := head.used_le result
    have limit := head.limit
    have promised := promisedShare_eq nonneg entry.sl.spolicy
    rw [headNeed] at kept
    generalize limitedIs : (entry.initLimits n).limited n
      (served ++ later.map (initLimits n)) = limited at result round used limit
    have slice : limited.sl = entry.sl := by rw [← limitedIs]; rfl
    have now : ∀ call ∈ (p.close limited).calls, call ∈ s.calls ∨ call.KeepsShare n := by
      intro call member
      simp only [PfState.close, result.calls, mem_append, mem_singleton] at member
      refine member.imp_right ?_
      rintro rfl
      change promisedShare n limited.sl.spolicy ≤ limited.maxPrbs
      rw [slice]
      omega
    rw [map_cons]
    rcases round with ⟨reason, _, _, stopped⟩ | ⟨_, _, stopped⟩ | ⟨_, within, goes⟩
    · rw [stopped]
      exact now
    · rw [stopped]
      exact now
    · rw [goes]
      intro call member
      have minimum := ratioPrbs_nonneg nonneg entry.sl.spolicy.minRatio
      have maximum := ratioPrbs_nonneg nonneg entry.sl.spolicy.maxRatio
      have need := headNeed_le_reserved nonneg later
      rcases ih (head.next slice result) (by omega) call member with earlier | keeps
      · exact now call earlier
      · exact .inr keeps

theorem first_limit (distinct : ((first :: rest).map (fun entry => entry.sl.sid)).Nodup) :
    (first.limited n ([] ++ rest.map (initLimits n))).maxPrbs = firstLimit n first rest := by
  have apart : ∀ other ∈ [] ++ rest.map (initLimits n), other.sl.sid ≠ first.sl.sid := by
    intro other member same
    obtain ⟨raw, inside, rfl⟩ := mem_map.mp member
    exact (nodup_cons.mp distinct).1 (mem_map.mpr ⟨raw, inside, same⟩)
  rw [limited_maxPrbs, otherPrbs_eq apart, nil_append, initLimits_minPrbs_sum]
  rfl

theorem first_next
    (distinct : ((first :: rest).map (fun entry => entry.sl.sid)).Nodup) (counter : s.nRbSched = n)
    (same : limited.sl = first.sl) (result : PfResult cell limited s p) :
    LoopHead n ([] ++ [{ limited with minPrbs := p.nRbSchedS }]) (0 + p.nRbSchedS) rest
      (p.close limited) := by
  refine ⟨by simp, by simpa [same] using distinct, ?_⟩
  have after := result.counter
  simp only [PfState.close]
  omega

end OranSlice.Mac
