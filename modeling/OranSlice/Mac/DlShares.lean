import OranSlice.Mac.SliceTurns
import OranSlice.Mac.TransportBlock

/-! Slice shares: the limits that `dl_sched_unit` gives to each call of `pf_dl_slice`. -/

namespace OranSlice.Mac

open List

variable {κ : Type}

variable {n : Int} {few many new : List Grant} {entries : List SlSched} {entry : SlSched} {cell : DlCell κ}
  {s t : DlState κ} {input : DlInput κ} {table : SlTable}

theorem ratioPrbs_eq_div (nonneg : 0 ≤ n) (ratio : BitVec 8) : ratioPrbs n ratio = n * ratio.toNat / 100 :=
  Int.tdiv_eq_ediv_of_nonneg (Int.mul_nonneg nonneg (Int.natCast_nonneg _))

theorem ratioPrbs_nonneg (nonneg : 0 ≤ n) (ratio : BitVec 8) : 0 ≤ ratioPrbs n ratio := by
  rw [ratioPrbs_eq_div nonneg]
  exact Int.ediv_nonneg (Int.mul_nonneg nonneg (Int.natCast_nonneg _)) (by decide)

private theorem ratioPrbs_eq_neg_div (negative : n ≤ 0) (ratio : BitVec 8) :
    ratioPrbs n ratio = -(-(n * ratio.toNat) / 100) ∧ n * ratio.toNat ≤ 0 := by
  have product : n * ratio.toNat ≤ 0 := Int.mul_nonpos_of_nonpos_of_nonneg negative (Int.natCast_nonneg _)
  refine ⟨?_, product⟩
  rw [← Int.tdiv_eq_ediv_of_nonneg (by omega), Int.neg_tdiv, neg_neg]
  rfl

theorem div_le_ratioPrbs (n : Int) (ratio : BitVec 8) : n * ratio.toNat / 100 ≤ ratioPrbs n ratio := by
  rcases Int.le_total 0 n with nonneg | negative
  · rw [ratioPrbs_eq_div nonneg]
  · obtain ⟨rounded, product⟩ := ratioPrbs_eq_neg_div negative ratio
    omega

theorem max_ratioPrbs_le (n : Int) (ratio : BitVec 8) :
    max 0 (ratioPrbs n ratio) ≤ max n 0 * ratio.toNat / 100 := by
  rcases Int.le_total 0 n with nonneg | negative
  · have same : max n 0 = n := by omega
    have positive := ratioPrbs_nonneg nonneg ratio
    rw [same, ← ratioPrbs_eq_div nonneg]
    omega
  · have same : max n 0 = 0 := by omega
    obtain ⟨rounded, product⟩ := ratioPrbs_eq_neg_div negative ratio
    simp only [same]
    omega

def newTxGrants (grants : List Grant) : List Grant := grants.filter (fun grant => grant.sid.isSome)

def drbGrants (sid : Nat) (grants : List Grant) : List Grant :=
  (newTxGrants grants).filter (fun grant => grant.ue.mayCarryDrbOf sid)

theorem grantedRbs_sublist (inside : few.Sublist many) : grantedRbs few ≤ grantedRbs many := by
  induction inside with
  | slnil => exact le_refl _
  | cons grant _ ih | cons_cons grant _ ih =>
    simp only [grantedRbs, map_cons, sum_cons] at ih ⊢
    omega

theorem initEntries_sids (n : Int) (entries : List SlSched) :
    (initEntries n entries).map (fun entry => entry.sl.sid) =
      entries.map (fun entry => entry.sl.sid) := by
  cases entries with
  | nil => rfl
  | cons first rest => simp [initEntries, SlSched.initLimits]

theorem mem_initEntries
    (member : entry ∈ entries) : ∃ inited ∈ initEntries n entries, inited.sl = entry.sl := by
  cases entries with
  | nil => cases member
  | cons first rest =>
    rcases mem_cons.mp member with rfl | inside
    · exact ⟨entry, mem_cons_self, rfl⟩
    · exact ⟨entry.initLimits n, mem_cons_of_mem _ (mem_map_of_mem inside), rfl⟩

theorem sched_grants (input : DlInput κ) (table : SlTable) :
    ∃ new, NewGrants input.cell input.nLeft (initEntries input.nLeft table.entries)
      input.firstStage.state (input.sched table.entries).state new := by
  rw [DlInput.sched_eq]
  cases first : input.firstStage with
  | abort reason s =>
    exact ⟨[], by simp, rfl, by simp, by simp, fun entry _ => le_max_left 0 _⟩
  | done s =>
    have left : input.nLeft = s.nRbSched := by rw [DlInput.nLeft, first, Outcome.state_done]
    have distinct : ((initEntries s.nRbSched table.entries).map
        (fun entry => entry.sl.sid)).Nodup := by
      rw [initEntries_sids]
      exact table.distinct
    rw [left]
    exact sliceTurns_grants input.cell s.nRbSched [] 0 _ s distinct

theorem NewGrants.drb_le (made : NewGrants cell n entries s t new) (sid : Nat) :
    grantedRbs (new.filter (fun grant => grant.ue.mayCarryDrbOf sid)) ≤
      grantedRbs (grantsOf sid new) := by
  have carried : new.filter (fun grant => grant.ue.mayCarryDrbOf sid) =
      (grantsOf sid new).filter (fun grant => grant.ue.mayCarryDrbOf sid) := by
    rw [grantsOf, filter_filter]
    refine filter_congr fun grant member => ?_
    obtain ⟨entry, _, newTx, serves⟩ := made.made grant member
    cases carries : grant.ue.mayCarryDrbOf sid with
    | false => rfl
    | true =>
      obtain ⟨lc, _, drb⟩ := any_eq_true.mp carries
      simp only [Bool.and_eq_true, beq_iff_eq] at drb
      have slice : entry.sl.sid = sid := serves.2.1.symm.trans drb.2
      simp [newTx.slice, slice]
  rw [carried]
  exact grantedRbs_sublist filter_sublist

theorem newTxGrants_sched (made : NewGrants input.cell input.nLeft (initEntries input.nLeft table.entries)
      input.firstStage.state (input.sched table.entries).state new) :
    newTxGrants (input.sched table.entries).state.grants = new := by
  obtain ⟨_, _, invariant⟩ := firstStage_invariant input
  have none : newTxGrants input.firstStage.state.grants = [] :=
    filter_eq_nil_iff.mpr fun grant member => by
      simp [(invariant.made grant member).retransmission]
  have all : newTxGrants new = new := filter_eq_self.mpr fun grant member => by
    obtain ⟨entry, _, newTx, _⟩ := made.made grant member
    simp [newTx.slice]
  rw [made.grants, newTxGrants, filter_append, ← newTxGrants, ← newTxGrants, none, all, nil_append]

end OranSlice.Mac
