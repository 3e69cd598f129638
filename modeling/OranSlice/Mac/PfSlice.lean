import OranSlice.Mac.DlScheduler

/-! What one call of `pf_dl_slice` does: it stays within the limit it is given, and it
serves each UE of its slice at most once. -/

namespace OranSlice.Mac

open FreeRun List

variable {κ : Type}

def UeInfo.context (ue : UeInfo) : UeInfo := { ue with schedPdsch := {} }

def grantedRbs (grants : List Grant) : Nat := (grants.map (fun grant => grant.pdsch.rbSize)).sum

@[simp] theorem grantedRbs_nil : grantedRbs [] = 0 := rfl

@[simp] theorem grantedRbs_append (front back : List Grant) :
    grantedRbs (front ++ back) = grantedRbs front + grantedRbs back := by
  simp [grantedRbs]

@[simp] theorem grantedRbs_singleton (grant : Grant) : grantedRbs [grant] = grant.pdsch.rbSize := by
  simp [grantedRbs]

section

variable (cell : DlCell κ) (sid : Nat) (maxRbs : Int) (candidate : UeInfo × Nat) (p : PfState κ)

theorem newTxTurn_cases :
    (∃ control, (newTxTurn cell sid maxRbs candidate p).state = p.withControl control) ∨
    (p.goesOn maxRbs ∧ ∃ control alloc, newTxTurn cell sid maxRbs candidate p =
        .done (p.enter control (newTxGrant cell sid candidate.1 candidate.2 p
          (cell.getDlTdaInfo candidate.1 cell.getDlTda) alloc))) := by
  unfold newTxTurn
  dsimp only
  by_cases goesOn : p.goesOn maxRbs
  · rw [if_neg (not_not.mpr goesOn)]
    split
    · exact .inl ⟨p.dl.control, rfl⟩
    split
    · exact .inl ⟨_, rfl⟩
    split
    · exact .inl ⟨_, rfl⟩
    split
    · exact .inl ⟨_, rfl⟩
    · split
      · exact .inl ⟨_, rfl⟩
      · exact .inr ⟨goesOn, _, _, rfl⟩
  · rw [if_pos goesOn]
    exact .inl ⟨p.dl.control, rfl⟩

theorem newTxTurn_reason : (newTxTurn cell sid maxRbs candidate p).reason? ≠ some .prbViolation := by
  unfold newTxTurn
  dsimp only
  split_ifs <;> simp

end

variable {remain : Int} {α β : Type*} {cell : DlCell κ} {entry : SlSched} {s : DlState κ}
  {turns before : List (UeInfo × Nat)} {p : PfState κ}

theorem newTxPdsch_rbSize_le (cell : DlCell κ) (sid : Nat) (mask : RbMask)
    (enough : minRbSize ≤ remain) (ue : UeInfo) (tda : TdaInfo) (alloc : Int) :
    ((newTxPdsch cell sid mask remain ue tda alloc).rbSize : Int) ≤ remain := by
  have bound := nrFindNbRb_le (newTxFormat cell ue tda alloc).tbsParams false (newTxDemand cell sid ue)
    minRbSize (newTxMaxRbSize cell mask remain ue tda)
  have offered : newTxMaxRbSize cell mask remain ue tda ≤ 1 + (remain - 1).toNat := by
    unfold newTxMaxRbSize
    have limit := @run_le (mask.isFree tda.bitmap)
      (min ((getStartStopAllocation cell ue).2 - (newTxStart cell mask ue tda + 1))
        (remain - 1).toNat) (newTxStart cell mask ue tda + 1)
    dsimp only
    omega
  have least : minRbSize = 5 := rfl
  change ((nrFindNbRb _ false _ _ _).nbRb : Int) ≤ remain
  omega

structure NewTxGrant (cell : DlCell κ) (sid : Nat) (grant : Grant) : Prop where
  slice : grant.sid = some sid
  enough : minRbSize ≤ grant.remain
  decided : ∃ alloc, grant.pdsch = newTxPdsch cell sid grant.maskBefore grant.remain grant.ue
    (cell.getDlTdaInfo grant.ue cell.getDlTda) alloc

structure PfInvariant (cell : DlCell κ) (entry : SlSched) (s : DlState κ)
    (turns : List (UeInfo × Nat)) (p : PfState κ) : Prop where
  balance : p.nRbSchedS + p.nRbRemainS = entry.maxPrbs
  counter : p.dl.nRbSched = s.nRbSched - p.nRbSchedS
  nonneg : 0 ≤ p.nRbSchedS
  within : p.nRbSchedS = 0 ∨ (0 ≤ p.nRbRemainS ∧ minRbSize ≤ entry.maxPrbs ∧
    minRbSize ≤ s.nRbSched)
  calls : p.dl.calls = s.calls
  contexts : p.dl.ues.map UeInfo.context = s.ues.map UeInfo.context
  grants : ∃ new, p.dl.grants = s.grants ++ new ∧ (grantedRbs new : Int) = p.nRbSchedS ∧
    MaskChain s.mask new p.dl.mask ∧
    (∀ grant ∈ new, NewTxGrant cell entry.sl.sid grant ∧ (grant.ue, grant.ueIndex) ∈ turns) ∧
    (new.map Grant.ueIndex).Sublist (turns.map Prod.snd)

theorem map_modify_eq {f : α → α} {g : α → β} (same : ∀ a, g (f a) = g a)
    (items : List α) (i : Nat) : (items.modify i f).map g = items.map g := by
  refine ext_getElem? fun j => ?_
  rw [getElem?_map, getElem?_map, getElem?_modify]
  cases items[j]? with
  | none => rfl
  | some a =>
    simp only [Option.map_eq_map, Option.map_some]
    split
    · rw [same]
    · rfl

theorem newTxTurn_invariant (invariant : PfInvariant cell entry s turns p) (candidate : UeInfo × Nat) :
    PfInvariant cell entry s (turns ++ [candidate])
      (newTxTurn cell entry.sl.sid entry.maxPrbs candidate p).state := by
  obtain ⟨new, entered, total, chain, own, order⟩ := invariant.grants
  have earlier : ∀ grant ∈ new, NewTxGrant cell entry.sl.sid grant ∧
      (grant.ue, grant.ueIndex) ∈ turns ++ [candidate] := fun grant member =>
    ⟨(own grant member).1, mem_append_left _ (own grant member).2⟩
  rcases newTxTurn_cases cell entry.sl.sid entry.maxPrbs candidate p with
    ⟨control, same⟩ | ⟨goesOn, control, alloc, granted⟩
  · rw [same]
    refine ⟨invariant.balance, invariant.counter, invariant.nonneg, invariant.within,
      invariant.calls, invariant.contexts, new, entered, total, chain, earlier, ?_⟩
    rw [map_append]
    exact order.trans (sublist_append_left _ _)
  · rw [granted, Outcome.state_done]
    obtain ⟨_, enoughLeft, enough, _⟩ := goesOn
    have taken := newTxPdsch_rbSize_le cell entry.sl.sid p.dl.mask enough candidate.1
      (cell.getDlTdaInfo candidate.1 cell.getDlTda) alloc
    have balance := invariant.balance
    have counter := invariant.counter
    refine ⟨?_, ?_, ?_, ?_, invariant.calls, ?_, new ++ [newTxGrant cell entry.sl.sid candidate.1
      candidate.2 p (cell.getDlTdaInfo candidate.1 cell.getDlTda) alloc], ?_, ?_, ?_, ?_, ?_⟩
    · simp only [PfState.enter]
      omega
    · simp only [PfState.enter, DlState.enter]
      omega
    · simp only [PfState.enter]
      omega
    · refine .inr ⟨?_, ?_, ?_⟩
      · simp only [PfState.enter, newTxGrant]
        omega
      · rcases invariant.within with none | some <;> omega
      · rcases invariant.within with none | some <;> omega
    · rw [← invariant.contexts]
      exact map_modify_eq (fun ue => by simp [UeInfo.context]) _ _
    · simp [PfState.enter, DlState.enter, entered]
    · simp only [grantedRbs_append, grantedRbs_singleton, PfState.enter]
      omega
    · exact chain.append ⟨rfl, rfl⟩
    · intro grant member
      rcases mem_append.mp member with old | last
      · exact earlier grant old
      · obtain rfl := mem_singleton.mp last
        exact ⟨⟨rfl, enough, alloc, rfl⟩, mem_append_right _ (mem_singleton.mpr rfl)⟩
    · rw [map_append, map_append]
      exact order.append (List.Sublist.refl _)

theorem newTxTurns_invariant (turns : List (UeInfo × Nat)) (invariant : PfInvariant cell entry s before p) :
    ∃ had, had <+: turns ∧ PfInvariant cell entry s (before ++ had)
      (Outcome.loop (newTxTurn cell entry.sl.sid entry.maxPrbs) turns p).state := by
  induction turns generalizing before p with
  | nil => exact ⟨[], nil_prefix, by simpa using invariant⟩
  | cons candidate rest ih =>
    have turn := newTxTurn_invariant invariant candidate
    rw [Outcome.loop_cons]
    cases taken : newTxTurn cell entry.sl.sid entry.maxPrbs candidate p with
    | done q =>
      rw [taken] at turn
      obtain ⟨had, inside, final⟩ := ih turn
      refine ⟨candidate :: had, cons_prefix_cons.mpr ⟨rfl, inside⟩, ?_⟩
      rwa [append_assoc, singleton_append] at final
    | abort reason q =>
      rw [taken] at turn
      exact ⟨[candidate], by simp, turn⟩

structure PfResult (cell : DlCell κ) (entry : SlSched) (s : DlState κ) (p : PfState κ) : Prop where
  nonneg : 0 ≤ p.nRbSchedS
  within : p.nRbSchedS = 0 ∨ (p.nRbSchedS ≤ entry.maxPrbs ∧ minRbSize ≤ entry.maxPrbs ∧
    minRbSize ≤ s.nRbSched)
  counter : p.dl.nRbSched = s.nRbSched - p.nRbSchedS
  calls : p.dl.calls = s.calls
  contexts : p.dl.ues.map UeInfo.context = s.ues.map UeInfo.context
  grants : ∃ new, p.dl.grants = s.grants ++ new ∧ (grantedRbs new : Int) = p.nRbSchedS ∧
    MaskChain s.mask new p.dl.mask ∧
    (∀ grant ∈ new, NewTxGrant cell entry.sl.sid grant ∧
      (grant.ue, grant.ueIndex) ∈ candidates cell entry.sl.sid s) ∧
    (new.map Grant.ueIndex).Nodup

theorem candidates_nodup (cell : DlCell κ) (sid : Nat) (s : DlState κ) :
    ((candidates cell sid s).map Prod.snd).Nodup := by
  have positions : (s.ues.zipIdx.map Prod.snd).Nodup := by
    rw [zipIdx_map_snd]
    exact nodup_range'
  rw [candidates, map_map]
  exact positions.sublist (filter_sublist.map Prod.snd)

theorem pfDlSlice_result (cell : DlCell κ) (entry : SlSched) (s : DlState κ) :
    PfResult cell entry s (pfDlSlice cell entry s).state := by
  have contexts : (s.ues.map (fun ue =>
      if ue.eligible cell entry.sl.sid s.remainUes then ue.withMcs cell else ue)).map
        UeInfo.context = s.ues.map UeInfo.context := by
    rw [map_map]
    refine map_congr_left fun ue _ => ?_
    simp only [Function.comp_apply]
    split <;> rfl
  have start : PfInvariant cell entry s []
      ⟨{ s with ues := s.ues.map (fun ue =>
        if ue.eligible cell entry.sl.sid s.remainUes then ue.withMcs cell else ue) }, 0,
        entry.maxPrbs⟩ :=
    ⟨by simp, by simp, by simp, .inl rfl, rfl, contexts, [], by simp, by simp, rfl, by simp, by simp⟩
  obtain ⟨had, inside, invariant⟩ := newTxTurns_invariant (cell.sortUes (candidates cell entry.sl.sid s)) start
  obtain ⟨new, entered, total, chain, own, order⟩ := invariant.grants
  have sorted := cell.sortUes_perm (candidates cell entry.sl.sid s)
  refine ⟨invariant.nonneg, ?_, invariant.counter, invariant.calls, invariant.contexts, new,
    entered, total, chain, ?_, ?_⟩
  · rcases invariant.within with none | some
    · exact .inl none
    · exact .inr ⟨by rw [← invariant.balance]; exact Int.le_add_of_nonneg_right some.1, some.2⟩
  · intro grant member
    exact ⟨(own grant member).1, sorted.mem_iff.mp (inside.subset (own grant member).2)⟩
  · have distinct := (sorted.map Prod.snd).nodup_iff.mpr (candidates_nodup cell entry.sl.sid s)
    exact distinct.sublist (order.trans (inside.sublist.map Prod.snd))

theorem pfDlSlice_reason (cell : DlCell κ) (entry : SlSched) (s : DlState κ) :
    (pfDlSlice cell entry s).reason? ≠ some .prbViolation :=
  Outcome.loop_reason (fun candidate _ p => newTxTurn_reason cell _ _ candidate p) _

end OranSlice.Mac
