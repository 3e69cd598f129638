import OranSlice.Mac.DlScenarios

/-! The transport block of a DL HARQ process keeps its size over all retransmissions.
`allocate_dl_retransmission` writes new parameters into the process before it knows whether the
retransmission goes out; what carries over is that they give the stored size. -/

namespace OranSlice.Mac

open FreeRun Runs

variable {κ : Type}

structure SchedPdsch.Carries (pdsch : SchedPdsch) (size : Nat) : Prop where
  recorded : pdsch.tbSize = size
  computed : pdsch.tbsParams.tbs pdsch.rbSize = size

theorem newTxPdsch_carries (cell : DlCell κ) (sid : Nat) (mask : RbMask) (remain : Int) (ue : UeInfo)
    (tda : TdaInfo) (alloc : Int) :
    (newTxPdsch cell sid mask remain ue tda alloc).Carries
      (newTxPdsch cell sid mask remain ue tda alloc).tbSize := by
  constructor
  · rfl
  · exact (nrFindNbRb_tbs (newTxFormat cell ue tda alloc).tbsParams false (newTxDemand cell sid ue)
      minRbSize (newTxMaxRbSize cell mask remain ue tda)).symm

variable {mask : RbMask} {rbStart rbEnd start size : Nat} {retInfo info changed : SchedPdsch}
  {cell : DlCell κ} {ue : UeInfo} {tda : Int} {tempTda : TdaInfo}

theorem reusePlan_info (plan : reusePlan mask rbStart rbEnd retInfo = some (start, info)) :
    info = retInfo ∧ rbStart ≤ start := by
  unfold reusePlan at plan
  split at plan
  · cases plan
    exact ⟨rfl, le_refl _⟩
  · obtain ⟨found, search, same⟩ := Option.map_eq_some_iff.mp plan
    cases same
    exact ⟨rfl, (searchFreeRun_spec search).1⟩

theorem retransmissionPlan_carries (carries : retInfo.Carries size)
    (plan : retransmissionPlan cell mask ue tda tempTda retInfo = some (rbStart, info)) :
    info.Carries size ∧ (getStartStopAllocation cell ue).1 ≤ rbStart := by
  unfold retransmissionPlan at plan
  dsimp only at plan
  split at plan
  · have kept := reusePlan_info plan
    rw [kept.1]
    exact ⟨carries, kept.2⟩
  · have recorded : (changedFormat cell ue tda tempTda retInfo).tbSize = size := carries.recorded
    simp only [changedPlan] at plan
    split_ifs at plan with accepted
    cases plan
    simp only [Bool.or_eq_true, not_or, bne_iff_ne, Decidable.not_not] at accepted
    have exact_ := accepted.2.trans recorded
    exact ⟨⟨exact_, (nrFindNbRb_tbs _ _ _ _ _).symm.trans exact_⟩, le_skip _ _⟩

/-- A call of `allocate_dl_retransmission`. All that it reads but the parameters stored in the process
is up to the slot. -/
structure RetxAttempt (κ : Type) where
  cell : DlCell κ
  dl : DlState κ
  ueIndex : Nat
  ue : UeInfo
  inside : ueIndex < dl.ues.length

namespace RetxAttempt

variable (attempt : RetxAttempt κ) (harqPid : Nat) (stored : SchedPdsch)

def holding : UeInfo :=
  { attempt.ue with harqPdsch := Function.update attempt.ue.harqPdsch harqPid stored }

def before : DlState κ :=
  { attempt.dl with ues := attempt.dl.ues.set attempt.ueIndex (attempt.holding harqPid stored) }

def outcome : Outcome DlAbort (DlState κ) :=
  allocateDlRetransmission attempt.cell attempt.ueIndex (attempt.holding harqPid stored) harqPid
    (attempt.before harqPid stored)

def sent : List Grant :=
  (attempt.outcome harqPid stored).state.grants.drop attempt.dl.grants.length

def plan : Option (Nat × SchedPdsch) :=
  retransmissionPlan attempt.cell attempt.dl.mask (attempt.holding harqPid stored) attempt.cell.getDlTda
    (attempt.cell.getDlTdaInfo (attempt.holding harqPid stored) attempt.cell.getDlTda) stored

def grant (rbStart : Nat) (info : SchedPdsch) (alloc : Int) : Grant :=
  { ueIndex := attempt.ueIndex, ue := attempt.holding harqPid stored, sid := none
    maskBefore := attempt.dl.mask, nRbSchedBefore := attempt.dl.nRbSched, remain := 0
    pdsch := { info with rbStart := rbStart, pucchAllocation := alloc } }

end RetxAttempt

def retry (harqPid : Nat) (stored : SchedPdsch) (attempt : RetxAttempt κ) : Option SchedPdsch :=
  match attempt.outcome harqPid stored with
  | .done s => s.ues[attempt.ueIndex]?.map (fun ue => ue.harqPdsch harqPid)
  | .abort _ _ => none

theorem DlCell.getDlTda_nonneg (cell : DlCell κ) : 0 ≤ cell.getDlTda := by
  unfold DlCell.getDlTda
  split
  · decide
  · split
    · decide
    · split <;> decide

def DlState.storing (s : DlState κ) (ueIndex harqPid : Nat) (info : SchedPdsch) : DlState κ :=
  { s with ues := s.ues.modify ueIndex (fun ue =>
      { ue with harqPdsch := Function.update ue.harqPdsch harqPid info }) }

theorem RetxAttempt.outcome_cases (attempt : RetxAttempt κ) (harqPid : Nat) (stored : SchedPdsch) :
    attempt.outcome harqPid stored = .done (attempt.before harqPid stored) ∨
    ∃ rbStart info, attempt.plan harqPid stored = some (rbStart, info) ∧
      ((∃ control, attempt.outcome harqPid stored =
        .done { (attempt.before harqPid stored).storing attempt.ueIndex harqPid info with
          control := control }) ∨
      ∃ control alloc, attempt.outcome harqPid stored =
        .done (((attempt.before harqPid stored).storing attempt.ueIndex harqPid info).enter control
          (attempt.grant harqPid stored rbStart info alloc))) := by
  have own : (attempt.holding harqPid stored).harqPdsch harqPid = stored := by
    simp [RetxAttempt.holding]
  simp only [RetxAttempt.outcome, allocateDlRetransmission]
  rw [if_neg (not_lt.mpr attempt.cell.getDlTda_nonneg), own]
  split
  · exact .inl rfl
  split
  · exact .inl rfl
  rename_i rbStart info planned
  refine .inr ⟨rbStart, info, planned, ?_⟩
  split
  · exact .inl ⟨_, rfl⟩
  · split
    · exact .inl ⟨_, rfl⟩
    · exact .inr ⟨_, _, rfl⟩

theorem RetxAttempt.attempt_cases (attempt : RetxAttempt κ) (harqPid : Nat) (stored : SchedPdsch) :
    (attempt.sent harqPid stored = [] ∧ retry harqPid stored attempt = some stored) ∨
    ∃ rbStart info, attempt.plan harqPid stored = some (rbStart, info) ∧
      retry harqPid stored attempt = some info ∧
      (attempt.sent harqPid stored = [] ∨
        ∃ alloc, attempt.sent harqPid stored = [attempt.grant harqPid stored rbStart info alloc]) := by
  rcases attempt.outcome_cases harqPid stored with
    refused | ⟨rbStart, info, planned, ⟨control, refused⟩ | ⟨control, alloc, granted⟩⟩
  · simp [RetxAttempt.sent, retry, refused, RetxAttempt.before, RetxAttempt.holding, inside]
  · right
    refine ⟨rbStart, info, planned, ?_, .inl ?_⟩
    · simp [retry, refused, RetxAttempt.before, DlState.storing, inside]
    · simp [RetxAttempt.sent, refused, RetxAttempt.before, DlState.storing]
  · right
    refine ⟨rbStart, info, planned, ?_, .inr ⟨alloc, ?_⟩⟩
    · simp [retry, granted, RetxAttempt.before, DlState.storing, DlState.enter, RetxAttempt.grant, inside]
    · simp [RetxAttempt.sent, granted, RetxAttempt.before, DlState.storing, DlState.enter]

def RetxAttempt.SendsBlock (harqPid size : Nat) (stored : SchedPdsch) (attempt : RetxAttempt κ) :
    Prop :=
  ∀ grant ∈ attempt.sent harqPid stored, grant.pdsch.Carries size ∧
    ∀ rb, grant.pdsch.rbStart ≤ rb → rb < grant.pdsch.rbStart + grant.pdsch.rbSize →
      attempt.dl.mask.isFree grant.pdsch.tdaInfo.bitmap rb = true ∧
      (getStartStopAllocation attempt.cell attempt.ue).1 ≤ rb ∧
      rb < (getStartStopAllocation attempt.cell attempt.ue).2

theorem RetxAttempt.sendsBlock {attempt : RetxAttempt κ} {harqPid size : Nat} {stored : SchedPdsch}
    (carries : stored.Carries size) : attempt.SendsBlock harqPid size stored := by
  intro grant member
  rcases attempt.attempt_cases harqPid stored with ⟨nothing, _⟩ | ⟨rbStart, info, planned, _, sends⟩
  · simp [nothing] at member
  rcases sends with nothing | ⟨alloc, granted⟩
  · simp [nothing] at member
  rw [granted, List.mem_singleton] at member
  subst member
  have kept := retransmissionPlan_carries carries planned
  have fits := retransmissionPlan_fits planned
  refine ⟨⟨kept.1.recorded, kept.1.computed⟩, ?_⟩
  intro rb after below
  have first : (getStartStopAllocation attempt.cell attempt.ue).1 ≤ rbStart := kept.2
  have upTo := (le_run_iff _ _ _).mp fits
  change rbStart ≤ rb at after
  change rb < rbStart + info.rbSize at below
  have free := upTo.2 (rb - rbStart) (by omega)
  rw [Nat.add_sub_cancel' after] at free
  refine ⟨free, by omega, ?_⟩
  have last : info.rbSize ≤ (getStartStopAllocation attempt.cell attempt.ue).2 - rbStart := upTo.1
  omega

theorem retry_carries {attempt : RetxAttempt κ} {harqPid size : Nat}
    {stored next : SchedPdsch} (carries : stored.Carries size)
    (taken : retry harqPid stored attempt = some next) : next.Carries size := by
  rcases attempt.attempt_cases harqPid stored with ⟨_, same⟩ | ⟨rbStart, info, planned, rewritten, _⟩
  · cases same.symm.trans taken
    exact carries
  · cases rewritten.symm.trans taken
    exact (retransmissionPlan_carries carries planned).1

theorem retry_isSome (harqPid : Nat) (stored : SchedPdsch) (attempt : RetxAttempt κ) :
    ∃ next, retry harqPid stored attempt = some next := by
  rcases attempt.attempt_cases harqPid stored with ⟨_, same⟩ | ⟨_, info, _, rewritten, _⟩
  · exact ⟨stored, same⟩
  · exact ⟨info, rewritten⟩

theorem run_retry_carries {harqPid size : Nat} {stored : SchedPdsch} (carries : stored.Carries size)
    (attempts : List (RetxAttempt κ)) :
    ∃ last, Runs.run (retry harqPid) stored attempts = some last ∧ last.Carries size := by
  induction attempts generalizing stored with
  | nil => exact ⟨stored, rfl, carries⟩
  | cons attempt rest ih =>
    obtain ⟨next, taken⟩ := retry_isSome harqPid stored attempt
    rw [run_cons, taken]
    exact ih (retry_carries carries taken)

/-- After any new transmission and every history of attempts, each retransmission that goes out has the
size of the block and takes free resource blocks of the UE. -/
theorem retransmissions_send_stored_block (cell : DlCell κ) (sid : Nat) (mask : RbMask) (remain : Int)
    (ue : UeInfo) (tda : TdaInfo) (alloc : Int) (harqPid : Nat) (attempts : List (RetxAttempt κ)) :
    (∃ last, Runs.run (retry harqPid) (newTxPdsch cell sid mask remain ue tda alloc) attempts = some last) ∧
    Attempts (retry harqPid)
      (RetxAttempt.SendsBlock harqPid (newTxPdsch cell sid mask remain ue tda alloc).tbSize)
      (newTxPdsch cell sid mask remain ue tda alloc) attempts := by
  have carries := newTxPdsch_carries cell sid mask remain ue tda alloc
  constructor
  · obtain ⟨last, reached, _⟩ := run_retry_carries carries attempts
    exact ⟨last, reached⟩
  · intro front attempt inside middle reached
    obtain ⟨last, same, kept⟩ := run_retry_carries carries front
    cases reached.symm.trans same
    exact RetxAttempt.sendsBlock kept

end OranSlice.Mac
