import OranSlice.Mac.PfSlice

/-! The call of `dl_sched_unit` for a slot, and the resource blocks its first stage leaves. -/

namespace OranSlice.Mac

open List

variable {κ : Type}

def freeCount (mask : RbMask) (bitmap : BitVec 16) (bwpSize : Nat) : Nat :=
  (range bwpSize).countP (mask.isFree bitmap)

/-- What `nr_fr1_dlsch_preprocessor` has when it calls `dl_sched_unit`: there are UEs, and the first has
an entry for the slot in its time-domain allocation list. `behind` is the memory behind `rballoc_mask`.
-/
structure DlInput (κ : Type) where
  cell : DlCell κ
  first : UeInfo
  others : List UeInfo
  control : κ
  (vrbMap behind : Nat → BitVec 16)
  tdalist : List Nat
  known : first.getDlTdalist = some tdalist
  inside : cell.getDlTda < tdalist.length

namespace DlInput

variable (input : DlInput κ)

def ues : List UeInfo := input.first :: input.others

def bwpSize (input : DlInput κ) : Nat := input.first.currentDlBwp.bwpSize

def mask : RbMask := fun rb =>
  if rb < input.bwpSize then ~~~ input.vrbMap (rb + input.first.currentDlBwp.bwpStart) &&& 0x3fff
  else input.behind rb

def countedBitmap : BitVec 16 :=
  (setTdaInfoFromList input.tdalist input.cell.getDlTda).bitmap

def maxNumUe : Nat := min (input.cell.carrierBandwidth / (4 * 6)) 8

def start : DlState κ where
  ues := input.ues
  control := input.control
  mask := input.mask
  nRbSched := freeCount input.mask input.countedBitmap input.bwpSize
  remainUes := input.maxNumUe
  grants := []
  calls := []

def firstStage : Outcome DlAbort (DlState κ) :=
  retransmissionStage input.cell input.start

def nLeft : Int := input.firstStage.state.nRbSched

def sched (slSched : List SlSched) : Outcome DlAbort (DlState κ) :=
  dlSchedUnit input.cell slSched input.start

theorem sched_eq (slSched : List SlSched) :
    input.sched slSched = input.firstStage.andThen (newTxStage input.cell slSched) := rfl

end DlInput

/-- `SL_sched` when `dl_sched_unit` is called: one entry for each slice, in the order of
the sort, with indeterminate limits. -/
structure SlTable where
  entries : List SlSched
  distinct : (entries.map (fun entry => entry.sl.sid)).Nodup

theorem allocateDlRetransmission_cases (cell : DlCell κ) (ueIndex : Nat) (ue : UeInfo)
    (harqPid : Nat) (s : DlState κ) :
    (∃ f control, (allocateDlRetransmission cell ueIndex ue harqPid s).state =
      { s with ues := s.ues.modify ueIndex f, control := control }) ∨
    (∃ f control rbStart info alloc,
      retransmissionPlan cell s.mask ue cell.getDlTda (cell.getDlTdaInfo ue cell.getDlTda)
        (ue.harqPdsch harqPid) = some (rbStart, info) ∧
      allocateDlRetransmission cell ueIndex ue harqPid s =
        .done ({ s with ues := s.ues.modify ueIndex f }.enter control
          { ueIndex := ueIndex, ue := ue, sid := none, maskBefore := s.mask
            nRbSchedBefore := s.nRbSched, remain := 0
            pdsch := { info with rbStart := rbStart, pucchAllocation := alloc } })) := by
  have same : s.ues = s.ues.modify ueIndex id := (modify_id ueIndex s.ues).symm
  unfold allocateDlRetransmission
  split
  · exact .inl ⟨id, s.control, by rw [← same]; rfl⟩
  dsimp only
  split
  · exact .inl ⟨id, s.control, by rw [← same]; rfl⟩
  split
  · exact .inl ⟨id, s.control, by rw [← same]; rfl⟩
  rename_i rbStart info planned
  split
  · exact .inl ⟨_, _, rfl⟩
  · split
    · exact .inl ⟨_, _, rfl⟩
    · exact .inr ⟨_, _, rbStart, info, _, planned, rfl⟩

def UeInfo.retInfo (ue : UeInfo) : SchedPdsch := ue.harqPdsch ue.retransDlHarqHead.toNat

structure RetxGrant (cell : DlCell κ) (grant : Grant) : Prop where
  retransmission : grant.sid = none
  planned : ∃ info,
    retransmissionPlan cell grant.maskBefore grant.ue cell.getDlTda
      (cell.getDlTdaInfo grant.ue cell.getDlTda) grant.ue.retInfo = some (grant.pdsch.rbStart, info) ∧
    grant.pdsch.rbSize = info.rbSize ∧ grant.pdsch.tdaInfo = info.tdaInfo

variable {cell : DlCell κ} {grant : Grant} {ueIndex : Nat} {α : Type*} {input : DlInput κ} {had : List Nat}
  {s : DlState κ}

theorem RetxGrant.fits (made : RetxGrant cell grant) :
    grant.pdsch.rbSize ≤ FreeRun.run (grant.maskBefore.isFree grant.pdsch.tdaInfo.bitmap)
      ((getStartStopAllocation cell grant.ue).2 - grant.pdsch.rbStart) grant.pdsch.rbStart := by
  obtain ⟨info, plan, size, tda⟩ := made.planned
  rw [size, tda]
  exact retransmissionPlan_fits plan

inductive RetxTurn (cell : DlCell κ) (ueIndex : Nat) (s t : DlState κ) : Prop where
  | idle (mask : t.mask = s.mask) (counter : t.nRbSched = s.nRbSched)
      (grants : t.grants = s.grants) (calls : t.calls = s.calls)
  | granted (grant : Grant) (index : grant.ueIndex = ueIndex) (made : RetxGrant cell grant)
      (before : grant.maskBefore = s.mask ∧ grant.nRbSchedBefore = s.nRbSched)
      (mask : t.mask = s.mask.toggle grant.pdsch.tdaInfo.bitmap grant.pdsch.rbStart grant.pdsch.rbSize)
      (counter : t.nRbSched = s.nRbSched - grant.pdsch.rbSize)
      (grants : t.grants = s.grants ++ [grant]) (calls : t.calls = s.calls)
      (taken : ∃ ue, t.ues[ueIndex]? = some ue ∧ ue.alreadySched = true)

theorem attempt_turn (cell : DlCell κ) (ue : UeInfo) (s : DlState κ) (inside : ueIndex < s.ues.length) :
    RetxTurn cell ueIndex s ((allocateDlRetransmission cell ueIndex ue ue.retransDlHarqHead.toNat s).andThen
          (fun s => .done (s.markScheduled ueIndex))).state ∧
      ∀ other ≠ ueIndex, ((allocateDlRetransmission cell ueIndex ue ue.retransDlHarqHead.toNat s).andThen
          (fun s => .done (s.markScheduled ueIndex))).state.ues[other]? = s.ues[other]? := by
  rcases allocateDlRetransmission_cases cell ueIndex ue ue.retransDlHarqHead.toNat s with
    ⟨f, control, idle⟩ | ⟨f, control, rbStart, info, alloc, planned, granted⟩
  · cases attempt : allocateDlRetransmission cell ueIndex ue ue.retransDlHarqHead.toNat s with
    | done t =>
      rw [attempt] at idle
      subst idle
      refine ⟨.idle rfl rfl rfl rfl, fun other away => ?_⟩
      simp [DlState.markScheduled, Ne.symm away]
    | abort reason t =>
      rw [attempt] at idle
      subst idle
      refine ⟨.idle rfl rfl rfl rfl, fun other away => ?_⟩
      simp [Ne.symm away]
  · rw [granted]
    refine ⟨.granted _ rfl ⟨rfl, info, planned, rfl, rfl⟩ ⟨rfl, rfl⟩ rfl rfl rfl rfl ?_, fun other away => ?_⟩
    · simp [DlState.enter, DlState.markScheduled, inside]
    · simp [DlState.enter, DlState.markScheduled, Ne.symm away]

theorem retransmissionTurn_turn (cell : DlCell κ) (ueIndex : Nat) (s : DlState κ) :
    RetxTurn cell ueIndex s (retransmissionTurn cell ueIndex s).state ∧
      ∀ other ≠ ueIndex, (retransmissionTurn cell ueIndex s).state.ues[other]? = s.ues[other]? := by
  unfold retransmissionTurn
  split
  · exact ⟨.idle rfl rfl rfl rfl, fun _ _ => rfl⟩
  rename_i ue present
  have inside : ueIndex < s.ues.length := (List.getElem?_eq_some_iff.mp present).1
  have others : ∀ other ≠ ueIndex, (s.ues.set ueIndex ue.atTurn)[other]? = s.ues[other]? :=
    fun other away => List.getElem?_set_ne (Ne.symm away)
  split
  · exact ⟨.idle rfl rfl rfl rfl, fun _ _ => rfl⟩
  split
  · exact ⟨.idle rfl rfl rfl rfl, others⟩
  split
  · exact ⟨.idle rfl rfl rfl rfl, others⟩
  obtain ⟨turn, rest⟩ := attempt_turn cell ue.atTurn
    { s with ues := s.ues.set ueIndex ue.atTurn } (by simpa using inside)
  refine ⟨?_, fun other away => (rest other away).trans (others other away)⟩
  cases turn with
  | idle mask counter grants calls => exact .idle mask counter grants calls
  | granted grant index made before mask counter grants calls taken =>
    exact .granted grant index made before mask counter grants calls taken

private theorem countP_range_between (start size bwpSize : Nat) :
    (range bwpSize).countP (fun rb => start ≤ rb ∧ rb < start + size) ≤
      min size (bwpSize - start) := by
  induction bwpSize with
  | zero => simp
  | succ bwpSize ih =>
    rw [range_succ, countP_append, countP_singleton]
    by_cases inside : start ≤ bwpSize ∧ bwpSize < start + size
    · simp only [inside, and_self, decide_true, if_true]
      omega
    · simp only [inside, decide_false, Bool.false_eq_true, if_false]
      omega

private theorem countP_le_add {p q r : α → Bool} (items : List α)
    (split : ∀ a, p a = true → q a = true ∨ r a = true) : items.countP p ≤ items.countP q + items.countP r := by
  induction items with
  | nil => simp
  | cons a rest ih =>
    have here : (if p a = true then 1 else 0) ≤
        (if q a = true then 1 else 0) + if r a = true then 1 else 0 := by
      by_cases holds : p a = true
      · rcases split a holds with first | second
        · simp [holds, first]
        · simp [holds, second]
      · simp [holds]
    simp only [countP_cons]
    omega

theorem freeCount_toggle (mask : RbMask) (bitmap taken : BitVec 16) (rbStart rbSize bwpSize : Nat) :
    freeCount mask bitmap bwpSize ≤
      freeCount (mask.toggle taken rbStart rbSize) bitmap bwpSize + rbSize := by
  have outside := countP_le_add (p := mask.isFree bitmap)
    (q := (mask.toggle taken rbStart rbSize).isFree bitmap)
    (r := fun rb => decide (rbStart ≤ rb ∧ rb < rbStart + rbSize)) (range bwpSize) (by
      intro rb free
      by_cases inside : rbStart ≤ rb ∧ rb < rbStart + rbSize
      · exact .inr (by simpa using inside)
      · left
        simpa only [RbMask.isFree, RbMask.toggle, inside, if_false] using free)
  have few := countP_range_between rbStart rbSize bwpSize
  unfold freeCount
  omega

structure RetxInvariant (input : DlInput κ) (had : List Nat) (s : DlState κ) : Prop where
  counter : s.nRbSched = input.start.nRbSched - grantedRbs s.grants
  left : s.nRbSched ≤ freeCount s.mask input.countedBitmap input.bwpSize
  calls : s.calls = []
  chain : MaskChain input.mask s.grants s.mask
  made : ∀ grant ∈ s.grants, RetxGrant input.cell grant
  order : (s.grants.map Grant.ueIndex).Sublist had
  marked : ∀ grant ∈ s.grants, ∃ ue, s.ues[grant.ueIndex]? = some ue ∧ ue.alreadySched = true

theorem retransmissionTurn_invariant (invariant : RetxInvariant input had s) (fresh : ueIndex ∉ had) :
    RetxInvariant input (had ++ [ueIndex]) (retransmissionTurn input.cell ueIndex s).state := by
  obtain ⟨turn, others⟩ := retransmissionTurn_turn input.cell ueIndex s
  have elsewhere : ∀ grant ∈ s.grants, grant.ueIndex ≠ ueIndex := by
    intro grant member same
    exact fresh (same ▸ invariant.order.subset (mem_map_of_mem member))
  have stillMarked : ∀ grant ∈ s.grants, ∃ ue,
      (retransmissionTurn input.cell ueIndex s).state.ues[grant.ueIndex]? = some ue ∧
        ue.alreadySched = true := by
    intro grant member
    rw [others _ (elsewhere grant member)]
    exact invariant.marked grant member
  cases turn with
  | idle mask counter grants calls =>
    refine ⟨?_, ?_, calls.trans invariant.calls, ?_, ?_, ?_, ?_⟩
    · rw [counter, grants, invariant.counter]
    · rw [counter, mask]
      exact invariant.left
    · rw [grants, mask]
      exact invariant.chain
    · rw [grants]
      exact invariant.made
    · rw [grants]
      exact invariant.order.trans (sublist_append_left _ _)
    · rw [grants]
      exact stillMarked
  | granted grant index made before mask counter grants calls taken =>
    refine ⟨?_, ?_, calls.trans invariant.calls, ?_, ?_, ?_, ?_⟩
    · rw [counter, grants, invariant.counter, grantedRbs_append, grantedRbs_singleton]
      omega
    · have few := freeCount_toggle s.mask input.countedBitmap grant.pdsch.tdaInfo.bitmap
        grant.pdsch.rbStart grant.pdsch.rbSize input.bwpSize
      have left := invariant.left
      rw [mask]
      omega
    · rw [grants, mask]
      exact invariant.chain.append ⟨before.1, rfl⟩
    · rw [grants]
      intro other member
      rcases mem_append.mp member with old | last
      · exact invariant.made other old
      · rwa [mem_singleton.mp last]
    · rw [grants, map_append]
      exact invariant.order.append (by simp [index])
    · rw [grants]
      intro other member
      rcases mem_append.mp member with old | last
      · exact stillMarked other old
      · rw [mem_singleton.mp last, index]
        exact taken

theorem retransmissionTurns_invariant (turns : List Nat) (distinct : (had ++ turns).Nodup)
    (invariant : RetxInvariant input had s) :
    ∃ all, all.Nodup ∧
      RetxInvariant input all (Outcome.loop (retransmissionTurn input.cell) turns s).state := by
  induction turns generalizing had s with
  | nil => exact ⟨had, by simpa using distinct, invariant⟩
  | cons ueIndex rest ih =>
    have distinct' : (had ++ [ueIndex] ++ rest).Nodup := by simpa using distinct
    have fresh : ueIndex ∉ had := by
      intro member
      exact (nodup_append.mp distinct).2.2 ueIndex member ueIndex mem_cons_self rfl
    have turn := retransmissionTurn_invariant invariant fresh
    rw [Outcome.loop_cons]
    cases taken : retransmissionTurn input.cell ueIndex s with
    | done t =>
      rw [taken] at turn
      exact ih distinct' turn
    | abort reason t =>
      rw [taken] at turn
      exact ⟨_, (nodup_append.mp distinct').1, turn⟩

theorem firstStage_invariant (input : DlInput κ) :
    ∃ all, all.Nodup ∧ RetxInvariant input all input.firstStage.state := by
  have start : RetxInvariant input [] input.start :=
    ⟨by simp [DlInput.start], by simp [DlInput.start], rfl, rfl, by simp [DlInput.start],
      by simp [DlInput.start], by simp [DlInput.start]⟩
  exact retransmissionTurns_invariant _ (by simpa using nodup_range) start

end OranSlice.Mac
