import OranSlice.Mac.DlCell

/-! The first stage of DL scheduling: HARQ retransmissions. -/

namespace OranSlice.Mac

open FreeRun

variable {κ : Type}

/-- The search for `want` contiguous free resource blocks below `rbEnd`. A run that is
too short is skipped as a whole. -/
def searchFreeRun (free : Nat → Bool) (want rbEnd : Nat) : Nat → Nat → Option Nat
  | 0, _ => none
  | fuel + 1, rbStart =>
    let start := skip free (rbEnd - 1 - rbStart) rbStart
    if rbEnd ≤ start + 1 then none
    else
      let rbSize := run free (min (rbEnd - start) want) start
      if rbSize < want then searchFreeRun free want rbEnd fuel (start + rbSize) else some start

def reuseOldTda (old new : TdaInfo) : Bool :=
  old.startSymbolIndex == new.startSymbolIndex && decide (old.nrOfSymbols ≤ new.nrOfSymbols)

def SchedPdsch.tbsParams (pdsch : SchedPdsch) : TbsParams :=
  ⟨pdsch.qm, pdsch.r, pdsch.nrOfLayers, pdsch.tdaInfo.nrOfSymbols,
    pdsch.dmrsParms.nPrbDmrs * pdsch.dmrsParms.nDmrsSlot⟩

def reusePlan (mask : RbMask) (rbStart rbEnd : Nat) (retInfo : SchedPdsch) :
    Option (Nat × SchedPdsch) :=
  if retInfo.rbSize = 0 then some (rbStart, retInfo)
  else
    (searchFreeRun (mask.isFree retInfo.tdaInfo.bitmap) retInfo.rbSize rbEnd (rbEnd + 1)
      rbStart).map (fun start => (start, retInfo))

/-- With another time-domain allocation or fewer layers it needs a number of resource
blocks that gives exactly the old transport block size. -/
def changedPlan (mask : RbMask) (rbStart rbEnd : Nat) (changed : SchedPdsch) :
    Option (Nat × SchedPdsch) :=
  let free := mask.isFree changed.tdaInfo.bitmap
  let start := skip free (rbEnd - 1 - rbStart) rbStart
  let rbSize := run free (rbEnd - start) start
  let found := nrFindNbRb changed.tbsParams false changed.tbSize 1 rbSize
  if !found.fits || found.tbs != changed.tbSize then none
  else some (start, { changed with tbSize := found.tbs, rbSize := found.nbRb })

def UeInfo.retxLayers (ue : UeInfo) (retInfo : SchedPdsch) : Nat :=
  if ue.schedPdsch.nrOfLayers < retInfo.nrOfLayers then ue.schedPdsch.nrOfLayers
  else retInfo.nrOfLayers

def UeInfo.repeatsOld (ue : UeInfo) (tempTda : TdaInfo) (retInfo : SchedPdsch) : Bool :=
  reuseOldTda retInfo.tdaInfo tempTda && ue.retxLayers retInfo == retInfo.nrOfLayers

variable (cell : DlCell κ)

def changedFormat (ue : UeInfo) (tda : Int) (tempTda : TdaInfo)
    (retInfo : SchedPdsch) : SchedPdsch :=
  { retInfo with
    timeDomainAllocation := tda
    nrOfLayers := ue.retxLayers retInfo
    pmIndex := if ue.schedPdsch.nrOfLayers < retInfo.nrOfLayers then ue.schedPdsch.pmIndex
      else retInfo.pmIndex
    dmrsParms := cell.getDlDmrsParams ue tempTda (ue.retxLayers retInfo)
    tdaInfo := tempTda }

def retransmissionPlan (mask : RbMask) (ue : UeInfo) (tda : Int)
    (tempTda : TdaInfo) (retInfo : SchedPdsch) : Option (Nat × SchedPdsch) :=
  let (rbStart, rbEnd) := getStartStopAllocation cell ue
  if ue.repeatsOld tempTda retInfo then reusePlan mask rbStart rbEnd retInfo
  else changedPlan mask rbStart rbEnd (changedFormat cell ue tda tempTda retInfo)

def allocateDlRetransmission (ueIndex : Nat) (ue : UeInfo) (harqPid : Nat)
    (s : DlState κ) : Outcome DlAbort (DlState κ) :=
  if cell.getDlTda < 0 then .abort .noTda s
  else
    let tempTda := cell.getDlTdaInfo ue cell.getDlTda
    if !tempTda.validTda then .done s
    else
      match retransmissionPlan cell s.mask ue cell.getDlTda tempTda (ue.harqPdsch harqPid) with
      | none => .done s
      | some (rbStart, retInfo) =>
        let s := { s with ues := s.ues.modify ueIndex (fun ue =>
          { ue with harqPdsch := Function.update ue.harqPdsch harqPid retInfo }) }
        let (cceIndex, control) := cell.getCceIndex s.control ue
        if cceIndex < 0 then .done { s with control := control }
        else
          let (alloc, control) := cell.nrAcknackScheduling control ue cceIndex
          if alloc < 0 then .done { s with control := control }
          else
            .done (s.enter (cell.fillPdcchVrbMap control ue cceIndex)
              { ueIndex := ueIndex, ue := ue, sid := none, maskBefore := s.mask
                nRbSchedBefore := s.nRbSched, remain := 0
                pdsch := { retInfo with rbStart := rbStart, pucchAllocation := alloc } })

def UeInfo.atTurn (ue : UeInfo) : UeInfo :=
  { ue with
    alreadySched := false
    schedPdsch := { ue.schedPdsch with dlHarqPid := ue.retransDlHarqHead } }

def DlState.markScheduled (s : DlState κ) (ueIndex : Nat) : DlState κ :=
  { s with ues := s.ues.modify ueIndex (fun ue => { ue with alreadySched := true }) }

/-- One turn of the first stage. A UE whose retransmission was attempted takes no part in
the second stage, also when the attempt failed. -/
def retransmissionTurn (ueIndex : Nat) (s : DlState κ) :
    Outcome DlAbort (DlState κ) :=
  match s.ues[ueIndex]? with
  | none => .done s
  | some ue =>
    if !ue.msg4Acked || ue.ulFailure then .done s
    else
      let atTurn := { s with ues := s.ues.set ueIndex ue.atTurn }
      if s.remainUes = 0 then .done atTurn
      else if ue.retransDlHarqHead < 0 then .done atTurn
      else
        (allocateDlRetransmission cell ueIndex ue.atTurn ue.retransDlHarqHead.toNat
          atTurn).andThen (fun s => .done (s.markScheduled ueIndex))

def retransmissionStage (s : DlState κ) : Outcome DlAbort (DlState κ) :=
  Outcome.loop (retransmissionTurn cell) (List.range s.ues.length) s

variable {free : Nat → Bool} {want rbEnd fuel rbStart found start : Nat} {mask : RbMask}
  {retInfo info changed : SchedPdsch} {cell : DlCell κ} {ue : UeInfo} {tda : Int} {tempTda : TdaInfo}

theorem searchFreeRun_spec (result : searchFreeRun free want rbEnd fuel rbStart = some found) :
    rbStart ≤ found ∧ want ≤ run free (rbEnd - found) found := by
  induction fuel generalizing rbStart with
  | zero => simp [searchFreeRun] at result
  | succ fuel ih =>
    simp only [searchFreeRun] at result
    have forward := @le_skip free (rbEnd - 1 - rbStart) rbStart
    split at result
    · cases result
    split at result
    · have later := ih result
      exact ⟨by omega, later.2⟩
    rename_i enough
    cases result
    rw [run_min] at enough
    omega

theorem reusePlan_fits (plan : reusePlan mask rbStart rbEnd retInfo = some (start, info)) :
    info.rbSize ≤ run (mask.isFree info.tdaInfo.bitmap) (rbEnd - start) start := by
  unfold reusePlan at plan
  split at plan
  · cases plan
    omega
  · obtain ⟨found, search, same⟩ := Option.map_eq_some_iff.mp plan
    cases same
    exact (searchFreeRun_spec search).2

theorem retransmissionPlan_fits
    (plan : retransmissionPlan cell mask ue tda tempTda retInfo = some (rbStart, info)) :
    info.rbSize ≤ run (mask.isFree info.tdaInfo.bitmap)
      ((getStartStopAllocation cell ue).2 - rbStart) rbStart := by
  unfold retransmissionPlan at plan
  dsimp only at plan
  split at plan
  · exact reusePlan_fits plan
  · simp only [changedPlan] at plan
    split_ifs at plan with accepted
    cases plan
    simp only [Bool.or_eq_true, not_or, bne_iff_ne, Decidable.not_not] at accepted
    exact nrFindNbRb_exact_le accepted.2

end OranSlice.Mac
