import OranSlice.Mac.DlRetransmission
import OranSlice.Mac.SliceSelect

/-! The second stage of DL scheduling: new transmissions, slice by slice. -/

namespace OranSlice.Mac

open FreeRun

variable {κ : Type}

def minRbSize : Nat := 5

def UeInfo.eligible (cell : DlCell κ) (sid remainUes : Nat) (ue : UeInfo) : Bool :=
  ue.msg4Acked && !ue.ulFailure && !ue.alreadySched && ue.sliceForThisSched == sid &&
    remainUes != 0 && decide (0 ≤ ue.availableDlHarqHead) &&
    !(ue.numTotalBytes == 0 && cell.frame != (ue.taFrame + 100) % 1024)

variable (cell : DlCell κ) (nRbSchedInit : Int) (sid : Nat) (others slSched : List SlSched) (mask : RbMask)
  (entry : SlSched) (maxRbs : Int) (s : DlState κ) (remain : Int) (ue : UeInfo) (tda : TdaInfo) (alloc : Int)

def UeInfo.withMcs : UeInfo :=
  let layers := cell.getDlNrOfLayers ue
  { ue with schedPdsch := { ue.schedPdsch with
      mcs := cell.getMcs ue, nrOfLayers := layers, pmIndex := cell.getPmIndex ue layers } }

def sliceBytes (entries : List AvailSlice) : BitVec 32 :=
  ((entries.find? (fun entry => entry.sid == sid)).map AvailSlice.bytes).getD 0

def newTxDemand : Nat :=
  let oh := 12 + if cell.frame = (ue.taFrame + 10) % 1024 then 2 else 0
  ((sliceBytes sid ue.availSliceList).toNat + oh) % 2 ^ 32

def newTxStart : Nat :=
  let (rbStart, rbEnd) := getStartStopAllocation cell ue
  skip (mask.isFree tda.bitmap) (rbEnd - 1 - rbStart) rbStart

/-- `max_rbSize`: it starts at one without a look at the resource block it stands for. -/
def newTxMaxRbSize :
    Nat :=
  let start := newTxStart cell mask ue tda
  1 + run (mask.isFree tda.bitmap)
    (min ((getStartStopAllocation cell ue).2 - (start + 1)) (remain - 1).toNat) (start + 1)

def newTxFormat : SchedPdsch :=
  { ue.schedPdsch with
    timeDomainAllocation := cell.getDlTda
    tdaInfo := tda
    dmrsParms := cell.getDlDmrsParams ue tda ue.schedPdsch.nrOfLayers
    qm := cell.nrGetQmDl ue.schedPdsch.mcs ue.currentDlBwp.mcsTableIdx
    r := cell.nrGetCodeRateDl ue.schedPdsch.mcs ue.currentDlBwp.mcsTableIdx
    pucchAllocation := alloc }

def newTxPdsch : SchedPdsch :=
  let format := newTxFormat cell ue tda alloc
  let found := nrFindNbRb format.tbsParams false (newTxDemand cell sid ue) minRbSize
    (newTxMaxRbSize cell mask remain ue tda)
  { format with
    rbSize := found.nbRb, rbStart := newTxStart cell mask ue tda, tbSize := found.tbs }

structure PfState (κ : Type) where
  dl : DlState κ
  (nRbSchedS nRbRemainS : Int)

def PfState.goesOn (p : PfState κ) (maxRbs : Int) : Prop :=
  0 < p.dl.remainUes ∧ minRbSize ≤ p.dl.nRbSched ∧ minRbSize ≤ p.nRbRemainS ∧ p.nRbSchedS ≤ maxRbs

instance (p : PfState κ) (maxRbs : Int) : Decidable (p.goesOn maxRbs) :=
  inferInstanceAs (Decidable (_ ∧ _))

def PfState.withControl (p : PfState κ) (control : κ) : PfState κ :=
  { p with dl := { p.dl with control := control } }

def newTxGrant (ueIndex : Nat) (p : PfState κ)
    (tda : TdaInfo) (alloc : Int) : Grant :=
  { ueIndex := ueIndex, ue := ue, sid := some sid, maskBefore := p.dl.mask
    nRbSchedBefore := p.dl.nRbSched, remain := p.nRbRemainS
    pdsch := newTxPdsch cell sid p.dl.mask p.nRbRemainS ue tda alloc }

def PfState.enter (p : PfState κ) (control : κ) (grant : Grant) : PfState κ :=
  { dl := p.dl.enter control grant
    nRbSchedS := p.nRbSchedS + grant.pdsch.rbSize
    nRbRemainS := p.nRbRemainS - grant.pdsch.rbSize }

/-- One turn of the loop over the sorted UEs of a slice. When its condition fails it fails for all later
UEs. -/
def newTxTurn (candidate : UeInfo × Nat)
    (p : PfState κ) : Outcome DlAbort (PfState κ) :=
  let (ue, ueIndex) := candidate
  if ¬ p.goesOn maxRbs then .done p
  else if ue.availableDlHarqHead < 0 then .done p
  else
    let (cceIndex, control) := cell.getCceIndex p.dl.control ue
    if cceIndex < 0 then .done (p.withControl control)
    else
      let (alloc, control) := cell.nrAcknackScheduling control ue cceIndex
      if alloc < 0 then .done (p.withControl control)
      else
        let control := cell.fillPdcchVrbMap control ue cceIndex
        if cell.getDlTda < 0 then .abort .noTda (p.withControl control)
        else
          let tda := cell.getDlTdaInfo ue cell.getDlTda
          if !tda.validTda then .abort .invalidTda (p.withControl control)
          else .done (p.enter control (newTxGrant cell sid ue ueIndex p tda alloc))

def candidates : List (UeInfo × Nat) :=
  (s.ues.zipIdx.filter (fun candidate => candidate.1.eligible cell sid s.remainUes)).map
    (fun candidate => (candidate.1.withMcs cell, candidate.2))

def pfDlSlice : Outcome DlAbort (PfState κ) :=
  let ues := s.ues.map (fun ue =>
    if ue.eligible cell entry.sl.sid s.remainUes then ue.withMcs cell else ue)
  Outcome.loop (newTxTurn cell entry.sl.sid entry.maxPrbs)
    (cell.sortUes (candidates cell entry.sl.sid s)) ⟨{ s with ues := ues }, 0, entry.maxPrbs⟩

def ratioPrbs (ratio : BitVec 8) : Int := (nRbSchedInit * ratio.toNat).tdiv 100

def SlSched.initLimits : SlSched :=
  { entry with
    dediPrbs := ratioPrbs nRbSchedInit entry.sl.spolicy.dedicatedRatio
    minPrbs := ratioPrbs nRbSchedInit entry.sl.spolicy.minRatio
    maxPrbs := nRbSchedInit }

/-- The initialisation loop starts at index 1: the first entry keeps what it held. -/
def initEntries : List SlSched → List SlSched
  | [] => []
  | first :: rest => first :: rest.map (SlSched.initLimits nRbSchedInit)

def otherPrbs : Int :=
  ((others.filter (fun other => other.sl.sid ≠ sid)).map SlSched.minPrbs).sum

def SlSched.limited : SlSched :=
  let maxPrbs := entry.maxPrbs - otherPrbs entry.sl.sid others
  let cap := ratioPrbs nRbSchedInit entry.sl.spolicy.maxRatio
  { entry with maxPrbs := if maxPrbs > cap then cap else maxPrbs }

/-- The loop over the slices. `served` are the entries already scheduled, whose
`min_prbs` has become the number of resource blocks they used. -/
def sliceTurns (cell : DlCell κ) (nRbSchedInit : Int) :
    List SlSched → Int → List SlSched → DlState κ → Outcome DlAbort (DlState κ)
  | _, _, [], s => .done s
  | served, total, entry :: later, s =>
    let entry := entry.limited nRbSchedInit (served ++ later)
    match pfDlSlice cell entry s with
    | .abort reason p =>
      .abort reason { p.dl with calls := p.dl.calls ++ [⟨entry, p.nRbSchedS⟩] }
    | .done p =>
      let s := { p.dl with calls := p.dl.calls ++ [⟨entry, p.nRbSchedS⟩] }
      let total := total + p.nRbSchedS
      if total > nRbSchedInit then .abort .prbViolation s
      else sliceTurns cell nRbSchedInit (served ++ [{ entry with minPrbs := p.nRbSchedS }])
        total later s

def newTxStage :
    Outcome DlAbort (DlState κ) :=
  sliceTurns cell s.nRbSched [] 0 (initEntries s.nRbSched slSched) s

def dlSchedUnit :
    Outcome DlAbort (DlState κ) :=
  (retransmissionStage cell s).andThen (newTxStage cell slSched)

end OranSlice.Mac
