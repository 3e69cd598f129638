import OranSlice.Mac.UlCell

/-! Proportional fair UL scheduling of one slot: retransmissions and grants without data in the order of
the UE list, then data in that of the coefficients. -/

namespace OranSlice.Mac

open FreeRun

variable {κ : Type}

variable (cell : UlCell κ) (ueIndex : Nat) (ue : UlUe) (pusch : PuschAlloc) (tda : Nat) (s : UlState κ)
  (rbStart maxRbSize : Nat)

def UlUe.retInfo : PuschAlloc := ue.harqPusch ue.retransUlHarqHead.toNat

/-- With the old time-domain allocation, as many resource blocks as before from the first
free one on. Only the end of the BWP is checked. -/
def sameTdaPlan (mask : RbMask) (ue : UlUe) : Option (Nat × PuschAlloc) :=
  let rbStart := firstFreeRb mask ue.retInfo.tdaInfo ue.currentUlBwp.bwpSize
  if ue.currentUlBwp.bwpSize < rbStart + ue.retInfo.rbSize then none else some (rbStart, ue.retInfo)

def firstRunSize (mask : RbMask) (tda : TdaInfo) (bwpSize : Nat) : Nat :=
  run (mask.isFree tda.bitmap) (bwpSize - firstFreeRb mask tda bwpSize) (firstFreeRb mask tda bwpSize)

def changedTdaFormat : PuschAlloc :=
  { ue.retInfo with
    timeDomainAllocation := tda
    dmrsInfo := cell.getUlDmrsParams ue tda ue.retInfo.nrOfLayers
    tdaInfo := cell.getUlTdaInfo ue tda }

/-- With another time-domain allocation, a number of resource blocks of the first free run
that gives exactly the old transport block size. -/
def changedTdaPlan (mask : RbMask) (ue : UlUe) (tda : Nat) :
    Option (Nat × PuschAlloc) :=
  let changed := changedTdaFormat cell ue tda
  let found := nrFindNbRb changed.tbsParams ue.currentUlBwp.transformPrecoding changed.tbSize 1
    (firstRunSize mask changed.tdaInfo ue.currentUlBwp.bwpSize)
  if !found.fits || found.tbs != changed.tbSize then none
  else some (firstFreeRb mask changed.tdaInfo ue.currentUlBwp.bwpSize,
    { changed with tbSize := found.tbs, rbSize := found.nbRb })

def UlState.setRetInfo (ueIndex harqPid : Nat) (retInfo : PuschAlloc) : UlState κ :=
  { s with ues := s.ues.modify ueIndex (fun ue =>
      { ue with harqPusch := Function.update ue.harqPusch harqPid retInfo }) }

/-- A planned retransmission is granted when a CCE is found. The counter keeps its value: what is
decreased here is the pointer to it. -/
def grantUlRetransmission (kind : PuschGrantKind)
    (tda rbStart : Nat) (retInfo : PuschAlloc) (s : UlState κ) : UlState κ :=
  let harqPid := ue.retransUlHarqHead.toNat
  let (cceIndex, control) := cell.getCceIndex s.control ue
  if cceIndex < 0 then { s.setRetInfo ueIndex harqPid retInfo with control := control }
  else
    let retInfo := { retInfo with frame := ue.schedPusch.frame, slot := ue.schedPusch.slot }
    (s.setRetInfo ueIndex harqPid retInfo).enter (cell.fillPdcchVrbMap control ue cceIndex)
      { ueIndex := ueIndex, ue := ue, kind := kind, tda := tda, maskBefore := s.mask
        pusch := { retInfo with rbStart := rbStart } }

def allocateUlRetransmission : Outcome UlAbort (UlState κ) :=
  let tdaInfo := cell.getUlTdaInfo ue tda
  if !tdaInfo.validTda then .done s
  else if reuseOldTda ue.retInfo.tdaInfo tdaInfo then
    match sameTdaPlan s.mask ue with
    | none => .done s
    | some (rbStart, retInfo) =>
      .done (grantUlRetransmission cell ueIndex ue .sameTda tda rbStart retInfo s)
  else if ue.currentUlBwp.transformPrecoding &&
      firstRunSize s.mask tdaInfo ue.currentUlBwp.bwpSize == 0 then
    -- `multiple_2_3_5` divides 0 by 2 for ever
    .abort .endlessLoop s
  else
    match changedTdaPlan cell s.mask ue tda with
    | none => .done s
    | some (rbStart, retInfo) =>
      .done (grantUlRetransmission cell ueIndex ue .changedTda tda rbStart retInfo s)

def newPusch : PuschAlloc :=
  { ue.schedPusch with
    nrOfLayers := ue.ulRi + 1
    timeDomainAllocation := tda
    tdaInfo := cell.getUlTdaInfo ue tda
    dmrsInfo := cell.getUlDmrsParams ue tda (ue.ulRi + 1) }

def sizedPusch (rbSize tbSize : Nat) :
    PuschAlloc :=
  { pusch with
    rbStart := rbStart
    rbSize := rbSize
    tbSize := tbSize
    phrTxpowerCalc := cell.computePhFactor ue pusch (tbSize * 8) rbSize false }

def noDataPusch : PuschAlloc :=
  let pusch := newPusch cell ue tda
  let pusch := cell.withMcs ue pusch (min cell.minGrantMcs pusch.mcs)
  sizedPusch cell ue pusch rbStart cell.minGrantPrb (pusch.tbsParams.tbs cell.minGrantPrb)

/-- A grant without data, when a CCE and the minimum number of resource blocks are found.
Only the end of the BWP is checked. -/
def allocateNoData :
    Outcome UlAbort (UlState κ) :=
  let (cceIndex, control) := cell.getCceIndex s.control ue
  if cceIndex < 0 then .done { s with control := control }
  else
    let tda := cell.getUlTda s.ues ue.schedPusch.frame ue.schedPusch.slot
    let pusch := newPusch cell ue tda
    let s := { s.setPusch ueIndex pusch with control := control }
    if !pusch.tdaInfo.validTda then .abort .invalidTda s
    else
      let rbStart := firstFreeRb s.mask pusch.tdaInfo ue.currentUlBwp.bwpSize
      if ue.currentUlBwp.bwpSize ≤ rbStart + cell.minGrantPrb then .done s
      else
        .done (UlState.enter { s with nRbSched := s.nRbSched - cell.minGrantPrb }
          (cell.fillPdcchVrbMap control ue cceIndex)
          { ueIndex := ueIndex, ue := ue, kind := .noData, tda := tda, maskBefore := s.mask
            pusch := noDataPusch cell ue tda rbStart })

/-- The most resource blocks that data may take: the free run, of which the first block is
counted unseen. -/
def dataMaxRbSize (mask : RbMask) (tda : TdaInfo) (bwpSize rbStart : Nat) : Nat :=
  1 + run (mask.isFree tda.bitmap) (bwpSize - (rbStart + 1)) (rbStart + 1)

def UlUe.hasHeadroom : Bool := ue.pcmax != 0 || ue.ph != 0

def dataLimits : Nat × Nat :=
  if ue.hasHeadroom then cell.nrUeMaxMcsMinRb ue pusch maxRbSize pusch.mcs else (maxRbSize, pusch.mcs)

def dataPusch : PuschAlloc :=
  let limits := dataLimits cell ue (newPusch cell ue tda) maxRbSize
  let pusch := cell.withMcs ue (newPusch cell ue tda) limits.2
  let found := nrFindNbRb pusch.tbsParams ue.currentUlBwp.transformPrecoding ue.demand
    cell.minGrantPrb limits.1
  sizedPusch cell ue pusch rbStart found.nbRb found.tbs

def allocateData :
    Outcome UlAbort (UlState κ) :=
  let (cceIndex, control) := cell.getCceIndex s.control ue
  if cceIndex < 0 then .done { s with control := control }
  else
    let tda := cell.getUlTda s.ues ue.schedPusch.frame ue.schedPusch.slot
    let pusch := newPusch cell ue tda
    let rbStart := firstFreeRb s.mask pusch.tdaInfo ue.currentUlBwp.bwpSize
    let maxRbSize := dataMaxRbSize s.mask pusch.tdaInfo ue.currentUlBwp.bwpSize rbStart
    let s := { s.setPusch ueIndex { pusch with rbStart := rbStart } with control := control }
    if !pusch.tdaInfo.validTda then .abort .invalidTda s
    else if ue.currentUlBwp.bwpSize ≤ rbStart + cell.minGrantPrb ∨ maxRbSize < cell.minGrantPrb then
      .done s
    else if ue.hasHeadroom && decide (28 < pusch.mcs) then .abort .illegalMcs s
    else
      let pusch := dataPusch cell ue tda rbStart maxRbSize
      .done (UlState.enter { s with nRbSched := s.nRbSched - pusch.rbSize }
        (cell.fillPdcchVrbMap control ue cceIndex)
        { ueIndex := ueIndex, ue := ue, kind := .data, tda := tda, maskBefore := s.mask
          pusch := pusch })

def ulListTurn : Outcome UlAbort (UlState κ) :=
  match s.ues[ueIndex]? with
  | none => .done s
  | some ue =>
    if !ue.msg4Acked || ue.ulFailure then .done s
    else if s.remainUes = 0 then .done s
    else
      let ue := { ue with schedPusch := { ue.schedPusch with ulHarqPid := ue.retransUlHarqHead } }
      let s := s.setPusch ueIndex ue.schedPusch
      if 0 ≤ ue.retransUlHarqHead then
        let tda := cell.getUlTda s.ues ue.schedPusch.frame ue.schedPusch.slot
        allocateUlRetransmission cell ueIndex ue tda s
      else if ue.availableUlHarqHead < 0 then .done s
      else
        let doSched := cell.nrUeIsToBeScheduled ue
        if (ue.demand == 0 && !doSched) || decide (0 < ue.rrcProcessingTimer) then .done s
        else
          let ue := { ue with schedPusch := { ue.schedPusch with mcs := cell.getMcs ue } }
          let s := s.setPusch ueIndex ue.schedPusch
          if ue.demand == 0 && doSched then allocateNoData cell ueIndex ue s
          else .done { s with ready := s.ready ++ [ueIndex] }

def ulDataTurn : Outcome UlAbort (UlState κ) :=
  match s.ues[ueIndex]? with
  | none => .done s
  | some ue =>
    if 0 < s.remainUes ∧ (cell.minGrantPrb : Int) ≤ s.nRbSched then allocateData cell ueIndex ue s
    else .done s

def ulStart (ues : List UlUe) (control : κ) (maxNumUe : Nat) (nRbSched : Int) (mask : RbMask) :
    UlState κ :=
  ⟨ues, control, mask, nRbSched, maxNumUe, [], []⟩

def pfUl : Outcome UlAbort (UlState κ) :=
  (Outcome.loop (ulListTurn cell) (List.range s.ues.length) s).andThen fun s =>
    Outcome.loop (ulDataTurn cell) (cell.sortUes s.ready) s

/-- The longest run of free resource blocks, as its length and its last block; the block
after a run is skipped. -/
def longestRun (free : Nat → Bool) (bwpSize : Nat) : Nat → Nat → Nat × Nat → Nat × Nat
  | 0, _, best => best
  | fuel + 1, i, best =>
    if i < bwpSize then
      let st := skip free (bwpSize - i) i
      let size := run free (bwpSize - st) st
      longestRun free bwpSize fuel (st + size + 1) (if best.1 < size then (size, st + size - 1) else best)
    else best

def UlCell.getK2 (tdaList : List UlTdaEntry) (tda scs : Nat) : Option Nat :=
  (tdaList[tda]?).map fun entry => entry.k2.getD (if scs < 2 then 1 else if scs = 2 then 2 else 3) +
    cell.ntnKoffset

/-- What `nr_fr1_ulsch_preprocessor` has: a list of UEs that is not empty, the map of the
scheduled slot, and the memory behind `rballoc_mask`. -/
structure UlInput (κ : Type) where
  cell : UlCell κ
  first : UlUe
  others : List UlUe
  control : κ
  (vrbMapUl behind : Nat → BitVec 16)
  tdaList : List UlTdaEntry
  known : first.getUlTdalist = some tdaList

namespace UlInput

variable (input : UlInput κ)

def bwpSize : Nat := input.first.currentUlBwp.bwpSize

variable (frame : Nat) (time : Nat × Nat) (slot : Nat)

def tdaAt : Nat :=
  input.cell.getUlTda (input.first :: input.others) frame slot

def k2At : Option Nat :=
  input.cell.getK2 input.tdaList (input.tdaAt frame slot) input.first.currentUlBwp.scs

def schedTime (k2 : Nat) : Nat × Nat :=
  let n := nrSlotsPerFrame input.first.currentUlBwp.scs
  ((input.cell.frame + (input.cell.slot + k2) / n) % 1024, (input.cell.slot + k2) % n)

def ues : List UlUe :=
  (input.first :: input.others).map fun ue =>
    { ue with schedPusch := { ue.schedPusch with frame := time.1, slot := time.2 } }

def tdaInfo : TdaInfo :=
  setTdaInfoFromList (input.tdaList.map UlTdaEntry.startSymbolAndLength) (input.tdaAt time.1 time.2)

def unblocked (rb : Nat) : Bool :=
  input.vrbMapUl (input.first.currentUlBwp.bwpStart + rb) &&& (input.tdaInfo time).bitmap == 0

def longest (time : Nat × Nat) : Nat × Nat :=
  longestRun (input.unblocked time) input.bwpSize input.bwpSize 0 (0, 0)

/-- `rballoc_mask`: only the longest run is free. -/
def mask : RbMask := fun rb =>
  if rb < input.bwpSize then
    let (len, e) := input.longest time
    if e + 1 - len ≤ rb ∧ rb ≤ e then (input.tdaInfo time).bitmap else 0
  else input.behind rb

def maxNumUe : Nat := min (input.cell.carrierBandwidth / (4 * 6)) 8

def start : UlState κ :=
  ulStart (input.ues time) input.control input.maxNumUe (input.longest time).1 (input.mask time)

/-- `nr_fr1_ulsch_preprocessor`: nothing is scheduled unless the slot has an uplink. -/
def nrFr1UlschPreprocessor : Option (Outcome UlAbort (UlState κ)) :=
  (input.k2At input.cell.frame input.cell.slot).bind fun k2 =>
    let time := input.schedTime k2
    if input.k2At time.1 time.2 ≠ some k2 then some (.abort .differentK2 (input.start time))
    else if !input.cell.ulschSlotBitmap time.2 then none
    else some (pfUl input.cell (input.start time))

end UlInput

end OranSlice.Mac
