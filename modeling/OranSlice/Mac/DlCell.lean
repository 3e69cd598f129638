import OranSlice.Core.FreeRun
import OranSlice.Core.Outcome
import OranSlice.Mac.Tbs
import OranSlice.Mac.UeInfo

/-! The surroundings and the state of DL scheduling in one slot. -/

namespace OranSlice.Mac

def slToBitmap (startSymbolIndex nrOfSymbols : Nat) : BitVec 16 :=
  ((1#16 <<< nrOfSymbols) - 1#16) <<< startSymbolIndex

def TdaInfo.bitmap (tda : TdaInfo) : BitVec 16 := slToBitmap tda.startSymbolIndex tda.nrOfSymbols

def sliv2Sl (sliv : Nat) : Nat × Nat :=
  if sliv / 14 ≤ 13 - sliv % 14 then (sliv % 14, sliv / 14 + 1)
  else (13 - sliv % 14, 15 - sliv / 14)

def setTdaInfoFromList (tdalist : List Nat) (tdaIndex : Int) : TdaInfo :=
  if tdaIndex < tdalist.length then
    let (s, l) := sliv2Sl (tdalist.getD tdaIndex.toNat 0)
    ⟨true, s, l⟩
  else ⟨false, 0, 0⟩

def UeInfo.getDlTdalist (ue : UeInfo) : Option (List Nat) :=
  if !(ue.searchSpaceCommon && ue.coresetId == 0) && ue.currentDlBwp.pdschTdaList.isSome then
    ue.currentDlBwp.pdschTdaList
  else ue.currentDlBwp.tdaListCommon

/-- `rballoc_mask`: the free symbols of each resource block. Positions outside the
BWP stand for whatever the memory behind the array holds. -/
abbrev RbMask := Nat → BitVec 16

def RbMask.isFree (mask : RbMask) (bitmap : BitVec 16) (rb : Nat) : Bool :=
  (mask rb &&& bitmap) == bitmap

def RbMask.toggle (mask : RbMask) (bitmap : BitVec 16) (rbStart rbSize : Nat) : RbMask :=
  fun rb => if rbStart ≤ rb ∧ rb < rbStart + rbSize then mask rb ^^^ bitmap else mask rb

/-- One entry of `SL_sched`. All fields but `prb_est` and `SL` are uninitialised when
`dl_sched_unit` is called. -/
structure SlSched where
  (prbEst dediPrbs minPrbs maxPrbs : Int)
  sl : SliceInfo
deriving DecidableEq, Repr

structure TddPattern where
  (nrofDownlinkSlots nrofDownlinkSymbols nrofUplinkSlots : Nat)
deriving DecidableEq, Repr

/-- The cell in one slot: configuration and the decisions of parts of the MAC that are not modelled,
over a state `κ` of the control channels. `qsort` leaves any order that its comparison admits. -/
structure DlCell (κ : Type) where
  (frame slot carrierBandwidth cset0BwpStart cset0BwpSize : Nat)
  tdd : Option TddPattern
  schedCsirs : Nat
  getInfoFromTdaTables : UeInfo → Int → TdaInfo
  getDlDmrsParams : UeInfo → TdaInfo → Nat → DmrsParms
  (getMcs getDlNrOfLayers : UeInfo → Nat)
  getPmIndex : UeInfo → Nat → Nat
  (nrGetQmDl nrGetCodeRateDl : Nat → Nat → Nat)
  getCceIndex : κ → UeInfo → Int × κ
  nrAcknackScheduling : κ → UeInfo → Int → Int × κ
  fillPdcchVrbMap : κ → UeInfo → Int → κ
  sortUes : List (UeInfo × Nat) → List (UeInfo × Nat)
  sortUes_perm : ∀ ues, (sortUes ues).Perm ues
  sortSlices : List SlSched → List SlSched
  sortSlices_perm : ∀ entries, (sortSlices entries).Perm entries
  sortSlices_sorted : ∀ entries, (sortSlices entries).Pairwise (fun a b => a.prbEst ≤ b.prbEst)

structure Grant where
  ueIndex : Nat
  ue : UeInfo
  sid : Option Nat
  maskBefore : RbMask
  nRbSchedBefore : Int
  remain : Int
  pdsch : SchedPdsch

structure SliceCall where
  entry : SlSched
  used : Int

inductive DlAbort where
  | noTda
  | invalidTda
  | prbViolation
deriving DecidableEq, Repr

structure DlState (κ : Type) where
  ues : List UeInfo
  control : κ
  mask : RbMask
  nRbSched : Int
  remainUes : Nat
  grants : List Grant
  calls : List SliceCall

variable {κ : Type}

/-- The time-domain allocation of the slot: a special one with CSI-RS, and another in the
mixed slot of a TDD pattern. -/
def DlCell.getDlTda (cell : DlCell κ) : Int :=
  if 0 < cell.schedCsirs then 1
  else
    match cell.tdd with
    | none => 0
    | some tdd =>
      if 1 < tdd.nrofDownlinkSymbols ∧
          cell.slot % (tdd.nrofDownlinkSlots + tdd.nrofUplinkSlots + 1) = tdd.nrofDownlinkSlots then
        2
      else 0

def DlCell.getDlTdaInfo (cell : DlCell κ) (ue : UeInfo) (tdaIndex : Int) : TdaInfo :=
  match ue.getDlTdalist with
  | some tdalist => setTdaInfoFromList tdalist tdaIndex
  | none => cell.getInfoFromTdaTables ue tdaIndex

/-- The resource blocks a UE may use: the first one, and the one after `rbStop`. -/
def getStartStopAllocation (cell : DlCell κ) (ue : UeInfo) : Nat × Nat :=
  if ue.searchSpaceCommon && ue.currentDlBwp.dciFormat10 then
    if cell.cset0BwpSize ≠ 0 then (cell.cset0BwpStart, cell.cset0BwpStart + cell.cset0BwpSize)
    else (ue.initialDlBwpStart, ue.initialDlBwpStart + ue.initialDlBwpSize)
  else (0, ue.currentDlBwp.bwpSize)

def DlState.enter (s : DlState κ) (control : κ) (grant : Grant) : DlState κ :=
  { s with
    ues := s.ues.modify grant.ueIndex (fun ue => { ue with schedPdsch := grant.pdsch })
    control := control
    mask := s.mask.toggle grant.pdsch.tdaInfo.bitmap grant.pdsch.rbStart grant.pdsch.rbSize
    nRbSched := s.nRbSched - grant.pdsch.rbSize
    remainUes := s.remainUes - 1
    grants := s.grants ++ [grant] }

def MaskChain : RbMask → List Grant → RbMask → Prop
  | mask, [], last => last = mask
  | mask, grant :: rest, last =>
    grant.maskBefore = mask ∧
      MaskChain (mask.toggle grant.pdsch.tdaInfo.bitmap grant.pdsch.rbStart grant.pdsch.rbSize) rest last

theorem MaskChain.append {mask middle last : RbMask} {front back : List Grant}
    (first : MaskChain mask front middle) (second : MaskChain middle back last) :
    MaskChain mask (front ++ back) last := by
  induction front generalizing mask with
  | nil =>
    cases first
    exact second
  | cons grant rest ih => exact ⟨first.1, ih first.2⟩

end OranSlice.Mac
