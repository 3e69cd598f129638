import OranSlice.Mac.DlRetransmission
import OranSlice.Mac.SlotTime

/-! The surroundings and the state of UL scheduling in one slot. -/

namespace OranSlice.Mac

open FreeRun

structure PuschDmrs where
  (nPrbDmrs numDmrsSymb : Nat)
deriving DecidableEq, Repr

structure PuschAlloc where
  (frame slot rbSize rbStart mcs r qm tbSize : Nat := 0)
  ulHarqPid : Int := 0
  (nrOfLayers timeDomainAllocation : Nat := 0)
  tdaInfo : TdaInfo := ⟨false, 0, 0⟩
  dmrsInfo : PuschDmrs := ⟨0, 0⟩
  phrTxpowerCalc : Int := 0
deriving DecidableEq, Repr

structure UlTdaEntry where
  startSymbolAndLength : Nat
  k2 : Option Nat := none
deriving DecidableEq, Repr

structure UlBwp where
  (scs bwpSize bwpStart : Nat := 0)
  transformPrecoding : Bool := false
  mcsTable : Nat := 0
  tpPi2Bpsk : Bool := false
  (puschTdaList tdaListCommon : Option (List UlTdaEntry) := none)
deriving DecidableEq, Repr

structure UlUe where
  rnti : Nat
  (msg4Acked ulFailure : Bool := false)
  retransUlHarqHead : Int := -1
  availableUlHarqHead : Int := 0
  harqPusch : Nat → PuschAlloc := fun _ => {}
  schedPusch : PuschAlloc := {}
  schedSrs : Option (Nat × Nat) := none
  currentUlBwp : UlBwp := {}
  searchSpaceCommon : Bool := false
  coresetId : Nat := 0
  (estimatedUlBuffer schedUlBytes : Int := 0)
  sr : Bool := false
  (lastUlFrame lastUlSlot rrcProcessingTimer ulRi : Nat := 0)
  (pcmax ph : Int := 0)

structure UlTdd where
  (nrofDownlinkSlots nrofUplinkSlots nrofUplinkSymbols nbPeriodsPerFrame : Nat)
deriving DecidableEq, Repr

/-- The cell in one slot: configuration and the decisions of parts of the MAC that are not modelled,
over a state `κ` of the control channels. `sortUes` is the order that `qsort` leaves. -/
structure UlCell (κ : Type) where
  (frame slot ssbSubcarrierSpacing : Nat)
  tdd : Option UlTdd
  (carrierBandwidth minGrantPrb minGrantMcs ulschMaxFrameInactivity ntnKoffset : Nat)
  ulschSlotBitmap : Nat → Bool
  getInfoFromTdaTables : UlUe → Nat → TdaInfo
  getUlDmrsParams : UlUe → Nat → Nat → PuschDmrs
  getMcs : UlUe → Nat
  (nrGetCodeRateUl nrGetQmUl : Nat → Nat → Nat)
  computePhFactor : UlUe → PuschAlloc → Nat → Nat → Bool → Int
  getCceIndex : κ → UlUe → Int × κ
  fillPdcchVrbMap : κ → UlUe → Int → κ
  sortUes : List Nat → List Nat
  sortUes_perm : ∀ ues, (sortUes ues).Perm ues

variable {κ : Type}

variable (cell : UlCell κ) (ue : UlUe) (pusch : PuschAlloc) (rb mcs : Nat)

/-- The time-domain allocation of a slot: another one in the mixed slot of a TDD pattern
and in slots with an SRS of some UE. -/
def UlCell.getUlTda (ues : List UlUe) (frame slot : Nat) : Nat :=
  let mixed := match cell.tdd with
    | none => false
    | some tdd =>
      decide (1 < tdd.nrofUplinkSymbols) &&
        slot % (tdd.nrofDownlinkSlots + tdd.nrofUplinkSlots + 1) == tdd.nrofDownlinkSlots
  if mixed then 2
  else if ues.any (fun ue => ue.schedSrs == some (frame, slot)) then 1
  else 0

def UlUe.getUlTdalist : Option (List UlTdaEntry) :=
  if !(ue.searchSpaceCommon && ue.coresetId == 0) && ue.currentUlBwp.puschTdaList.isSome then
    ue.currentUlBwp.puschTdaList
  else ue.currentUlBwp.tdaListCommon

def UlCell.getUlTdaInfo (tda : Nat) : TdaInfo :=
  match ue.getUlTdalist with
  | some tdaList => setTdaInfoFromList (tdaList.map UlTdaEntry.startSymbolAndLength) tda
  | none => cell.getInfoFromTdaTables ue tda

def PuschAlloc.tbsParams : TbsParams :=
  ⟨pusch.qm, pusch.r, pusch.nrOfLayers, pusch.tdaInfo.nrOfSymbols,
    pusch.dmrsInfo.nPrbDmrs * pusch.dmrsInfo.numDmrsSymb⟩

def UlCell.updateUlUeRQm : Nat × Nat :=
  let table := ue.currentUlBwp.mcsTable
  let r := cell.nrGetCodeRateUl mcs table
  let qm := cell.nrGetQmUl mcs table
  if ue.currentUlBwp.tpPi2Bpsk && (table == 3 && decide (mcs < 2) || table == 4 && decide (mcs < 6)) then
    (r / 2, qm * 2)
  else (r, qm)

def UlCell.withMcs : PuschAlloc :=
  { pusch with
    mcs := mcs
    r := (cell.updateUlUeRQm ue mcs).1
    qm := (cell.updateUlUeRQm ue mcs).2 }

def UlCell.txPower : Int :=
  cell.computePhFactor ue pusch (nrComputeTbs (cell.withMcs ue pusch mcs).tbsParams rb 0 0) rb true

def lowerRb (power : Nat → Int) (phLimit : Int) (minRb : Nat) : Nat → Nat
  | 0 => 0
  | rb + 1 =>
    if phLimit < power (rb + 1) ∧ minRb < rb + 1 then lowerRb power phLimit minRb rb else rb + 1

def lowerMcs (power : Nat → Int) (phLimit : Int) : Nat → Nat
  | 0 => 0
  | mcs + 1 => if phLimit < power (mcs + 1) then lowerMcs power phLimit mcs else mcs + 1

def UlCell.nrUeMaxMcsMinRb :
    Nat × Nat :=
  let rb := lowerRb (fun rb => cell.txPower ue pusch rb mcs) ue.ph cell.minGrantPrb rb
  (rb, lowerMcs (fun mcs => cell.txPower ue pusch rb mcs) ue.ph mcs)

def UlUe.demand : Nat := (ue.estimatedUlBuffer - ue.schedUlBytes).toNat

/-- A UE is to be scheduled with data, on a scheduling request, or after a time without
uplink. The time is compared as unsigned. -/
def UlCell.nrUeIsToBeScheduled : Bool :=
  let n := nrSlotsPerFrame cell.ssbSubcarrierSpacing
  let now : Int := ue.schedPusch.frame * n + ue.schedPusch.slot
  let (numSlotsPerPeriod, lastUlSlot) := match cell.tdd with
    | some tdd => (n / tdd.nbPeriodsPerFrame, 1 + tdd.nrofDownlinkSlots)
    | none => (n, ue.lastUlSlot)
  let lastUlSched : Int := ue.lastUlFrame * n + lastUlSlot
  let diff := (now - lastUlSched + 1024 * n).tmod (1024 * n)
  let limit := if 0 < cell.ulschMaxFrameInactivity then cell.ulschMaxFrameInactivity * n
    else numSlotsPerPeriod
  decide (ue.schedUlBytes < ue.estimatedUlBuffer) || ue.sr || decide ((limit : Int) ≤ diff % 2 ^ 32)

/-- The four grants of `pf_ul`: a retransmission with the old time-domain allocation or another one, a
grant without data, and one for data. -/
inductive PuschGrantKind where
  | sameTda
  | changedTda
  | noData
  | data
deriving DecidableEq, Repr

structure PuschGrant where
  ueIndex : Nat
  ue : UlUe
  kind : PuschGrantKind
  tda : Nat
  maskBefore : RbMask
  pusch : PuschAlloc

inductive UlAbort where
  | invalidTda
  | illegalMcs
  | endlessLoop
  | differentK2
deriving DecidableEq, Repr

structure UlState (κ : Type) where
  ues : List UlUe
  control : κ
  mask : RbMask
  nRbSched : Int
  remainUes : Nat
  ready : List Nat
  grants : List PuschGrant

def UlState.enter (s : UlState κ) (control : κ) (grant : PuschGrant) : UlState κ :=
  { s with
    ues := s.ues.modify grant.ueIndex (fun ue => { ue with schedPusch := grant.pusch })
    control := control
    mask := s.mask.toggle grant.pusch.tdaInfo.bitmap grant.pusch.rbStart grant.pusch.rbSize
    remainUes := s.remainUes - 1
    grants := s.grants ++ [grant] }

def UlState.setPusch (s : UlState κ) (ueIndex : Nat) (pusch : PuschAlloc) : UlState κ :=
  { s with ues := s.ues.modify ueIndex (fun ue => { ue with schedPusch := pusch }) }

def firstFreeRb (mask : RbMask) (tda : TdaInfo) (bwpSize : Nat) : Nat :=
  skip (mask.isFree tda.bitmap) bwpSize 0

theorem lowerRb_bounds (power : Nat → Int) (phLimit : Int) {minRb rb : Nat} (enough : minRb ≤ rb) :
    minRb ≤ lowerRb power phLimit minRb rb ∧ lowerRb power phLimit minRb rb ≤ rb := by
  induction rb with
  | zero => exact ⟨enough, le_refl 0⟩
  | succ rb ih =>
    unfold lowerRb
    split
    · omega
    · omega

end OranSlice.Mac
