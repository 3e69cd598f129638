import OranSlice.Mac.SlicePolicy

/-! The part of a UE context that DL slice scheduling reads and writes. -/

namespace OranSlice.Mac

structure LcConfig where
  lcid : Nat
  nssai : Nssai
deriving DecidableEq, Repr

structure RlcStatus where
  (bytesInBuffer pdusInBuffer : BitVec 32)
deriving DecidableEq, Repr

/-- An entry of `avail_slice_list`. The list of the model holds its first
`num_slice_d` entries; the others are marked invalid and never read. -/
structure AvailSlice where
  sid : Nat
  bytes : BitVec 32
deriving DecidableEq, Repr

structure TdaInfo where
  validTda : Bool
  (startSymbolIndex nrOfSymbols : Nat)
deriving DecidableEq, Repr

structure DmrsParms where
  (nPrbDmrs nDmrsSlot : Nat)
deriving DecidableEq, Repr

structure SchedPdsch where
  (rbSize rbStart mcs r qm tbSize : Nat := 0)
  (dlHarqPid pucchAllocation : Int := 0)
  (pmIndex nrOfLayers : Nat := 0)
  dmrsParms : DmrsParms := ⟨0, 0⟩
  timeDomainAllocation : Int := 0
  tdaInfo : TdaInfo := ⟨false, 0, 0⟩
deriving DecidableEq, Repr

/-- An active DL BWP, with the time-domain allocation lists of its PDSCH configuration and
of the cell as the SLIV values of their entries. -/
structure DlBwp where
  (bwpSize bwpStart mcsTableIdx : Nat := 0)
  dciFormat10 : Bool := false
  (pdschTdaList tdaListCommon : Option (List Nat) := none)
deriving DecidableEq, Repr

/-- A UE context. Contexts are zero-initialised when they are created. -/
structure UeInfo where
  rnti : Nat
  (msg4Acked ulFailure : Bool := false)
  lcConfig : List LcConfig := []
  rrcProcessingTimer : Nat := 0
  dlSlInfo : Nat → Nat := fun _ => 0
  rlcStatus : Nat → RlcStatus := fun _ => ⟨0, 0⟩
  availSliceList : List AvailSlice := []
  sliceForThisSched : Nat := 0
  numTotalBytes : BitVec 32 := 0
  dlPdusTotal : BitVec 16 := 0
  alreadySched : Bool := false
  taFrame : Nat := 0
  availableDlHarqHead : Int := 0
  retransDlHarqHead : Int := -1
  harqPdsch : Nat → SchedPdsch := fun _ => {}
  schedPdsch : SchedPdsch := {}
  currentDlBwp : DlBwp := {}
  searchSpaceCommon : Bool := false
  (coresetId initialDlBwpStart initialDlBwpSize dlBlerLastFrame dlBlerMcs : Nat := 0)

def dlSchLcidDtch : Nat := 4

def maxNumPduSession : Nat := 8

/-- The first DRB is left out while the RRC processing timer runs. -/
def UeInfo.heldBack (ue : UeInfo) (lcid : Nat) : Bool :=
  lcid == dlSchLcidDtch && decide (0 < ue.rrcProcessingTimer)

end OranSlice.Mac
