import OranSlice.Mac.UeInfo

/-! The choice of one slice per UE and DL slot, from the active slices of the UE with their RLC buffers
and the parities of the slot number and of the UE's place among those not in failure. -/

namespace OranSlice.Mac

open List

variable (slices : List SliceInfo) (macRlcStatusInd : Nat → RlcStatus) (dl : DlSlot)

/-- The slice a logical channel belongs to: the last slice with its NSSAI, or the
default slice. -/
def sliceIdOf (nssai : Nssai) : Nat :=
  slices.foldl (fun sid slice => if slice.nssai = nssai then slice.sid else sid) 0

def nrStoreDlSliceInfo (ue : UeInfo) : UeInfo :=
  { ue with dlSlInfo := ue.lcConfig.foldl (fun info lc =>
      if ue.heldBack lc.lcid then info
      else Function.update info lc.lcid (sliceIdOf slices lc.nssai)) ue.dlSlInfo }

def UeInfo.activeSlices (ue : UeInfo) : List Nat :=
  (range (maxNumPduSession + 1)).filter (fun sid =>
    decide (0 < ue.lcConfig.countP (fun lc => 0 < ue.dlSlInfo lc.lcid ∧ ue.dlSlInfo lc.lcid = sid)))

def nrGetUeActiveSliceList (ue : UeInfo) : UeInfo :=
  { ue with availSliceList := ⟨0, 0#32⟩ :: ue.activeSlices.map (fun sid => ⟨sid, 0#32⟩) }

def addBytes (sid : Nat) (bytes : BitVec 32) : List AvailSlice → List AvailSlice
  | [] => []
  | entry :: rest =>
    if entry.sid = sid then { entry with bytes := entry.bytes + bytes } :: rest
    else entry :: addBytes sid bytes rest

def storeLcBuffer (ue : UeInfo) (lc : LcConfig) : UeInfo :=
  if ue.heldBack lc.lcid then ue
  else
    let status := macRlcStatusInd lc.lcid
    let ue := { ue with rlcStatus := Function.update ue.rlcStatus lc.lcid status }
    if status.bytesInBuffer = 0#32 then ue
    else
      { ue with
        dlPdusTotal := ue.dlPdusTotal + status.pdusInBuffer.setWidth 16
        numTotalBytes := ue.numTotalBytes + status.bytesInBuffer
        availSliceList := addBytes (ue.dlSlInfo lc.lcid) status.bytesInBuffer ue.availSliceList }

def nrStoreDlschBuffer (ue : UeInfo) : UeInfo :=
  ue.lcConfig.foldl (storeLcBuffer macRlcStatusInd) { ue with numTotalBytes := 0, dlPdusTotal := 0 }

/-- The slice of a UE with two active slices: `preferred` unless only the other one has data. -/
def preferSlice (preferred other : AvailSlice) : Nat :=
  if 0 < preferred.bytes then preferred.sid else other.sid

/-- The `switch` over `num_slice_d`; `none` stands for its two fatal assertions. -/
def sliceForUe (slot ueInd : Nat) : List AvailSlice → Option Nat
  | [] => none
  | [only] => some only.sid
  | [_, first] => some first.sid
  | [_, first, second] =>
    if slot % 2 = 0 ∧ ueInd % 2 = 0 then some (preferSlice first second)
    else if slot % 2 = 0 ∧ ueInd % 2 = 1 then some (preferSlice second first)
    else if slot % 2 = 1 ∧ ueInd % 2 = 0 then some (preferSlice second first)
    else some (preferSlice first second)
  | _ => none

/-- Slice selection over the UE list from index `ueInd` on. UEs in failure keep
their last selection and do not count. -/
def nrSlicePreprocess (slot : Nat) : Nat → List UeInfo → Option (List UeInfo)
  | _, [] => some []
  | ueInd, ue :: rest =>
    if ue.ulFailure then (nrSlicePreprocess slot ueInd rest).map (ue :: ·)
    else
      (sliceForUe slot ueInd ue.availSliceList).bind fun sid =>
        (nrSlicePreprocess slot (ueInd + 1) rest).map
          ({ ue with sliceForThisSched := sid } :: ·)

structure DlSlot where
  slot : Nat
  ues : List UeInfo
  macRlcStatusInd : UeInfo → Nat → RlcStatus

def prepareUe (ue : UeInfo) : UeInfo :=
  nrStoreDlschBuffer (dl.macRlcStatusInd ue) (nrGetUeActiveSliceList (nrStoreDlSliceInfo slices ue))

def selectSlices : Option (List UeInfo) :=
  nrSlicePreprocess dl.slot 0 (dl.ues.map (prepareUe slices dl))

def selectedSlice (position : Nat) : Option Nat :=
  (selectSlices slices dl).bind (fun ues => ues[position]?.map UeInfo.sliceForThisSched)

def activeSlicesIn (ue : UeInfo) : List Nat :=
  (nrStoreDlSliceInfo slices ue).activeSlices

def pendingBytes (ue : UeInfo) (sid : Nat) : Nat :=
  ((ue.lcConfig.filter (fun lc =>
      !ue.heldBack lc.lcid && (nrStoreDlSliceInfo slices ue).dlSlInfo lc.lcid == sid)).map
    (fun lc => (dl.macRlcStatusInd ue lc.lcid).bytesInBuffer.toNat)).sum

structure UeSlot extends DlSlot where
  position : Nat
  ue : UeInfo
  present : ues[position]? = some ue
  connected : ue.ulFailure = false

def UeSlot.ueInd (visit : UeSlot) : Nat :=
  (visit.ues.take visit.position).countP (fun ue => !ue.ulFailure)

def bytesOf (sid : Nat) : List AvailSlice → BitVec 32
  | [] => 0#32
  | entry :: rest => if entry.sid = sid then entry.bytes else bytesOf sid rest

theorem addBytes_sids (sid : Nat) (bytes : BitVec 32) (entries : List AvailSlice) :
    (addBytes sid bytes entries).map AvailSlice.sid = entries.map AvailSlice.sid := by
  induction entries with
  | nil => rfl
  | cons entry rest ih =>
    unfold addBytes
    split
    · rfl
    · simp [ih]

theorem bytesOf_addBytes (target sid : Nat) (bytes : BitVec 32) (entries : List AvailSlice)
    (listed : target ∈ entries.map AvailSlice.sid) :
    bytesOf target (addBytes sid bytes entries) =
      bytesOf target entries + if sid = target then bytes else 0#32 := by
  induction entries with
  | nil => cases listed
  | cons entry rest ih =>
    by_cases here : entry.sid = target
    · subst here
      by_cases added : entry.sid = sid
      · simp [addBytes, bytesOf, added]
      · have other : ¬ sid = entry.sid := fun same => added same.symm
        simp [addBytes, bytesOf, added, other]
    · have later : target ∈ rest.map AvailSlice.sid := by
        rcases mem_cons.mp listed with same | member
        · exact absurd same.symm here
        · exact member
      by_cases added : entry.sid = sid
      · have other : ¬ sid = target := fun same => here (added.trans same)
        simp [addBytes, bytesOf, added, other]
      · simp [addBytes, bytesOf, here, added, ih later]

section StoreBuffer

variable (status : Nat → RlcStatus) (ue : UeInfo) (lc : LcConfig)

@[simp] theorem storeLcBuffer_ulFailure : (storeLcBuffer status ue lc).ulFailure = ue.ulFailure := by
  unfold storeLcBuffer; split <;> [rfl; (dsimp only; split <;> rfl)]

@[simp] theorem storeLcBuffer_dlSlInfo : (storeLcBuffer status ue lc).dlSlInfo = ue.dlSlInfo := by
  unfold storeLcBuffer; split <;> [rfl; (dsimp only; split <;> rfl)]

@[simp] theorem storeLcBuffer_heldBack : (storeLcBuffer status ue lc).heldBack = ue.heldBack := by
  unfold storeLcBuffer; split <;> [rfl; (dsimp only; split <;> rfl)]

@[simp] theorem storeLcBuffer_sids :
    (storeLcBuffer status ue lc).availSliceList.map AvailSlice.sid =
      ue.availSliceList.map AvailSlice.sid := by
  unfold storeLcBuffer
  split
  · rfl
  dsimp only
  split
  · rfl
  · exact addBytes_sids _ _ _

theorem storeLcBuffer_bytesOf (sid : Nat) (listed : sid ∈ ue.availSliceList.map AvailSlice.sid) :
    bytesOf sid (storeLcBuffer status ue lc).availSliceList = bytesOf sid ue.availSliceList +
        if !ue.heldBack lc.lcid && ue.dlSlInfo lc.lcid == sid then (status lc.lcid).bytesInBuffer
        else 0#32 := by
  unfold storeLcBuffer
  cases held : ue.heldBack lc.lcid with
  | true => simp
  | false =>
    by_cases empty : (status lc.lcid).bytesInBuffer = 0#32
    · simp [empty]
    · simp [empty, bytesOf_addBytes sid _ _ _ listed]

end StoreBuffer

section

variable (status : Nat → RlcStatus) (lcs : List LcConfig) (ue : UeInfo)

include status lcs ue

theorem storeBuffers_ulFailure : (lcs.foldl (storeLcBuffer status) ue).ulFailure = ue.ulFailure := by
  induction lcs generalizing ue with
  | nil => rfl
  | cons lc rest ih => rw [foldl_cons, ih, storeLcBuffer_ulFailure]

theorem storeBuffers_sids : (lcs.foldl (storeLcBuffer status) ue).availSliceList.map AvailSlice.sid =
      ue.availSliceList.map AvailSlice.sid := by
  induction lcs generalizing ue with
  | nil => rfl
  | cons lc rest ih => rw [foldl_cons, ih, storeLcBuffer_sids]

theorem storeBuffers_bytesOf (sid : Nat) (listed : sid ∈ ue.availSliceList.map AvailSlice.sid) :
    (bytesOf sid (lcs.foldl (storeLcBuffer status) ue).availSliceList).toNat =
      ((bytesOf sid ue.availSliceList).toNat +
        ((lcs.filter (fun lc => !ue.heldBack lc.lcid && ue.dlSlInfo lc.lcid == sid)).map
          (fun lc => (status lc.lcid).bytesInBuffer.toNat)).sum) % 2 ^ 32 := by
  induction lcs generalizing ue with
  | nil => simp [Nat.mod_eq_of_lt (BitVec.isLt _)]
  | cons lc rest ih =>
    have still : sid ∈ (storeLcBuffer status ue lc).availSliceList.map AvailSlice.sid := by
      rwa [storeLcBuffer_sids]
    rw [foldl_cons, ih _ still, storeLcBuffer_bytesOf status ue lc sid listed, filter_cons]
    split
    · simp [add_assoc]
    · simp

end

section

variable (slices : List SliceInfo) (dl : DlSlot) (ue : UeInfo)

theorem prepareUe_ulFailure : (prepareUe slices dl ue).ulFailure = ue.ulFailure :=
  storeBuffers_ulFailure _ _ _

theorem prepareUe_sids :
    (prepareUe slices dl ue).availSliceList.map AvailSlice.sid =
      0 :: activeSlicesIn slices ue := by
  refine (storeBuffers_sids _ _ _).trans ?_
  simp [nrGetUeActiveSliceList, activeSlicesIn, Function.comp_def]

theorem prepareUe_length :
    (prepareUe slices dl ue).availSliceList.length = (activeSlicesIn slices ue).length + 1 := by
  have sids := congrArg length (prepareUe_sids slices dl ue)
  simpa using sids

end

private theorem bytesOf_fresh (sid : Nat) (sids : List Nat) :
    bytesOf sid (sids.map (fun sid => ⟨sid, 0#32⟩)) = 0#32 := by
  induction sids with
  | nil => rfl
  | cons first rest ih => simp [bytesOf, ih]

theorem prepareUe_bytesOf_listed (slices : List SliceInfo) (dl : DlSlot) (ue : UeInfo) (sid : Nat)
    (listed : sid ∈ 0 :: activeSlicesIn slices ue) :
    (bytesOf sid (prepareUe slices dl ue).availSliceList).toNat =
      pendingBytes slices dl ue sid % 2 ^ 32 := by
  have inList : sid ∈ (nrGetUeActiveSliceList (nrStoreDlSliceInfo slices ue)).availSliceList.map
      AvailSlice.sid := by
    simpa [nrGetUeActiveSliceList, activeSlicesIn] using listed
  have fresh : bytesOf sid
      (nrGetUeActiveSliceList (nrStoreDlSliceInfo slices ue)).availSliceList = 0#32 :=
    bytesOf_fresh sid (0 :: _)
  rw [prepareUe, nrStoreDlschBuffer, storeBuffers_bytesOf]
  · rw [show bytesOf sid _ = 0#32 from fresh]
    simp [pendingBytes, nrGetUeActiveSliceList, nrStoreDlSliceInfo, UeInfo.heldBack]
  · exact inList

theorem prepareUe_bytesOf (slices : List SliceInfo) (dl : DlSlot) (ue : UeInfo) (sid : Nat)
    (active : sid ∈ activeSlicesIn slices ue) :
    (bytesOf sid (prepareUe slices dl ue).availSliceList).toNat =
      pendingBytes slices dl ue sid % 2 ^ 32 :=
  prepareUe_bytesOf_listed slices dl ue sid (mem_cons_of_mem 0 active)

end OranSlice.Mac
