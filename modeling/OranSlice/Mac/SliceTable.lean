import OranSlice.Mac.DlCell
import OranSlice.Mac.SliceSelect

/-! The passes over the slice table for each UE, and the estimate of the resource blocks of each slice. -/

namespace OranSlice.Mac

open Walk List

def storeLcSlice (table : SlicePointers) (ue : UeInfo) (info : Nat → Nat) (lc : LcConfig) :
    Except Fault (Nat → Nat) :=
  if ue.heldBack lc.lcid then .ok info
  else do
    let slices ← slIterator table
    return Function.update info lc.lcid (sliceIdOf slices lc.nssai)

def prepareUeIn (table : SlicePointers) (dl : DlSlot) (ue : UeInfo) : Except Fault UeInfo := do
  let info ← ue.lcConfig.foldlM (storeLcSlice table ue) ue.dlSlInfo
  return nrStoreDlschBuffer (dl.macRlcStatusInd ue) (nrGetUeActiveSliceList { ue with dlSlInfo := info })

def prepareUesIn (table : SlicePointers) (dl : DlSlot) : Except Fault (List UeInfo) :=
  dl.ues.mapM (prepareUeIn table dl)

def selectSlicesIn (table : SlicePointers) (dl : DlSlot) : Except Fault (Option (List UeInfo)) :=
  (prepareUesIn table dl).map (nrSlicePreprocess dl.slot 0)

variable (cell : DlCell κ) (ues : List UeInfo) (sid : Nat) (ue : UeInfo)

def UeInfo.selectedBytes : BitVec 32 :=
  ue.availSliceList.foldl (fun bytes entry => if entry.sid = ue.sliceForThisSched then entry.bytes else bytes) 0

variable {κ : Type}

/-- The resource blocks that a UE adds to the estimate of a slice. The time-domain allocation is that of a UE-specific
search space. -/
def DlCell.estimateUe : Nat :=
  if ue.msg4Acked = false ∨ ue.ulFailure = true ∨ ue.sliceForThisSched ≠ sid ∨ ue.selectedBytes = 0 then 0
  else
    let bwpSize := if ue.coresetId = 0 then cell.cset0BwpSize else ue.currentDlBwp.bwpSize
    let mcs := if ue.dlBlerLastFrame = 0 ∧ ue.dlBlerMcs = 0 then 9 else ue.dlBlerMcs
    let layers := cell.getDlNrOfLayers ue
    let tda := cell.getDlTdaInfo { ue with searchSpaceCommon := false } cell.getDlTda
    let dmrs := cell.getDlDmrsParams ue tda layers
    let params : TbsParams :=
      { qm := cell.nrGetQmDl mcs ue.currentDlBwp.mcsTableIdx
        r := cell.nrGetCodeRateDl mcs ue.currentDlBwp.mcsTableIdx
        nrOfLayers := layers
        nbSymbSch := tda.nrOfSymbols
        nbDmrsPrb := dmrs.nPrbDmrs * dmrs.nDmrsSlot }
    (nrFindNbRb params false (ue.selectedBytes + 12).toNat 5 bwpSize).nbRb

def DlCell.estimateSlice : Int :=
  (ues.map (cell.estimateUe sid)).sum

def writeEstimate (written : List SlSched × Nat) (slice : SliceInfo) :
    Except Fault (List SlSched × Nat) :=
  match written.1[written.2]? with
  | none => .error .outOfBounds
  | some entry =>
    .ok (written.1.set written.2 { entry with prbEst := cell.estimateSlice ues slice.sid, sl := slice },
      written.2 + 1)

/-- `SL_sched` has `dl_num_slice` entries, which are indeterminate at first. -/
def slicePrbEstimate (table : SlicePointers) (ues : List UeInfo) (slSched : List SlSched) :
    Except Fault (List SlSched) := do
  let slices ← slIterator table
  let (entries, _) ← slices.foldlM (writeEstimate cell ues) (slSched, 0)
  return entries

section Table

variable {table : SlicePointers} {slices : List SliceInfo}

theorem slIterator_configured {snssai : List Nssai} (accepted : configureSlices snssai = some table) :
    slIterator table =
      if snssai.length < maxNumSlice then .ok (configuredSlices snssai) else .error .outOfBounds := by
  obtain ⟨slices, ends⟩ := slicesOf_configured snssai accepted
  rw [slIterator_eq, slices]
  simp only [ends]

theorem prepareUeIn_eq (terminated : slIterator table = .ok slices) (dl : DlSlot) (ue : UeInfo) :
    prepareUeIn table dl ue = .ok (prepareUe slices dl ue) := by
  have stored (lcs : List LcConfig) (info : Nat → Nat) : lcs.foldlM (storeLcSlice table ue) info =
      .ok (lcs.foldl (fun info lc => if ue.heldBack lc.lcid then info
        else Function.update info lc.lcid (sliceIdOf slices lc.nssai)) info) := by
    induction lcs generalizing info with
    | nil => rfl
    | cons lc lcs ih =>
      rw [foldlM_cons, foldl_cons, ← ih, storeLcSlice, terminated]
      split <;> rfl
  rw [prepareUeIn, stored]
  rfl

theorem prepareUesIn_eq (terminated : slIterator table = .ok slices) (dl : DlSlot) :
    prepareUesIn table dl = .ok (dl.ues.map (prepareUe slices dl)) := by
  rw [prepareUesIn]
  induction dl.ues with
  | nil => rfl
  | cons ue ues ih =>
    rw [mapM_cons, ih, prepareUeIn_eq terminated]
    rfl

theorem selectSlicesIn_eq (terminated : slIterator table = .ok slices) (dl : DlSlot) :
    selectSlicesIn table dl = .ok (selectSlices slices dl) := by
  rw [selectSlicesIn, prepareUesIn_eq terminated]
  rfl

theorem foldlM_writeEstimate (cell : DlCell κ) (ues : List UeInfo) (slices : List SliceInfo)
    (front back : List SlSched) (enough : back.length = slices.length) :
    ∃ entries, slices.foldlM (writeEstimate cell ues) (front ++ back, front.length) =
        .ok (front ++ entries, (front ++ entries).length) ∧
      entries.map SlSched.sl = slices ∧
      entries.map SlSched.prbEst = slices.map (fun slice => cell.estimateSlice ues slice.sid) := by
  induction slices generalizing front back with
  | nil =>
    have none : back = [] := eq_nil_of_length_eq_zero enough
    subst none
    exact ⟨[], by rw [append_nil]; rfl, rfl, rfl⟩
  | cons slice slices ih =>
    cases back with
    | nil => cases enough
    | cons entry back =>
      have here : (front ++ entry :: back)[front.length]? = some entry := by
        rw [getElem?_append_right (le_refl _), Nat.sub_self]
        rfl
      generalize writtenIs :
        ({ entry with prbEst := cell.estimateSlice ues slice.sid, sl := slice } : SlSched) = written
      obtain ⟨entries, walked, taken, estimated⟩ := ih (front ++ [written]) back (Nat.succ.inj enough)
      have step : writeEstimate cell ues (front ++ entry :: back, front.length) slice =
          .ok (front ++ [written] ++ back, (front ++ [written]).length) := by
        simp only [writeEstimate, here, writtenIs]
        simp
      refine ⟨written :: entries, ?_, ?_, ?_⟩
      · rw [foldlM_cons, step]
        change slices.foldlM (writeEstimate cell ues) (front ++ [written] ++ back, (front ++ [written]).length) = _
        rw [walked, append_assoc, singleton_append]
      · rw [map_cons, taken, ← writtenIs]
      · rw [map_cons, map_cons, estimated, ← writtenIs]

theorem slicePrbEstimate_terminated (terminated : slIterator table = .ok slices) (cell : DlCell κ)
    (ues : List UeInfo) (slSched : List SlSched) (size : slSched.length = slices.length) :
    ∃ entries, slicePrbEstimate cell table ues slSched = .ok entries ∧ entries.map SlSched.sl = slices ∧
      entries.map SlSched.prbEst = slices.map (fun slice => cell.estimateSlice ues slice.sid) := by
  obtain ⟨entries, walked, taken, estimated⟩ := foldlM_writeEstimate cell ues slices [] slSched size
  refine ⟨entries, ?_, taken, estimated⟩
  rw [slicePrbEstimate, terminated]
  change (slices.foldlM (writeEstimate cell ues) (slSched, 0)).bind _ = _
  rw [nil_append, length_nil] at walked
  rw [walked]
  rfl

end Table

end OranSlice.Mac
