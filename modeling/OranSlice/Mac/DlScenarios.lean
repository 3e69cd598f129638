import OranSlice.Mac.DlReservations

/-! Slots at the limits of the scheduler: a UE with more data than fits, and a retransmission in a
shorter time-domain allocation. -/

namespace OranSlice.Mac

open FreeRun List

def plainCell : DlCell Unit where
  frame := 0
  slot := 0
  carrierBandwidth := 106
  cset0BwpStart := 0
  cset0BwpSize := 0
  tdd := none
  schedCsirs := 0
  getInfoFromTdaTables := fun _ _ => ⟨false, 0, 0⟩
  getDlDmrsParams := fun _ _ _ => ⟨6, 1⟩
  getMcs := fun _ => 9
  getDlNrOfLayers := fun _ => 1
  getPmIndex := fun _ _ => 0
  nrGetQmDl := fun _ _ => 2
  nrGetCodeRateDl := fun _ _ => 6790
  getCceIndex := fun control _ => (0, control)
  nrAcknackScheduling := fun control _ _ => (0, control)
  fillPdcchVrbMap := fun control _ _ => control
  sortUes := id
  sortUes_perm := fun _ => .refl _
  sortSlices := insertionSort (fun a b => a.prbEst ≤ b.prbEst)
  sortSlices_perm := perm_insertionSort _
  sortSlices_sorted := fun entries =>
    haveI : Std.Total (fun a b : SlSched => a.prbEst ≤ b.prbEst) := ⟨fun _ _ => Int.le_total _ _⟩
    haveI : IsTrans SlSched (fun a b => a.prbEst ≤ b.prbEst) := ⟨fun _ _ _ => Int.le_trans⟩
    pairwise_insertionSort _ entries

theorem plainCell_tda : plainCell.getDlTda < [40].length := by decide

def longTda : TdaInfo := ⟨true, 1, 13⟩

def shortTda : TdaInfo := ⟨true, 1, 5⟩

example : setTdaInfoFromList [40, 57] 0 = longTda ∧ setTdaInfoFromList [40, 57] 1 = shortTda := by
  decide

variable (sid full size : Nat)

def scenarioVrbMap : Nat → BitVec 16 :=
  fun rb => if rb < full then 0 else if rb < size then 0x3fc1 else 0x3fff

def scenarioMask : RbMask :=
  fun rb => if rb < full then 0x3fff else if rb < size then 0x3e else 0

theorem scenarioMask_eq {full size bwpSize : Nat} (within : full ≤ size) (bound : size ≤ bwpSize) :
    (fun rb => if rb < bwpSize then ~~~ scenarioVrbMap full size (rb + 0) &&& 0x3fff else 0) =
      scenarioMask full size := by
  funext rb
  simp only [scenarioVrbMap, scenarioMask, add_zero]
  by_cases low : rb < full
  · rw [if_pos (by omega), if_pos low, if_pos low]
    decide
  by_cases inside : rb < size
  · rw [if_pos (by omega), if_neg low, if_pos inside, if_neg low, if_pos inside]
    decide
  split
  · decide
  · rfl

theorem scenarioMask_free {full size rb : Nat} (inside : rb < size) :
    (scenarioMask full size).isFree shortTda.bitmap rb = true := by
  unfold RbMask.isFree scenarioMask
  by_cases low : rb < full
  · rw [if_pos low]
    decide
  · rw [if_neg low, if_pos inside]
    decide

theorem scenarioMask_count {full size bwpSize : Nat} (within : full ≤ bwpSize) :
    freeCount (scenarioMask full size) longTda.bitmap bwpSize = full := by
  have counts : ∀ bwpSize, (range bwpSize).countP ((scenarioMask full size).isFree longTda.bitmap) =
        min full bwpSize := by
    intro bwpSize
    induction bwpSize with
    | zero => simp
    | succ bwpSize ih =>
      rw [range_succ, countP_append, countP_singleton, ih]
      unfold RbMask.isFree scenarioMask
      by_cases low : bwpSize < full
      · simp only [if_pos low]
        rw [if_pos (by decide)]
        omega
      have blocked : ((if bwpSize < size then 0x3e#16 else 0#16) &&& longTda.bitmap ==
          longTda.bitmap) = false := by
        split <;> decide
      simp only [if_neg low]
      rw [if_neg (by simpa using blocked)]
      omega
  rw [freeCount, counts]
  omega

def newcomerUe : UeInfo where
  rnti := 1
  currentDlBwp := { bwpSize := size, tdaListCommon := some [40] }

def heavyUe : UeInfo where
  rnti := 2
  msg4Acked := true
  numTotalBytes := 0x80000000
  availSliceList := [⟨sid, 0x80000000⟩]
  sliceForThisSched := sid
  schedPdsch := { dlHarqPid := -1 }
  coresetId := 1
  currentDlBwp := { bwpSize := size, pdschTdaList := some [57] }

def heavyInput : DlInput Unit where
  cell := plainCell
  first := newcomerUe size
  others := [heavyUe sid size]
  control := ()
  vrbMap := scenarioVrbMap full size
  behind := fun _ => 0
  tdalist := [40]
  known := rfl
  inside := plainCell_tda

theorem heavyInput_mask {full size : Nat} (within : full ≤ size) :
    (heavyInput sid full size).mask = scenarioMask full size :=
  scenarioMask_eq within (le_refl size)

theorem heavyInput_maxNumUe : (heavyInput sid full size).maxNumUe = 4 :=
  show min (plainCell.carrierBandwidth / (4 * 6)) 8 = 4 from rfl

theorem heavyInput_firstStage :
    (heavyInput sid full size).firstStage = .done (heavyInput sid full size).start := by
  have room : ¬ (heavyInput sid full size).start.remainUes = 0 := by
    change ¬ (heavyInput sid full size).maxNumUe = 0
    rw [heavyInput_maxNumUe]
    decide
  have second : retransmissionTurn plainCell 1 (heavyInput sid full size).start =
      .done (heavyInput sid full size).start := by
    unfold retransmissionTurn
    change (if _ then _ else if (heavyInput sid full size).start.remainUes = 0 then _ else _) = _
    rw [if_neg room]
    rfl
  change (retransmissionTurn plainCell 1 (heavyInput sid full size).start).andThen _ = _
  rw [second]
  rfl

theorem heavyInput_counter {full size : Nat} (within : full ≤ size) :
    (heavyInput sid full size).start.nRbSched = full := by
  have bitmap : (heavyInput sid full size).countedBitmap = longTda.bitmap :=
    show (setTdaInfoFromList [40] plainCell.getDlTda).bitmap = _ from rfl
  simp only [DlInput.start, bitmap, heavyInput_mask sid within]
  exact congrArg Int.ofNat (scenarioMask_count within)

theorem heavyInput_nLeft {full size : Nat} (within : full ≤ size) :
    (heavyInput sid full size).nLeft = full := by
  rw [DlInput.nLeft, heavyInput_firstStage]
  exact heavyInput_counter sid within

theorem heavyUe_start {full size : Nat} (some : 0 < size) :
    newTxStart plainCell (scenarioMask full size) ((heavyUe sid size).withMcs plainCell) shortTda =
      0 :=
  skip_of_free (scenarioMask_free some) _

theorem heavyUe_maxRbSize {full size : Nat} (some : 0 < size) {limit : Int} (positive : 0 < limit) :
    newTxMaxRbSize plainCell (scenarioMask full size) limit ((heavyUe sid size).withMcs plainCell)
      shortTda = min size limit.toNat := by
  have range : (getStartStopAllocation plainCell ((heavyUe sid size).withMcs plainCell)).2 = size := rfl
  simp only [newTxMaxRbSize, heavyUe_start sid some]
  rw [run_eq_of_all_free]
  · omega
  · intro i below
    exact scenarioMask_free (by omega)

theorem heavyUe_rbSize {full size : Nat} (some : 0 < size) {limit : Int} (positive : 0 < limit) (alloc : Int) :
    (newTxPdsch plainCell sid (scenarioMask full size) limit ((heavyUe sid size).withMcs plainCell)
      shortTda alloc).rbSize = min size limit.toNat := by
  have demand : newTxDemand plainCell sid ((heavyUe sid size).withMcs plainCell) = 0x8000000c := by
    simp [newTxDemand, sliceBytes, heavyUe, UeInfo.withMcs, plainCell]
  have most := (newTxFormat plainCell ((heavyUe sid size).withMcs plainCell) shortTda
    alloc).tbsParams.tbs_lt (min size limit.toNat)
  simp only [newTxPdsch, heavyUe_maxRbSize sid some positive]
  rw [nrFindNbRb_full _ (by omega)]

theorem heavyUe_turn {maxRbs : Int} {p : PfState Unit} (goesOn : p.goesOn maxRbs) :
    newTxTurn plainCell sid maxRbs ((heavyUe sid size).withMcs plainCell, 1) p =
      .done (p.enter () (newTxGrant plainCell sid ((heavyUe sid size).withMcs plainCell) 1 p shortTda 0)) := by
  unfold newTxTurn
  simp only [goesOn]
  rfl

theorem heavyInput_candidates :
    candidates plainCell sid (heavyInput sid full size).start =
      [((heavyUe sid size).withMcs plainCell, 1)] := by
  simp [candidates, heavyInput, DlInput.start, DlInput.ues, UeInfo.eligible, heavyUe, newcomerUe,
    DlInput.maxNumUe, plainCell]

theorem heavyInput_used {full size : Nat} (within : full ≤ size) (enough : 5 ≤ full)
    (entry : SlSched) (limit : 5 ≤ entry.maxPrbs) :
    ∃ p, pfDlSlice plainCell entry (heavyInput entry.sl.sid full size).start = .done p ∧
      p.nRbSchedS = min (size : Int) entry.maxPrbs := by
  have counted := heavyInput_counter entry.sl.sid within
  have least : (minRbSize : Int) = 5 := rfl
  simp only [pfDlSlice, heavyInput_candidates]
  change ∃ p, Outcome.loop _ [_] _ = _ ∧ _
  rw [Outcome.loop_cons, heavyUe_turn entry.sl.sid size]
  · refine ⟨_, rfl, ?_⟩
    have granted := @heavyUe_rbSize entry.sl.sid full size (by omega) entry.maxPrbs (by omega) 0
    change (0 : Int) + ((newTxPdsch _ _ (heavyInput entry.sl.sid full size).mask _ _ _ _).rbSize :
      Int) = _
    rw [heavyInput_mask _ within, granted]
    omega
  · refine ⟨?_, ?_, ?_, ?_⟩
    · change 0 < (heavyInput entry.sl.sid full size).maxNumUe
      rw [heavyInput_maxNumUe]
      decide
    · change (minRbSize : Int) ≤ (heavyInput entry.sl.sid full size).start.nRbSched
      omega
    · change (minRbSize : Int) ≤ entry.maxPrbs
      omega
    · change (0 : Int) ≤ entry.maxPrbs
      omega

def retxUe : UeInfo where
  rnti := 1
  msg4Acked := true
  retransDlHarqHead := 0
  harqPdsch := fun _ => { rbSize := size, tdaInfo := shortTda }
  currentDlBwp := { bwpSize := size + 1, tdaListCommon := some [40] }

def retxInput : DlInput Unit where
  cell := plainCell
  first := retxUe size
  others := []
  control := ()
  vrbMap := scenarioVrbMap 0 size
  behind := fun _ => 0
  tdalist := [40]
  known := rfl
  inside := plainCell_tda

theorem retxInput_mask : (retxInput size).mask = scenarioMask 0 size :=
  scenarioMask_eq (Nat.zero_le size) (Nat.le_succ size)

theorem retxInput_counter : (retxInput size).start.nRbSched = 0 := by
  have bitmap : (retxInput size).countedBitmap = longTda.bitmap :=
    show (setTdaInfoFromList [40] plainCell.getDlTda).bitmap = _ from rfl
  simp only [DlInput.start, bitmap, retxInput_mask]
  exact congrArg Int.ofNat (scenarioMask_count (Nat.zero_le _))

theorem retxInput_plan {size : Nat} (positive : 0 < size) :
    retransmissionPlan plainCell (scenarioMask 0 size) (retxUe size).atTurn 0 longTda
      ((retxUe size).harqPdsch 0) = some (0, (retxUe size).harqPdsch 0) := by
  have start : skip ((scenarioMask 0 size).isFree shortTda.bitmap) (size + 1 - 1 - 0) 0 = 0 :=
    skip_of_free (scenarioMask_free positive) _
  have long : run ((scenarioMask 0 size).isFree shortTda.bitmap) (min (size + 1 - 0) size) 0 =
      size := by
    rw [run_eq_of_all_free]
    · omega
    · exact fun i below => scenarioMask_free (by omega)
  have search : searchFreeRun ((scenarioMask 0 size).isFree shortTda.bitmap) size (size + 1)
      (size + 1 + 1) 0 = some 0 := by
    rw [searchFreeRun, start, if_neg (by omega)]
    simp only [long, lt_irrefl, if_false]
  change (if size = 0 then _ else
    (searchFreeRun ((scenarioMask 0 size).isFree shortTda.bitmap) size (size + 1) (size + 1 + 1) 0).map _) = _
  rw [if_neg (ne_of_gt positive), search]
  rfl

theorem retxInput_firstStage {size : Nat} (positive : 0 < size) :
    ∃ s, (retxInput size).firstStage = .done s ∧ s.nRbSched = -size := by
  have turn : ∃ s, retransmissionTurn plainCell 0 (retxInput size).start = .done s ∧
      s.nRbSched = (retxInput size).start.nRbSched - size := by
    have room : ¬ (retxInput size).start.remainUes = 0 :=
      show ¬ min (plainCell.carrierBandwidth / (4 * 6)) 8 = 0 by decide
    change ∃ s, (if (retxInput size).start.remainUes = 0 then _ else
      (allocateDlRetransmission plainCell 0 (retxUe size).atTurn 0
        { (retxInput size).start with ues := [(retxUe size).atTurn] }).andThen _) = .done s ∧ _
    rw [if_neg room]
    have plan : retransmissionPlan plainCell (retxInput size).start.mask (retxUe size).atTurn plainCell.getDlTda
        (plainCell.getDlTdaInfo (retxUe size).atTurn plainCell.getDlTda) ((retxUe size).atTurn.harqPdsch 0) =
        some (0, (retxUe size).harqPdsch 0) := by
      rw [← retxInput_plan positive, ← retxInput_mask]
      rfl
    unfold allocateDlRetransmission
    dsimp only
    rw [plan]
    exact ⟨_, rfl, rfl⟩
  obtain ⟨s, taken, counter⟩ := turn
  refine ⟨s, ?_, ?_⟩
  · change (retransmissionTurn plainCell 0 _).andThen _ = _
    rw [taken]
    rfl
  · rw [counter, retxInput_counter]
    omega

end OranSlice.Mac
