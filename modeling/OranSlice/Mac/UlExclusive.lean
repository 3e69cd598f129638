import OranSlice.Mac.RbExclusive
import OranSlice.Mac.UlScheduler

/-! Resource blocks and symbols of an UL slot belong to at most one UE, and the counter follows the
grants, exactly when no grant repeats a transport block and every grant without data lies in a free run.
-/

namespace OranSlice.Mac

open FreeRun PuschGrant List

variable {κ : Type}

def PuschGrantKind.isRetransmission : PuschGrantKind → Bool
  | .sameTda | .changedTda => true
  | .noData | .data => false

namespace PuschGrant

variable (cell : UlCell κ) (grant : PuschGrant)

def area : RbArea :=
  ⟨grant.ueIndex, grant.maskBefore, grant.pusch.tdaInfo, grant.pusch.rbStart, grant.pusch.rbSize⟩

def counted : Nat := if grant.kind.isRetransmission then 0 else grant.pusch.rbSize

def wantedTda : TdaInfo :=
  match grant.kind with
  | .sameTda => grant.ue.retInfo.tdaInfo
  | _ => cell.getUlTdaInfo grant.ue grant.tda

def wantedStart : Nat :=
  firstFreeRb grant.maskBefore (grant.wantedTda cell) grant.ue.currentUlBwp.bwpSize

def wantedRbs : Nat :=
  match grant.kind with
  | .sameTda => grant.ue.retInfo.rbSize
  | .changedTda =>
    let changed := changedTdaFormat cell grant.ue grant.tda
    (nrFindNbRb changed.tbsParams grant.ue.currentUlBwp.transformPrecoding changed.tbSize 1
      (firstRunSize grant.maskBefore changed.tdaInfo grant.ue.currentUlBwp.bwpSize)).nbRb
  | .noData => cell.minGrantPrb
  | .data =>
    (dataPusch cell grant.ue grant.tda (grant.wantedStart cell)
      (dataMaxRbSize grant.maskBefore (grant.wantedTda cell) grant.ue.currentUlBwp.bwpSize
        (grant.wantedStart cell))).rbSize

def HasRoom (bwpSize : Nat) : Prop :=
  grant.wantedRbs cell ≤ freeRun bwpSize grant.maskBefore (grant.wantedTda cell) (grant.wantedStart cell)

/-- What a grant needs of the state before it to be exclusive and counted. Data never leaves the free
run of its UE's own BWP, so only a BWP larger than the mask matters there. -/
def Admissible (bwpSize : Nat) : Prop :=
  match grant.kind with
  | .sameTda | .changedTda => grant.wantedRbs cell = 0
  | .noData => grant.HasRoom cell bwpSize
  | .data => grant.ue.currentUlBwp.bwpSize ≤ bwpSize ∨ grant.HasRoom cell bwpSize

structure Made : Prop where
  tdaInfo : grant.pusch.tdaInfo = grant.wantedTda cell
  rbStart : grant.pusch.rbStart = grant.wantedStart cell
  rbSize : grant.pusch.rbSize = grant.wantedRbs cell
  ownRun : grant.kind = .changedTda ∨ grant.kind = .data → grant.HasRoom cell grant.ue.currentUlBwp.bwpSize

variable {cell grant}

theorem Made.fits_iff (made : grant.Made cell) (bwpSize : Nat) :
    grant.area.Fits bwpSize ↔ grant.HasRoom cell bwpSize := by
  rw [RbArea.Fits, HasRoom, area, made.tdaInfo, made.rbStart, made.rbSize]

theorem HasRoom.mono {small large : Nat} (order : small ≤ large) (room : grant.HasRoom cell small) :
    grant.HasRoom cell large :=
  le_trans room (freeRun_mono order _ _ _)

theorem Made.admissible_iff (made : grant.Made cell) (bwpSize : Nat) :
    grant.Admissible cell bwpSize ↔
      grant.area.Fits bwpSize ∧ (grant.kind.isRetransmission → grant.pusch.rbSize = 0) := by
  rw [made.fits_iff, made.rbSize]
  have ownRun := made.ownRun
  have nothing : grant.wantedRbs cell = 0 → grant.HasRoom cell bwpSize := by
    intro none
    rw [HasRoom, none]
    exact Nat.zero_le _
  unfold Admissible
  cases kind : grant.kind with
  | sameTda | changedTda => simpa [PuschGrantKind.isRetransmission] using nothing
  | noData => simp [PuschGrantKind.isRetransmission]
  | data =>
    simp only [PuschGrantKind.isRetransmission, Bool.false_eq_true, false_implies, and_true]
    constructor
    · rintro (within | room)
      · exact (ownRun (.inr kind)).mono within
      · exact room
    · exact .inr

end PuschGrant

variable {ue : UlUe} {tda free bwpSize maxRbSize rbStart : Nat} {kind : PuschGrantKind}
  {retInfo pusch : PuschAlloc}

variable {cell : UlCell κ}

theorem changedTda_le (ends : ¬(ue.currentUlBwp.transformPrecoding = true ∧ free = 0))
    (exact : (nrFindNbRb (changedTdaFormat cell ue tda).tbsParams ue.currentUlBwp.transformPrecoding
      (changedTdaFormat cell ue tda).tbSize 1 free).tbs = (changedTdaFormat cell ue tda).tbSize) :
    (nrFindNbRb (changedTdaFormat cell ue tda).tbsParams ue.currentUlBwp.transformPrecoding
      (changedTdaFormat cell ue tda).tbSize 1 free).nbRb ≤ free := by
  rcases Nat.eq_zero_or_pos free with none | some
  · have plain : ue.currentUlBwp.transformPrecoding = false := by simpa [none] using ends
    rw [plain] at exact ⊢
    exact nrFindNbRb_exact_le exact
  · have bound := nrFindNbRb_le (changedTdaFormat cell ue tda).tbsParams
      ue.currentUlBwp.transformPrecoding (changedTdaFormat cell ue tda).tbSize 1 free
    omega

theorem dataMaxRbSize_eq {mask : RbMask} {tda : TdaInfo} (inside : firstFreeRb mask tda bwpSize < bwpSize) :
    dataMaxRbSize mask tda bwpSize (firstFreeRb mask tda bwpSize) =
      freeRun bwpSize mask tda (firstFreeRb mask tda bwpSize) := by
  have free : mask.isFree tda.bitmap (firstFreeRb mask tda bwpSize) = true :=
    skip_free bwpSize 0 (by simpa [firstFreeRb] using inside)
  generalize firstFreeRb mask tda bwpSize = rbStart at inside free ⊢
  have split : bwpSize - rbStart = (bwpSize - (rbStart + 1)) + 1 := by omega
  rw [freeRun, split, run_succ_of_free free, dataMaxRbSize, add_comm]

theorem dataLimits_bounds (ue : UlUe) (pusch : PuschAlloc) (enough : cell.minGrantPrb ≤ maxRbSize) :
    cell.minGrantPrb ≤ (dataLimits cell ue pusch maxRbSize).1 ∧
      (dataLimits cell ue pusch maxRbSize).1 ≤ maxRbSize := by
  unfold dataLimits
  split
  · exact lowerRb_bounds (fun rb => cell.txPower ue pusch rb pusch.mcs) ue.ph enough
  · exact ⟨enough, le_refl maxRbSize⟩

theorem dataPusch_rbSize_le (cell : UlCell κ) (ue : UlUe) (tda rbStart : Nat)
    (enough : cell.minGrantPrb ≤ maxRbSize) : (dataPusch cell ue tda rbStart maxRbSize).rbSize ≤ maxRbSize := by
  have limits := dataLimits_bounds ue (newPusch cell ue tda) enough
  apply le_trans (nrFindNbRb_le _ _ _ _ _)
  exact Nat.max_le.mpr ⟨enough, limits.2⟩

inductive UlTurn (cell : UlCell κ) (ueIndex : Nat) (s t : UlState κ) : Prop where
  | idle (mask : t.mask = s.mask) (counter : t.nRbSched = s.nRbSched)
      (grants : t.grants = s.grants) (ready : t.ready = s.ready)
  | queued (mask : t.mask = s.mask) (counter : t.nRbSched = s.nRbSched)
      (grants : t.grants = s.grants) (ready : t.ready = s.ready ++ [ueIndex])
  | granted (grant : PuschGrant) (index : grant.ueIndex = ueIndex) (made : grant.Made cell)
      (before : grant.maskBefore = s.mask) (mask : t.mask = grant.area.marked s.mask)
      (counter : t.nRbSched = s.nRbSched - grant.counted)
      (grants : t.grants = s.grants ++ [grant]) (ready : t.ready = s.ready)

theorem grantUlRetransmission_turn {ueIndex : Nat} {s : UlState κ} (again : kind.isRetransmission = true)
    (made : ∀ grant : PuschGrant, grant.ue = ue → grant.kind = kind → grant.tda = tda →
      grant.maskBefore = s.mask → grant.pusch.rbStart = rbStart →
      grant.pusch.rbSize = retInfo.rbSize → grant.pusch.tdaInfo = retInfo.tdaInfo → grant.Made cell) :
    UlTurn cell ueIndex s (grantUlRetransmission cell ueIndex ue kind tda rbStart retInfo s) := by
  unfold grantUlRetransmission
  dsimp only
  split
  · exact .idle rfl rfl rfl rfl
  · refine .granted _ rfl (made _ rfl rfl rfl rfl rfl rfl rfl) rfl rfl ?_ rfl rfl
    simp [counted, again, UlState.enter, UlState.setRetInfo]

section

variable (cell : UlCell κ) (ueIndex : Nat) (ue : UlUe)

theorem allocateUlRetransmission_turn (tda : Nat)
    (s : UlState κ) : UlTurn cell ueIndex s (allocateUlRetransmission cell ueIndex ue tda s).state := by
  unfold allocateUlRetransmission
  dsimp only
  split
  · exact .idle rfl rfl rfl rfl
  split
  · split
    · exact .idle rfl rfl rfl rfl
    rename_i rbStart retInfo planned
    simp only [sameTdaPlan] at planned
    split_ifs at planned
    cases planned
    apply grantUlRetransmission_turn rfl
    rintro ⟨_, _, _, _, _, pusch⟩ rfl rfl rfl rfl start size symbols
    refine ⟨symbols, start, size, ?_⟩
    rintro (other | other) <;> cases other
  · split
    · exact .idle rfl rfl rfl rfl
    rename_i ends
    split
    · exact .idle rfl rfl rfl rfl
    rename_i rbStart retInfo planned
    simp only [changedTdaPlan] at planned
    split_ifs at planned with accepted
    cases planned
    simp only [Bool.or_eq_true, not_or, bne_iff_ne, Decidable.not_not] at accepted
    simp only [Bool.and_eq_true, beq_iff_eq] at ends
    apply grantUlRetransmission_turn rfl
    rintro ⟨_, _, _, _, _, pusch⟩ rfl rfl rfl rfl start size symbols
    exact ⟨symbols, start, size, fun _ => changedTda_le ends accepted.2⟩

theorem allocateNoData_turn (s : UlState κ) :
    UlTurn cell ueIndex s (allocateNoData cell ueIndex ue s).state := by
  unfold allocateNoData
  dsimp only
  split
  · exact .idle rfl rfl rfl rfl
  split
  · exact .idle rfl rfl rfl rfl
  split
  · exact .idle rfl rfl rfl rfl
  · refine .granted _ rfl ⟨rfl, rfl, rfl, ?_⟩ rfl rfl rfl rfl rfl
    rintro (other | other) <;> cases other

theorem allocateData_turn (s : UlState κ) :
    UlTurn cell ueIndex s (allocateData cell ueIndex ue s).state := by
  unfold allocateData
  dsimp only
  split
  · exact .idle rfl rfl rfl rfl
  split
  · exact .idle rfl rfl rfl rfl
  split
  · exact .idle rfl rfl rfl rfl
  rename_i room
  split
  · exact .idle rfl rfl rfl rfl
  refine .granted _ rfl ⟨rfl, rfl, rfl, fun _ => ?_⟩ rfl rfl rfl rfl rfl
  rw [not_or, not_le, not_lt] at room
  apply le_trans (dataPusch_rbSize_le cell ue _ _ room.2)
  exact le_of_eq (dataMaxRbSize_eq (lt_of_le_of_lt (Nat.le_add_right _ _) room.1))

end

theorem UlTurn.of_setPusch {ueIndex other : Nat}
    {s t : UlState κ} (turn : UlTurn cell ueIndex (s.setPusch other pusch) t) : UlTurn cell ueIndex s t := by
  cases turn with
  | idle mask counter grants ready => exact .idle mask counter grants ready
  | queued mask counter grants ready => exact .queued mask counter grants ready
  | granted grant index made before mask counter grants ready =>
    exact .granted grant index made before mask counter grants ready

theorem ulListTurn_turn (cell : UlCell κ) (ueIndex : Nat) (s : UlState κ) :
    UlTurn cell ueIndex s (ulListTurn cell ueIndex s).state := by
  unfold ulListTurn
  split
  · exact .idle rfl rfl rfl rfl
  dsimp only
  split_ifs
  · exact .idle rfl rfl rfl rfl
  · exact .idle rfl rfl rfl rfl
  · exact (allocateUlRetransmission_turn cell ueIndex _ _ _).of_setPusch
  · exact .idle rfl rfl rfl rfl
  · exact .idle rfl rfl rfl rfl
  · exact (allocateNoData_turn cell ueIndex _ _).of_setPusch.of_setPusch
  · exact .queued rfl rfl rfl rfl

theorem ulDataTurn_turn (cell : UlCell κ) (ueIndex : Nat) (s : UlState κ) :
    UlTurn cell ueIndex s (ulDataTurn cell ueIndex s).state := by
  unfold ulDataTurn
  split
  · exact .idle rfl rfl rfl rfl
  · split
    · exact allocateData_turn cell ueIndex _ s
    · exact .idle rfl rfl rfl rfl

structure UlRun (cell : UlCell κ) (mask : RbMask) (nRbSched : Int) (waiting : List Nat)
    (s : UlState κ) : Prop where
  chain : AreaChain mask (s.grants.map area) s.mask
  counter : s.nRbSched = nRbSched - (s.grants.map counted).sum
  made : ∀ grant ∈ s.grants, grant.Made cell
  once : (s.grants.map ueIndex ++ waiting).Nodup

section Slot

variable {cell : UlCell κ} {mask : RbMask} {nRbSched : Int} {waiting : List Nat} {ueIndex : Nat}
  {s t : UlState κ}

theorem UlRun.fewer (progress : UlRun cell mask nRbSched waiting s) {fewer : List Nat}
    (part : fewer.Sublist waiting) : UlRun cell mask nRbSched fewer s :=
  { progress with once := progress.once.sublist (part.append_left _) }

theorem UlRun.perm (progress : UlRun cell mask nRbSched waiting s) {order : List Nat}
    (same : order.Perm waiting) : UlRun cell mask nRbSched order s :=
  { progress with once := (same.append_left _).nodup_iff.mpr progress.once }

theorem UlRun.turn {front rest : List Nat} (progress : UlRun cell mask nRbSched (front ++ ueIndex :: rest) s)
    (turn : UlTurn cell ueIndex s t) :
    UlRun cell mask nRbSched (front ++ rest) t ∧ (t.ready = s.ready ∨ t.ready = s.ready ++ [ueIndex] ∧
        UlRun cell mask nRbSched (front ++ ueIndex :: rest) t) := by
  have part : (front ++ rest).Sublist (front ++ ueIndex :: rest) :=
    (sublist_cons_self ueIndex rest).append_left front
  have same (mask' : t.mask = s.mask) (counter : t.nRbSched = s.nRbSched) (grants : t.grants = s.grants) :
      UlRun cell mask nRbSched (front ++ ueIndex :: rest) t :=
    ⟨by rw [grants, mask']; exact progress.chain, by rw [grants, counter]; exact progress.counter,
      grants ▸ progress.made, grants ▸ progress.once⟩
  cases turn with
  | idle kept counter grants ready => exact ⟨(same kept counter grants).fewer part, .inl ready⟩
  | queued mask' counter grants ready =>
    have kept := same mask' counter grants
    exact ⟨kept.fewer part, .inr ⟨ready, kept⟩⟩
  | granted grant index made before marked counter grants ready =>
    refine ⟨⟨?_, ?_, ?_, ?_⟩, .inl ready⟩
    · rw [grants, map_append, marked]
      exact progress.chain.append ⟨before, rfl⟩
    · rw [counter, progress.counter, grants, map_append, sum_append, map_singleton, sum_singleton]
      omega
    · rw [grants]
      intro other member
      rcases mem_append.mp member with old | last
      · exact progress.made other old
      · rwa [mem_singleton.mp last]
    · rw [grants, map_append, map_singleton, index, append_assoc]
      have order : (front ++ ueIndex :: rest).Perm ([ueIndex] ++ (front ++ rest)) := perm_middle
      exact (order.append_left _).nodup_iff.mp progress.once

theorem UlRun.listTurns (turns : List Nat) (progress : UlRun cell mask nRbSched (s.ready ++ turns) s) :
    UlRun cell mask nRbSched (Outcome.loop (ulListTurn cell) turns s).state.ready
      (Outcome.loop (ulListTurn cell) turns s).state := by
  induction turns generalizing s with
  | nil => simpa using progress
  | cons ueIndex rest ih =>
    have after : UlRun cell mask nRbSched ((ulListTurn cell ueIndex s).state.ready ++ rest)
        (ulListTurn cell ueIndex s).state := by
      obtain ⟨dropped, kept | ⟨queued, waits⟩⟩ := progress.turn (ulListTurn_turn cell ueIndex s)
      · rwa [kept]
      · rw [queued]
        simpa using waits
    rw [Outcome.loop_cons]
    cases taken : ulListTurn cell ueIndex s with
    | done t =>
      rw [taken] at after
      exact ih after
    | abort reason t =>
      rw [taken] at after
      exact after.fewer (sublist_append_left _ _)

theorem UlRun.dataTurns (turns : List Nat) (progress : UlRun cell mask nRbSched turns s) :
    UlRun cell mask nRbSched [] (Outcome.loop (ulDataTurn cell) turns s).state := by
  induction turns generalizing s with
  | nil => exact progress
  | cons ueIndex rest ih =>
    have after := (@UlRun.turn _ cell mask nRbSched ueIndex s _ [] rest progress
      (ulDataTurn_turn cell ueIndex s)).1
    rw [Outcome.loop_cons]
    cases taken : ulDataTurn cell ueIndex s with
    | done t =>
      rw [taken] at after
      exact ih after
    | abort reason t =>
      rw [taken] at after
      exact after.fewer (nil_sublist _)

end Slot

theorem pfUl_run (cell : UlCell κ) (ues : List UlUe) (control : κ) (maxNumUe : Nat) (nRbSched : Int)
    (mask : RbMask) :
    UlRun cell mask nRbSched [] (pfUl cell (ulStart ues control maxNumUe nRbSched mask)).state := by
  have start : UlRun cell mask nRbSched ((ulStart ues control maxNumUe nRbSched mask).ready ++ range ues.length)
      (ulStart ues control maxNumUe nRbSched mask) :=
    ⟨rfl, by simp [ulStart], by simp [ulStart], by simpa [ulStart] using nodup_range⟩
  have listed := UlRun.listTurns (range ues.length) start
  change UlRun cell mask nRbSched [] (Outcome.andThen (Outcome.loop (ulListTurn cell)
    (range ues.length) (ulStart ues control maxNumUe nRbSched mask)) _).state
  cases first : Outcome.loop (ulListTurn cell) (range ues.length)
      (ulStart ues control maxNumUe nRbSched mask) with
  | done t =>
    rw [first] at listed
    exact (listed.perm (cell.sortUes_perm t.ready)).dataTurns
  | abort reason t =>
    rw [first] at listed
    exact listed.fewer (nil_sublist _)

variable (grants : List PuschGrant)

def ulGrantedRbs : Nat := (grants.map fun grant => grant.pusch.rbSize).sum

theorem PuschGrant.counted_le (grant : PuschGrant) : grant.counted ≤ grant.pusch.rbSize := by
  unfold counted
  split
  · exact Nat.zero_le _
  · exact le_refl _

theorem PuschGrant.counted_eq_iff (grant : PuschGrant) :
    grant.counted = grant.pusch.rbSize ↔ (grant.kind.isRetransmission → grant.pusch.rbSize = 0) := by
  unfold counted
  split_ifs with again
  · simp [again, eq_comm]
  · simp [again]

theorem counted_sum_le : (grants.map counted).sum ≤ ulGrantedRbs grants := by
  induction grants with
  | nil => exact le_refl 0
  | cons grant rest ih =>
    have here := grant.counted_le
    simp only [ulGrantedRbs, map_cons, sum_cons] at ih ⊢
    omega

theorem counted_sum_eq_iff :
    (grants.map counted).sum = ulGrantedRbs grants ↔
      ∀ grant ∈ grants, grant.kind.isRetransmission → grant.pusch.rbSize = 0 := by
  induction grants with
  | nil => simp [ulGrantedRbs]
  | cons grant rest ih =>
    have here := grant.counted_le
    have later := counted_sum_le rest
    rw [forall_mem_cons, ← grant.counted_eq_iff, ← ih]
    simp only [ulGrantedRbs, map_cons, sum_cons] at later ⊢
    omega

def plainUlCell : UlCell Unit where
  frame := 0
  slot := 0
  ssbSubcarrierSpacing := 0
  tdd := none
  carrierBandwidth := 106
  minGrantPrb := 5
  minGrantMcs := 9
  ulschMaxFrameInactivity := 10
  ntnKoffset := 0
  ulschSlotBitmap := fun _ => true
  getInfoFromTdaTables := fun _ _ => ⟨false, 0, 0⟩
  getUlDmrsParams := fun _ _ _ => ⟨12, 1⟩
  getMcs := fun _ => 9
  nrGetCodeRateUl := fun _ _ => 6790
  nrGetQmUl := fun _ _ => 2
  computePhFactor := fun _ _ _ _ _ => 0
  getCceIndex := fun _ _ => (0, ())
  fillPdcchVrbMap := fun _ _ _ => ()
  sortUes := id
  sortUes_perm := List.Perm.refl

def narrowUlBwp : UlBwp where
  bwpSize := 24
  tdaListCommon := some [⟨41, some 2⟩]

def repeatingUe : UlUe where
  rnti := 1
  msg4Acked := true
  retransUlHarqHead := 0
  harqPusch := fun _ => { rbSize := 20, mcs := 9, r := 6790, qm := 2, tbSize := 504, nrOfLayers := 1
                          tdaInfo := ⟨true, 0, 13⟩, dmrsInfo := ⟨12, 1⟩ }
  currentUlBwp := narrowUlBwp

def sendingUe : UlUe where
  rnti := 2
  msg4Acked := true
  estimatedUlBuffer := 2000
  currentUlBwp := narrowUlBwp

def halfBlockedInput : UlInput Unit where
  cell := plainUlCell
  first := repeatingUe
  others := [sendingUe]
  control := ()
  vrbMapUl := fun rb => if rb < 12 then 0 else 0x3fff
  behind := fun _ => 0
  tdaList := [⟨41, some 2⟩]
  known := rfl

def halfBlockedState : UlState Unit := (pfUl plainUlCell (halfBlockedInput.start (0, 2))).state

end OranSlice.Mac
