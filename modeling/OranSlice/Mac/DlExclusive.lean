import OranSlice.Mac.DlReads
import OranSlice.Mac.DlScenarios
import OranSlice.Mac.RbExclusive

/-! Resource blocks and symbols of a slot belong to at most one UE and no search leaves the BWP, exactly
when every search ends in the BWP and every new transmission finds room. -/

namespace OranSlice.Mac

open FreeRun List

variable {κ : Type}

def Grant.Covers (grant : Grant) (rb : Nat) : Prop :=
  grant.pdsch.rbStart ≤ rb ∧ rb < grant.pdsch.rbStart + grant.pdsch.rbSize

def Grant.cells (grant : Grant) : Set (Nat × Nat) :=
  { cell | grant.Covers cell.1 ∧ cell.2 < 16 ∧ grant.pdsch.tdaInfo.startSymbolIndex ≤ cell.2 ∧
    cell.2 < grant.pdsch.tdaInfo.startSymbolIndex + grant.pdsch.tdaInfo.nrOfSymbols }

structure Exclusive (bwpSize : Nat) (mask : RbMask) (grants : List Grant) (reads : List Nat) : Prop where
  read : ∀ rb ∈ reads, rb < bwpSize
  inside : ∀ grant ∈ grants, ∀ rb, grant.Covers rb → rb < bwpSize
  unblocked : ∀ grant ∈ grants, grant.cells ⊆ mask.cells
  apart : ∀ grant ∈ grants, ∀ other ∈ grants, grant.ueIndex ≠ other.ueIndex →
    Disjoint grant.cells other.cells

def Grant.Fits (bwpSize : Nat) (grant : Grant) : Prop :=
  grant.pdsch.rbSize ≤ freeRun bwpSize grant.maskBefore grant.pdsch.tdaInfo grant.pdsch.rbStart

def Grant.area (grant : Grant) : RbArea :=
  ⟨grant.ueIndex, grant.maskBefore, grant.pdsch.tdaInfo, grant.pdsch.rbStart, grant.pdsch.rbSize⟩

variable {mask last : RbMask} {grants : List Grant} {bwpSize sid : Nat} {cell : DlCell κ} {grant : Grant}

theorem MaskChain.areas (chain : MaskChain mask grants last) : AreaChain mask (grants.map Grant.area) last := by
  induction grants generalizing mask with
  | nil => exact chain
  | cons grant rest ih => exact ⟨chain.1, ih chain.2⟩

theorem exclusive_iff_areas (bwpSize : Nat) (mask : RbMask) (grants : List Grant) (reads : List Nat) :
    Exclusive bwpSize mask grants reads ↔
      (∀ rb ∈ reads, rb < bwpSize) ∧ AreasExclusive bwpSize mask (grants.map Grant.area) := by
  constructor
  · intro exclusive
    exact ⟨exclusive.read, forall_mem_map.mpr exclusive.inside, forall_mem_map.mpr exclusive.unblocked,
      forall_mem_map.mpr fun grant member =>
        forall_mem_map.mpr fun other inside => exclusive.apart grant member other inside⟩
  · rintro ⟨read, exclusive⟩
    exact ⟨read, forall_mem_map.mp exclusive.inside, forall_mem_map.mp exclusive.unblocked,
      fun grant member => forall_mem_map.mp (forall_mem_map.mp exclusive.apart grant member)⟩

theorem exclusive_iff_fits (chain : MaskChain mask grants last) (once : (grants.map Grant.ueIndex).Nodup)
    (reads : List Nat) : Exclusive bwpSize mask grants reads ↔
      (∀ rb ∈ reads, rb < bwpSize) ∧ ∀ grant ∈ grants, grant.Fits bwpSize := by
  rw [exclusive_iff_areas, chain.areas.exclusive_iff (by rwa [map_map]), forall_mem_map]
  rfl

theorem sched_chain (input : DlInput κ) (table : SlTable) :
    (∃ last, MaskChain input.mask (input.sched table.entries).state.grants last) ∧
      ((input.sched table.entries).state.grants.map Grant.ueIndex).Nodup := by
  obtain ⟨all, distinct, invariant⟩ := firstStage_invariant input
  obtain ⟨new, made⟩ := sched_grants input table
  rw [made.grants, map_append, nodup_append]
  refine ⟨⟨_, invariant.chain.append made.chain⟩, distinct.sublist invariant.order, made.once, ?_⟩
  -- a UE with an attempted retransmission is marked, and marked UEs are not eligible
  intro index early other late same
  obtain ⟨retx, inRetx, rfl⟩ := mem_map.mp early
  obtain ⟨newTx, inNew, rfl⟩ := mem_map.mp late
  obtain ⟨ue, present, marked⟩ := invariant.marked retx inRetx
  obtain ⟨entry, _, _, context, _, unmarked⟩ := made.made newTx inNew
  rw [← same, getElem?_map, present] at context
  have both := congrArg UeInfo.alreadySched (Option.some.inj context)
  change ue.alreadySched = newTx.ue.alreadySched at both
  rw [marked, unmarked] at both
  cases both

def Grant.newTxRun (cell : DlCell κ) (rbEnd : Nat) (grant : Grant) : Nat :=
  freeRun rbEnd grant.maskBefore (grant.newTxTda cell) (grant.newTxStart cell)

/-- The free run that a new transmission finds has room for it: it is not empty, and it holds five
resource blocks, or the demand fills what the UE may use of it or needs more than five. -/
def Grant.HasRoom (cell : DlCell κ) (bwpSize sid : Nat) (grant : Grant) : Prop :=
  let own := grant.newTxRun cell (getStartStopAllocation cell grant.ue).2
  let params := (newTxFormat cell grant.ue (grant.newTxTda cell) 0).tbsParams
  let demand := newTxDemand cell sid grant.ue
  0 < grant.newTxRun cell bwpSize ∧ (minRbSize ≤ grant.newTxRun cell bwpSize ∨
    params.tbs (max 1 own) ≤ demand ∨ params.tbs minRbSize < demand)

section

variable (some : 0 < grant.newTxRun cell bwpSize)

include some

theorem Grant.newTxMax_eq (enough : minRbSize ≤ grant.remain) : grant.newTxMax cell =
    min (max 1 (grant.newTxRun cell (getStartStopAllocation cell grant.ue).2)) grant.remain.toNat := by
  have least : minRbSize = 5 := rfl
  have free : grant.maskBefore.isFree (grant.newTxTda cell).bitmap (grant.newTxStart cell) = true := run_free some
  simp only [Grant.newTxMax_run, Grant.newTxRun, freeRun, run_min]
  generalize grant.newTxStart cell = start at free ⊢
  generalize (getStartStopAllocation cell grant.ue).2 = rbEnd
  rcases Nat.lt_or_ge start rbEnd with below | above
  · have split : rbEnd - start = (rbEnd - (start + 1)) + 1 := by omega
    rw [split, run_succ_of_free free]
    omega
  have none : rbEnd - start = 0 := by omega
  have nothing : rbEnd - (start + 1) = 0 := by omega
  rw [none, nothing]
  simp only [run]
  omega

theorem Grant.newTxMax_le (stays : grant.StaysInside cell bwpSize) :
    grant.newTxMax cell ≤ grant.newTxRun cell bwpSize := by
  have begins := (le_run_iff _ _ 1).mp some
  rw [Grant.StaysInside, Grant.newTxMax_run] at stays
  rw [Grant.newTxMax_run]
  generalize counted : min _ (grant.remain - 1).toNat = limit at stays ⊢
  have most := @run_le (grant.maskBefore.isFree (grant.newTxTda cell).bitmap) limit (grant.newTxStart cell + 1)
  refine (le_run_iff _ _ _).mpr ⟨by omega, fun i below => ?_⟩
  cases i with
  | zero => exact begins.2 0 one_pos
  | succ i =>
    have free := @run_free _ _ _ i (Nat.lt_of_add_lt_add_left (Nat.add_comm i 1 ▸ below))
    rwa [Nat.add_assoc, Nat.add_comm 1 i] at free

end

namespace NewTxGrant

variable (made : NewTxGrant cell sid grant)

include made

theorem rbSize_eq : grant.pdsch.rbSize = (nrFindNbRb (newTxFormat cell grant.ue (grant.newTxTda cell) 0).tbsParams
    false (newTxDemand cell sid grant.ue) minRbSize (grant.newTxMax cell)).nbRb := by
  obtain ⟨alloc, decided⟩ := made.decided
  rw [decided]
  rfl

theorem fits_run : grant.Fits bwpSize ↔ grant.pdsch.rbSize ≤ grant.newTxRun cell bwpSize := by
  obtain ⟨alloc, decided⟩ := made.decided
  rw [Grant.Fits, decided]
  rfl

theorem rbSize_pos : 0 < grant.pdsch.rbSize := by
  have offered := Grant.newTxMax_run cell grant
  rw [made.rbSize_eq]
  exact nrFindNbRb_pos _ _ (by decide) (by omega)

theorem fits_iff (stays : grant.StaysInside cell bwpSize) :
    grant.Fits bwpSize ↔ grant.HasRoom cell bwpSize sid := by
  have positive := made.rbSize_pos
  have least : minRbSize = 5 := rfl
  have enough := made.enough
  have ways := nrFindNbRb_cases (newTxFormat cell grant.ue (grant.newTxTda cell) 0).tbsParams
    (newTxDemand cell sid grant.ue) minRbSize (grant.newTxMax cell)
  rw [← made.rbSize_eq] at ways
  rw [made.fits_run]
  simp only [Grant.HasRoom]
  rcases Nat.eq_zero_or_pos (grant.newTxRun cell bwpSize) with none | some
  · omega
  have most := Grant.newTxMax_eq some enough
  have kept := Grant.newTxMax_le some stays
  by_cases wide : minRbSize ≤ grant.newTxRun cell bwpSize
  · exact ⟨fun _ => ⟨some, .inl wide⟩, fun _ => by omega⟩
  -- the run is shorter than the minimum, so the limit of the slice does not cut it
  have uncut : grant.newTxMax cell = max 1 (grant.newTxRun cell (getStartStopAllocation cell grant.ue).2) := by omega
  rw [uncut] at ways kept
  rcases ways with ⟨fills, size⟩ | ⟨below, small, size⟩ | ⟨_, larger, _, size⟩ | ⟨_, larger, _, bound⟩
  · exact ⟨fun _ => ⟨some, .inr (.inl fills)⟩, fun _ => by omega⟩
  · omega
  · exact ⟨fun _ => ⟨some, .inr (.inr larger)⟩, fun _ => by omega⟩
  · exact ⟨fun _ => ⟨some, .inr (.inr larger)⟩, fun _ => by omega⟩

theorem starts_inside (fits : grant.Fits bwpSize) : grant.newTxStart cell < bwpSize := by
  have some := lt_of_lt_of_le made.rbSize_pos (made.fits_run.mp fits)
  have begins := (le_run_iff _ _ 1).mp some
  omega

theorem reads_and_fits_iff :
    (∀ rb ∈ grant.newTxReads cell, rb < bwpSize) ∧ grant.Fits bwpSize ↔
      grant.StaysInside cell bwpSize ∧ grant.HasRoom cell bwpSize sid := by
  have new : grant.sid.isSome = true := by rw [made.slice]; rfl
  constructor
  · rintro ⟨read, fits⟩
    have stays := (Grant.newTxReads_inside new (made.starts_inside fits)).mp read
    exact ⟨stays, (made.fits_iff stays).mp fits⟩
  · rintro ⟨stays, room⟩
    have fits := (made.fits_iff stays).mpr room
    exact ⟨(Grant.newTxReads_inside new (made.starts_inside fits)).mpr stays, fits⟩

end NewTxGrant

theorem RetxGrant.fits_of_reads (made : RetxGrant cell grant)
    (inside : ∀ rb ∈ RetxSearch.reads cell ⟨grant.ue, grant.maskBefore⟩, rb < bwpSize) : grant.Fits bwpSize := by
  obtain ⟨info, plan, size, tda⟩ := made.planned
  have run := made.fits
  rw [le_run_iff] at run
  rw [Grant.Fits, freeRun, le_run_iff]
  refine ⟨?_, run.2⟩
  rcases Nat.eq_zero_or_pos info.rbSize with empty | some
  · omega
  · have last := inside _ (retransmissionPlan_reads plan (Nat.sub_lt some one_pos))
    omega

theorem sched_made {input : DlInput κ} {table : SlTable}
    (member : grant ∈ (input.sched table.entries).state.grants) :
    (RetxGrant input.cell grant ∧ ⟨grant.ue, grant.maskBefore⟩ ∈ input.retxSearches) ∨
      ∃ sid, NewTxGrant input.cell sid grant := by
  obtain ⟨_, _, invariant⟩ := firstStage_invariant input
  obtain ⟨new, made⟩ := sched_grants input table
  rw [made.grants, mem_append] at member
  rcases member with retx | newTx
  · exact .inl ⟨invariant.made grant retx, (turns_searched retx).resolve_left not_mem_nil⟩
  · obtain ⟨entry, _, granted, _⟩ := made.made grant newTx
    exact .inr ⟨_, granted⟩

/-- A UE that hears DCI 1_0 in a common search space, where the range starts with CORESET 0 of the carrier
and the mask with the BWP, both at resource block 10. -/
def offsetInput : DlInput Unit where
  cell := { plainCell with cset0BwpStart := 10, cset0BwpSize := 48 }
  first :=
    { rnti := 1
      msg4Acked := true
      numTotalBytes := 20
      availSliceList := [⟨0, 20⟩]
      sliceForThisSched := 0
      schedPdsch := { dlHarqPid := -1 }
      searchSpaceCommon := true
      currentDlBwp := { bwpSize := 48, bwpStart := 10, dciFormat10 := true, tdaListCommon := some [40] } }
  others := []
  control := ()
  vrbMap := fun _ => 0
  behind := fun _ => 0
  tdalist := [40]
  known := rfl
  inside := plainCell_tda

example : 48 ∈ offsetInput.maskReads [⟨0, 0, 0, 48, ⟨0, ⟨1, 0xffffff⟩, configuredPolicy⟩⟩] := by decide +kernel

def lightUe (rnti : Nat) : UeInfo where
  rnti := rnti
  msg4Acked := true
  numTotalBytes := 20
  availSliceList := [⟨0, 20⟩]
  sliceForThisSched := 0
  schedPdsch := { dlHarqPid := -1 }
  currentDlBwp := { bwpSize := 12, tdaListCommon := some [40] }

def fragmentedInput : DlInput Unit where
  cell := plainCell
  first := lightUe 1
  others := [lightUe 2]
  control := ()
  vrbMap := fun rb => if rb = 3 then 0x3fff else 0
  behind := fun _ => 0
  tdalist := [40]
  known := rfl
  inside := plainCell_tda

def wholeTable : SlTable where
  entries := [⟨0, 0, 0, 12, ⟨0, ⟨1, 0xffffff⟩, configuredPolicy⟩⟩]
  distinct := by decide

end OranSlice.Mac
