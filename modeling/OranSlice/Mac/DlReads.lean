import OranSlice.Mac.DlInput

/-! The entries of `rballoc_mask` that the searches of a slot read, and when they lie in the BWP. A search
goes from the first to the last resource block that a UE may use, and does not know where the mask ends. -/

namespace OranSlice.Mac

open FreeRun List

variable {κ : Type}

def searchReads (free : Nat → Bool) (want rbEnd : Nat) : Nat → Nat → List Nat
  | 0, _ => []
  | fuel + 1, rbStart =>
    let start := skip free (rbEnd - 1 - rbStart) rbStart
    skipReads free (rbEnd - 1 - rbStart) rbStart ++
      if rbEnd ≤ start + 1 then []
      else
        let rbSize := run free (min (rbEnd - start) want) start
        runReads free (rbEnd - start) want start ++
          if rbSize < want then searchReads free want rbEnd fuel (start + rbSize) else []

def reuseReads (mask : RbMask) (rbStart rbEnd : Nat) (retInfo : SchedPdsch) : List Nat :=
  if retInfo.rbSize = 0 then []
  else searchReads (mask.isFree retInfo.tdaInfo.bitmap) retInfo.rbSize rbEnd (rbEnd + 1) rbStart

def changedReads (mask : RbMask) (rbStart rbEnd : Nat) (tda : TdaInfo) : List Nat :=
  let free := mask.isFree tda.bitmap
  let start := skip free (rbEnd - 1 - rbStart) rbStart
  skipReads free (rbEnd - 1 - rbStart) rbStart ++ runReads free (rbEnd - start) (rbEnd - start) start

structure RetxSearch where
  ue : UeInfo
  mask : RbMask

def RetxSearch.reads (cell : DlCell κ) (search : RetxSearch) : List Nat :=
  let (rbStart, rbEnd) := getStartStopAllocation cell search.ue
  let tempTda := cell.getDlTdaInfo search.ue cell.getDlTda
  if search.ue.repeatsOld tempTda search.ue.retInfo then
    reuseReads search.mask rbStart rbEnd search.ue.retInfo
  else changedReads search.mask rbStart rbEnd tempTda

/-- The search of a turn. It may find nothing, or be made for a retransmission that then has no CCE or
PUCCH. -/
def turnSearch (cell : DlCell κ) (ueIndex : Nat) (s : DlState κ) : Option RetxSearch :=
  match s.ues[ueIndex]? with
  | none => none
  | some ue =>
    if !ue.msg4Acked || ue.ulFailure then none
    else if s.remainUes = 0 then none
    else if ue.retransDlHarqHead < 0 then none
    else if cell.getDlTda < 0 then none
    else if !(cell.getDlTdaInfo ue.atTurn cell.getDlTda).validTda then none
    else some ⟨ue.atTurn, s.mask⟩

def turnSearches (cell : DlCell κ) : List Nat → DlState κ → List RetxSearch
  | [], _ => []
  | ueIndex :: rest, s =>
    (turnSearch cell ueIndex s).toList ++
      match retransmissionTurn cell ueIndex s with
      | .done next => turnSearches cell rest next
      | .abort _ _ => []

section

variable (cell : DlCell κ) (bwpSize : Nat) (grant : Grant)

def Grant.newTxTda : TdaInfo := cell.getDlTdaInfo grant.ue cell.getDlTda

def Grant.newTxStart : Nat := Mac.newTxStart cell grant.maskBefore grant.ue (grant.newTxTda cell)

def Grant.newTxMax : Nat := newTxMaxRbSize cell grant.maskBefore grant.remain grant.ue (grant.newTxTda cell)

/-- What a new transmission reads. The resource block it starts from is only read if the search came
to it before the last one. -/
def Grant.newTxReads : List Nat :=
  if grant.sid.isSome then
    let (rbStart, rbEnd) := getStartStopAllocation cell grant.ue
    let free := grant.maskBefore.isFree (grant.newTxTda cell).bitmap
    let start := grant.newTxStart cell
    skipReads free (rbEnd - 1 - rbStart) rbStart ++
      runReads free (rbEnd - (start + 1)) (grant.remain - 1).toNat (start + 1)
  else []

def Grant.StaysInside : Prop :=
  (getStartStopAllocation cell grant.ue).2 ≤ bwpSize ∨ grant.newTxStart cell + grant.newTxMax cell < bwpSize

end

def DlInput.retxSearches (input : DlInput κ) : List RetxSearch :=
  turnSearches input.cell (range input.ues.length) input.start

def DlInput.maskReads (input : DlInput κ) (slSched : List SlSched) : List Nat :=
  input.retxSearches.flatMap (RetxSearch.reads input.cell) ++
    (input.sched slSched).state.grants.flatMap (Grant.newTxReads input.cell)

/-- A search for `want` resource blocks in a range that ends behind the BWP stays in it: the range is empty,
it ends one behind the BWP and no run comes to the end of the BWP, or a run is found in time. -/
def FoundInside (free : Nat → Bool) (want rbStart rbEnd bwpSize : Nat) : Prop :=
  rbEnd ≤ rbStart + 1 ∨ (rbEnd = bwpSize + 1 ∧ free (bwpSize - 1) = false) ∨
    ∃ start, rbStart ≤ start ∧ start + want < bwpSize ∧ ∀ i < want, free (start + i) = true

/-- The count of the first run of such a range stays in the BWP: the range is empty, or the run begins
and ends in the BWP. -/
def RunInside (free : Nat → Bool) (rbStart rbEnd bwpSize : Nat) : Prop :=
  rbEnd ≤ rbStart ∨ ∃ first next, rbStart ≤ first ∧ first < next ∧ next < bwpSize ∧
    free first = true ∧ free next = false

def RetxSearch.StaysInside (cell : DlCell κ) (bwpSize : Nat) (search : RetxSearch) : Prop :=
  let (rbStart, rbEnd) := getStartStopAllocation cell search.ue
  let tempTda := cell.getDlTdaInfo search.ue cell.getDlTda
  let old := search.ue.retInfo
  rbEnd ≤ bwpSize ∨
    if search.ue.repeatsOld tempTda old then
      old.rbSize = 0 ∨ FoundInside (search.mask.isFree old.tdaInfo.bitmap) old.rbSize rbStart rbEnd bwpSize
    else RunInside (search.mask.isFree tempTda.bitmap) rbStart rbEnd bwpSize

section

variable {free : Nat → Bool} {want rbStart rbEnd fuel bwpSize found rb : Nat} {mask : RbMask}
  {retInfo info changed : SchedPdsch} {tda : TdaInfo}

theorem searchReads_lt (member : rb ∈ searchReads free want rbEnd fuel rbStart) : rb < rbEnd := by
  induction fuel generalizing rbStart with
  | zero => simp [searchReads] at member
  | succ fuel ih =>
    simp only [searchReads] at member
    rcases mem_append.mp member with skipped | later
    · have := mem_skipReads.mp skipped
      omega
    split at later
    · cases later
    rcases mem_append.mp later with counted | again
    · have := mem_runReads.mp counted
      omega
    split at again
    · exact ih again
    · cases again

section Found

variable {start size : Nat} (first : ∀ other, rbStart ≤ other → free other = true → start ≤ other)

include first

theorem foundInside_end (beyond : bwpSize < rbEnd) (some : 0 < want) (ended : rbEnd ≤ start + 1) :
    FoundInside free want rbStart rbEnd bwpSize ↔ rbEnd ≤ rbStart + 1 ∨ rbEnd = bwpSize + 1 := by
  constructor
  · rintro (empty | ⟨next, _⟩ | ⟨other, after, before, all⟩)
    · exact .inl empty
    · exact .inr next
    · have := first other after (by simpa using all 0 some)
      omega
  · rintro (empty | next)
    · exact .inl empty
    by_cases empty : rbEnd ≤ rbStart + 1
    · exact .inl empty
    refine .inr (.inl ⟨next, ?_⟩)
    by_contra here
    have := first (bwpSize - 1) (by omega) (by simpa using here)
    omega

variable (forward : rbStart ≤ start) (inside : start + 1 < rbEnd)
  (covered : ∀ other, start ≤ other → other < start + size → free other = true)

include forward inside covered

theorem foundInside_run (some : 0 < want) (enough : want ≤ size) :
    FoundInside free want rbStart rbEnd bwpSize ↔ start + want < bwpSize := by
  constructor
  · rintro (empty | ⟨next, blocked⟩ | ⟨other, after, before, all⟩)
    · omega
    · by_contra reached
      rw [covered (bwpSize - 1) (by omega) (by omega)] at blocked
      cases blocked
    · have := first other after (by simpa using all 0 some)
      omega
  · exact fun before => .inr (.inr ⟨start, forward, before, fun i below => covered _ (by omega) (by omega)⟩)

theorem foundInside_short (beyond : bwpSize < rbEnd) (least : 0 < size) (short : size < want)
    (stops : start + size < rbEnd → free (start + size) = false) :
    FoundInside free want rbStart rbEnd bwpSize ↔
      start + size < bwpSize ∧ FoundInside free want (start + size) rbEnd bwpSize := by
  constructor
  · rintro (empty | ⟨next, blocked⟩ | ⟨other, after, before, all⟩)
    · omega
    · refine ⟨?_, .inr (.inl ⟨next, blocked⟩)⟩
      by_contra reached
      rw [covered (bwpSize - 1) (by omega) (by omega)] at blocked
      cases blocked
    · have later := first other after (by simpa using all 0 (by omega))
      -- a run that begins in the short one would make it longer
      have apart : start + size ≤ other := by
        by_contra within
        have free := all (start + size - other) (by omega)
        rw [Nat.add_sub_cancel' (by omega), stops (by omega)] at free
        cases free
      exact ⟨by omega, .inr (.inr ⟨other, apart, before, all⟩)⟩
  · rintro ⟨before, empty | next | ⟨other, after, later, all⟩⟩
    · omega
    · exact .inr (.inl next)
    · exact .inr (.inr ⟨other, by omega, later, all⟩)

end Found

theorem searchReads_inside (some : 0 < want) (enough : rbEnd < fuel + rbStart) (beyond : bwpSize < rbEnd) :
    (∀ rb ∈ searchReads free want rbEnd fuel rbStart, rb < bwpSize) ↔
      FoundInside free want rbStart rbEnd bwpSize := by
  induction fuel generalizing rbStart with
  | zero =>
    have empty : rbEnd ≤ rbStart + 1 := by omega
    simp [searchReads, FoundInside, empty]
  | succ fuel ih =>
    simp only [searchReads, forall_mem_append]
    rw [skipReads_below]
    have forward := @le_skip free (rbEnd - 1 - rbStart) rbStart
    have onFree := @skip_free free (rbEnd - 1 - rbStart) rbStart
    have first : ∀ other, rbStart ≤ other → free other = true →
        skip free (rbEnd - 1 - rbStart) rbStart ≤ other :=
      fun other after here => skip_le_of_free here _ after
    generalize skip free (rbEnd - 1 - rbStart) rbStart = start at forward onFree first
    by_cases ended : rbEnd ≤ start + 1
    · rw [if_pos ended, foundInside_end first beyond some ended, and_iff_left (by simp)]
      omega
    have inside := Nat.lt_of_not_le ended
    rw [if_neg ended, forall_mem_append, runReads_below]
    have most := @run_le free (min (rbEnd - start) want) start
    have least : 1 ≤ run free (min (rbEnd - start) want) start :=
      (le_run_iff _ _ _).mpr ⟨by omega, fun i below => by simpa [Nat.lt_one_iff.mp below] using onFree (by omega)⟩
    have stops := @run_stops free start (min (rbEnd - start) want)
    have covered : ∀ other, start ≤ other → other < start + run free (min (rbEnd - start) want) start →
        free other = true := fun other after before => by
      have := @run_free free start (min (rbEnd - start) want) (other - start) (by omega)
      rwa [Nat.add_sub_cancel' after] at this
    generalize run free (min (rbEnd - start) want) start = size at most least stops covered
    by_cases short : size < want
    · rw [if_pos short, ih (by omega),
        foundInside_short first forward inside covered beyond least short fun below => stops (by omega)]
      exact ⟨fun ⟨_, read, found⟩ => ⟨by omega, found⟩, fun ⟨before, found⟩ => ⟨by omega, by omega, found⟩⟩
    · rw [if_neg short, foundInside_run first forward inside covered some (not_lt.mp short)]
      exact ⟨fun ⟨_, read, _⟩ => by omega, fun before => ⟨by omega, by omega, forall_mem_nil _⟩⟩

theorem reuseReads_inside (beyond : bwpSize < rbEnd) :
    (∀ rb ∈ reuseReads mask rbStart rbEnd retInfo, rb < bwpSize) ↔ retInfo.rbSize = 0 ∨
      FoundInside (mask.isFree retInfo.tdaInfo.bitmap) retInfo.rbSize rbStart rbEnd bwpSize := by
  unfold reuseReads
  split_ifs with empty
  · simp [empty]
  · rw [searchReads_inside (Nat.pos_of_ne_zero empty) (by omega) beyond]
    simp [empty]

theorem changedReads_inside (beyond : bwpSize < rbEnd) :
    (∀ rb ∈ changedReads mask rbStart rbEnd tda, rb < bwpSize) ↔
      RunInside (mask.isFree tda.bitmap) rbStart rbEnd bwpSize := by
  simp only [changedReads, forall_mem_append]
  generalize mask.isFree tda.bitmap = free
  rw [skipReads_below, runReads_below, min_self]
  have forward := @le_skip free (rbEnd - 1 - rbStart) rbStart
  have most := @skip_le free (rbEnd - 1 - rbStart) rbStart
  have onFree := @skip_free free (rbEnd - 1 - rbStart) rbStart
  have early : ∀ other, rbStart ≤ other → free other = true →
      skip free (rbEnd - 1 - rbStart) rbStart ≤ other :=
    fun other after here => skip_le_of_free here _ after
  generalize skip free (rbEnd - 1 - rbStart) rbStart = start at forward most onFree early
  constructor
  · rintro ⟨_, read⟩
    by_cases empty : rbEnd ≤ rbStart
    · exact .inl empty
    have here := onFree (by omega)
    have ends := @run_stops free start (rbEnd - start) (by omega)
    have counted : run free (rbEnd - start) start ≠ 0 := by
      intro none
      rw [none, Nat.add_zero, here] at ends
      cases ends
    exact .inr ⟨start, _, forward, by omega, by omega, here, ends⟩
  · rintro (empty | ⟨first, next, after, order, inside, here, ends⟩)
    · exact ⟨by omega, by omega⟩
    have before := early first after here
    -- the run from `start` on does not go past `next`
    have short : start + run free (rbEnd - start) start ≤ next := by
      by_contra longer
      have covered := @run_free free start (rbEnd - start) (next - start) (by omega)
      rw [Nat.add_sub_cancel' (by omega), ends] at covered
      cases covered
    exact ⟨by omega, by omega⟩

theorem searchFreeRun_reads (result : searchFreeRun free want rbEnd fuel rbStart = some found) {i : Nat}
    (below : i < want) : found + i ∈ searchReads free want rbEnd fuel rbStart := by
  induction fuel generalizing rbStart with
  | zero => simp [searchFreeRun] at result
  | succ fuel ih =>
    simp only [searchFreeRun] at result
    simp only [searchReads, mem_append]
    generalize skip free (rbEnd - 1 - rbStart) rbStart = start at result ⊢
    split at result
    · cases result
    rename_i inside
    rw [if_neg inside]
    split at result
    · rename_i short
      rw [if_pos short]
      exact .inr (mem_append_right _ (ih result))
    rename_i enough
    cases result
    have most := @run_le free (min (rbEnd - found) want) found
    exact .inr (mem_append_left _ (mem_runReads.mpr ⟨by omega, by omega, by omega⟩))

end

section

variable {cell : DlCell κ} {mask : RbMask} {ue : UeInfo}
  {search : RetxSearch} {info : SchedPdsch} {ueIndex harqPid bwpSize start : Nat} {s : DlState κ} {grant : Grant}

theorem RetxSearch.reads_inside :
    (∀ rb ∈ search.reads cell, rb < bwpSize) ↔ search.StaysInside cell bwpSize := by
  simp only [RetxSearch.reads, RetxSearch.StaysInside]
  generalize getStartStopAllocation cell search.ue = range
  obtain ⟨rbStart, rbEnd⟩ := range
  dsimp only
  rcases Nat.lt_or_ge bwpSize rbEnd with beyond | within
  · split_ifs
    · rw [reuseReads_inside beyond]
      exact ⟨.inr, fun stays => stays.resolve_left (not_le.mpr beyond)⟩
    · rw [changedReads_inside beyond]
      exact ⟨.inr, fun stays => stays.resolve_left (not_le.mpr beyond)⟩
  · refine iff_of_true (fun rb member => lt_of_lt_of_le ?_ within) (.inl within)
    split_ifs at member
    · unfold reuseReads at member
      split at member
      · cases member
      · exact searchReads_lt member
    · simp only [changedReads, mem_append, mem_skipReads, mem_runReads] at member
      omega

theorem retransmissionPlan_reads (plan : retransmissionPlan cell mask ue cell.getDlTda
      (cell.getDlTdaInfo ue cell.getDlTda) ue.retInfo = some (start, info)) {i : Nat} (below : i < info.rbSize) :
    start + i ∈ RetxSearch.reads cell ⟨ue, mask⟩ := by
  have fits := retransmissionPlan_fits plan
  unfold retransmissionPlan at plan
  unfold RetxSearch.reads
  dsimp only at plan ⊢
  split at plan
  · rename_i repeats
    rw [if_pos repeats]
    unfold reusePlan at plan
    unfold reuseReads
    split at plan
    · cases plan
      omega
    rename_i positive
    obtain ⟨found, result, same⟩ := Option.map_eq_some_iff.mp plan
    cases same
    rw [if_neg positive]
    exact searchFreeRun_reads result below
  · rename_i changed
    rw [if_neg changed]
    simp only [changedPlan] at plan
    split at plan
    · cases plan
    obtain ⟨found, format⟩ := Prod.mk.inj (Option.some.inj plan)
    have begins : skip (mask.isFree (cell.getDlTdaInfo ue cell.getDlTda).bitmap)
        ((getStartStopAllocation cell ue).2 - 1 - (getStartStopAllocation cell ue).1)
        (getStartStopAllocation cell ue).1 = start := found
    have symbols : info.tdaInfo = cell.getDlTdaInfo ue cell.getDlTda := by
      rw [← format]
      rfl
    rw [symbols] at fits
    have most := @run_le (mask.isFree (cell.getDlTdaInfo ue cell.getDlTda).bitmap)
      ((getStartStopAllocation cell ue).2 - start) start
    refine mem_append_right _ (mem_runReads.mpr ?_)
    rw [begins, min_self]
    exact ⟨by omega, by omega, by omega⟩

theorem allocateDlRetransmission_searched
    (member : grant ∈ (allocateDlRetransmission cell ueIndex ue harqPid s).state.grants) :
    grant ∈ s.grants ∨ (¬ cell.getDlTda < 0 ∧ (cell.getDlTdaInfo ue cell.getDlTda).validTda = true ∧
      grant.ue = ue ∧ grant.maskBefore = s.mask) := by
  unfold allocateDlRetransmission at member
  split at member
  · exact .inl member
  rename_i known
  dsimp only at member
  split at member
  · exact .inl member
  rename_i valid
  split at member
  · exact .inl member
  split at member
  · exact .inl member
  split at member
  · exact .inl member
  rcases mem_append.mp member with old | last
  · exact .inl old
  · rw [mem_singleton.mp last]
    exact .inr ⟨known, by simpa using valid, rfl, rfl⟩

theorem retransmissionTurn_searched (member : grant ∈ (retransmissionTurn cell ueIndex s).state.grants) :
    grant ∈ s.grants ∨ turnSearch cell ueIndex s = some ⟨grant.ue, grant.maskBefore⟩ := by
  unfold retransmissionTurn at member
  unfold turnSearch
  cases present : s.ues[ueIndex]? with
  | none =>
    rw [present] at member
    exact .inl member
  | some ue =>
    rw [present] at member
    dsimp only at member ⊢
    split at member
    · exact .inl member
    rename_i ready
    split at member
    · exact .inl member
    rename_i room
    split at member
    · exact .inl member
    rename_i waiting
    have attempted : grant ∈ (allocateDlRetransmission cell ueIndex ue.atTurn ue.retransDlHarqHead.toNat
        { s with ues := s.ues.set ueIndex ue.atTurn }).state.grants := by
      generalize allocateDlRetransmission cell ueIndex ue.atTurn ue.retransDlHarqHead.toNat
        { s with ues := s.ues.set ueIndex ue.atTurn } = outcome at member ⊢
      cases outcome <;> exact member
    rcases allocateDlRetransmission_searched attempted with old | ⟨known, valid, same, mask⟩
    · exact .inl old
    · rw [if_neg ready, if_neg room, if_neg waiting, if_neg known, valid, same, mask]
      exact .inr rfl

theorem turns_searched {turns : List Nat}
    (member : grant ∈ (Outcome.loop (retransmissionTurn cell) turns s).state.grants) :
    grant ∈ s.grants ∨ ⟨grant.ue, grant.maskBefore⟩ ∈ turnSearches cell turns s := by
  induction turns generalizing s with
  | nil => exact .inl member
  | cons ueIndex rest ih =>
    rw [Outcome.loop_cons] at member
    unfold turnSearches
    have turn := @retransmissionTurn_searched κ cell ueIndex s grant
    cases taken : retransmissionTurn cell ueIndex s with
    | done next =>
      rw [taken] at member turn
      rcases ih member with early | later
      · rcases turn early with old | here
        · exact .inl old
        · rw [here]
          exact .inr mem_cons_self
      · exact .inr (mem_append_right _ later)
    | abort reason next =>
      rw [taken] at member turn
      rcases turn member with old | here
      · exact .inl old
      · rw [here]
        exact .inr mem_cons_self

theorem Grant.newTxMax_run (cell : DlCell κ) (grant : Grant) : grant.newTxMax cell =
    1 + run (grant.maskBefore.isFree (grant.newTxTda cell).bitmap) (min ((getStartStopAllocation cell grant.ue).2 -
      (grant.newTxStart cell + 1)) (grant.remain - 1).toNat) (grant.newTxStart cell + 1) := rfl

theorem Grant.newTxReads_inside (new : grant.sid.isSome = true) (starts : grant.newTxStart cell < bwpSize) :
    (∀ rb ∈ grant.newTxReads cell, rb < bwpSize) ↔ grant.StaysInside cell bwpSize := by
  have begins : skip (grant.maskBefore.isFree (grant.newTxTda cell).bitmap)
      ((getStartStopAllocation cell grant.ue).2 - 1 - (getStartStopAllocation cell grant.ue).1)
      (getStartStopAllocation cell grant.ue).1 = grant.newTxStart cell := rfl
  rw [Grant.newTxReads, if_pos new, forall_mem_append, skipReads_below, runReads_below, begins, Grant.StaysInside,
    Grant.newTxMax_run]
  omega

end

end OranSlice.Mac
