import OranSlice.Mac.SliceTable

/-! When slice selection is total, and which slices it cannot starve. -/

namespace OranSlice.Mac

open List

theorem sliceForUe_isSome (slot ueInd : Nat) (entries : List AvailSlice) :
    (sliceForUe slot ueInd entries).isSome ↔ 1 ≤ entries.length ∧ entries.length ≤ 3 := by
  match entries with
  | [] => simp [sliceForUe]
  | [_] => simp [sliceForUe]
  | [_, _] => simp [sliceForUe]
  | [_, _, _] =>
    simp only [sliceForUe]
    split_ifs <;> simp
  | _ :: _ :: _ :: _ :: rest => simp [sliceForUe]

theorem nrSlicePreprocess_isSome (slot ueInd : Nat) (ues : List UeInfo) :
    (nrSlicePreprocess slot ueInd ues).isSome ↔ ∀ ue ∈ ues, ue.ulFailure = false →
        1 ≤ ue.availSliceList.length ∧ ue.availSliceList.length ≤ 3 := by
  induction ues generalizing ueInd with
  | nil => simp [nrSlicePreprocess]
  | cons ue rest ih =>
    cases failed : ue.ulFailure with
    | true => simp [nrSlicePreprocess, failed, ih ueInd]
    | false =>
      have here := sliceForUe_isSome slot ueInd ue.availSliceList
      cases chosen : sliceForUe slot ueInd ue.availSliceList with
      | none =>
        have outside : ¬ (1 ≤ ue.availSliceList.length ∧ ue.availSliceList.length ≤ 3) := by
          rw [← here, chosen]
          simp
        simp only [nrSlicePreprocess, failed, chosen, forall_mem_cons]
        simp [outside]
      | some sid =>
        have inside : 1 ≤ ue.availSliceList.length ∧ ue.availSliceList.length ≤ 3 := by
          rw [← here, chosen]
          simp
        simp only [nrSlicePreprocess, failed, chosen]
        simp [inside, ih (ueInd + 1)]

variable {ueInd position first second sid : Nat} {ues chosen : List UeInfo} {ue : UeInfo}
  {slices : List SliceInfo}

theorem nrSlicePreprocess_get (slot : Nat) (selected : nrSlicePreprocess slot ueInd ues = some chosen)
    (present : ues[position]? = some ue) (connected : ue.ulFailure = false) :
    chosen[position]?.map UeInfo.sliceForThisSched =
      sliceForUe slot (ueInd + (ues.take position).countP (fun ue => !ue.ulFailure)) ue.availSliceList := by
  induction ues generalizing ueInd chosen position with
  | nil => simp at present
  | cons head rest ih =>
    cases failed : head.ulFailure with
    | true =>
      simp only [nrSlicePreprocess, failed, if_true, Option.map_eq_some_iff] at selected
      obtain ⟨later, selected, rfl⟩ := selected
      cases position with
      | zero =>
        obtain rfl : head = ue := by simpa using present
        simp [failed] at connected
      | succ position =>
        have rest := ih selected (by simpa using present)
        simpa [failed] using rest
    | false =>
      simp only [nrSlicePreprocess, failed, Bool.false_eq_true, if_false,
        Option.bind_eq_some_iff, Option.map_eq_some_iff] at selected
      obtain ⟨sid, picked, later, selected, rfl⟩ := selected
      cases position with
      | zero =>
        obtain rfl : head = ue := by simpa using present
        simp [picked]
      | succ position =>
        have rest := ih selected (by simpa using present)
        simpa [failed, add_assoc, add_comm 1] using rest

theorem selectSlices_isSome (slices : List SliceInfo) (dl : DlSlot) :
    (selectSlices slices dl).isSome ↔
      ∀ ue ∈ dl.ues, ue.ulFailure = false → (activeSlicesIn slices ue).length ≤ 2 := by
  rw [selectSlices, nrSlicePreprocess_isSome, forall_mem_map]
  simp only [prepareUe_ulFailure, prepareUe_length]
  constructor
  · intro all ue member connected
    have bound := all ue member connected
    omega
  · intro all ue member connected
    have bound := all ue member connected
    omega

theorem selectedSlice_eq (slices : List SliceInfo) (visit : UeSlot)
    (total : (selectSlices slices visit.toDlSlot).isSome) :
    selectedSlice slices visit.toDlSlot visit.position = sliceForUe visit.slot visit.ueInd
        (prepareUe slices visit.toDlSlot visit.ue).availSliceList := by
  obtain ⟨chosen, selected⟩ := Option.isSome_iff_exists.mp total
  have present : (visit.ues.map (prepareUe slices visit.toDlSlot))[visit.position]? =
      some (prepareUe slices visit.toDlSlot visit.ue) := by
    simp [visit.present]
  have connected : (prepareUe slices visit.toDlSlot visit.ue).ulFailure = false := by
    rw [prepareUe_ulFailure, visit.connected]
  have picked := nrSlicePreprocess_get visit.slot selected present connected
  rw [selectedSlice, selected, Option.bind_some, picked, ← map_take, countP_map]
  simp only [Function.comp_def, prepareUe_ulFailure, zero_add]
  rfl

private theorem prepared_pair (dl : DlSlot) (active : activeSlicesIn slices ue = [first, second]) :
    ∃ srb one two, (prepareUe slices dl ue).availSliceList = [srb, one, two] ∧
      one.sid = first ∧ two.sid = second := by
  have sids := prepareUe_sids slices dl ue
  rw [active] at sids
  match entries : (prepareUe slices dl ue).availSliceList with
  | [] => simp [entries] at sids
  | [_] => simp [entries] at sids
  | [_, _] => simp [entries] at sids
  | [srb, one, two] =>
    simp only [entries, map_cons, map_nil, cons.injEq, and_true] at sids
    exact ⟨srb, one, two, rfl, sids.2.1, sids.2.2⟩
  | _ :: _ :: _ :: _ :: _ => simp [entries] at sids

def UeSlot.turnOf (visit : UeSlot) : Nat := (visit.slot + visit.ueInd) % 2

theorem sliceForUe_pair (slot ueInd : Nat) (srb one two : AvailSlice) :
    sliceForUe slot ueInd [srb, one, two] =
      some (if (slot + ueInd) % 2 = 0 then preferSlice one two else preferSlice two one) := by
  have slotParity : slot % 2 = 0 ∨ slot % 2 = 1 := by omega
  have placeParity : ueInd % 2 = 0 ∨ ueInd % 2 = 1 := by omega
  rcases slotParity with slotParity | slotParity <;> rcases placeParity with placeParity | placeParity <;>
    simp [sliceForUe, slotParity, placeParity, Nat.add_mod]

theorem turn_serves (slices : List SliceInfo) (visit : UeSlot)
    (total : (selectSlices slices visit.toDlSlot).isSome)
    (distinct : first ≠ second) (nonDefault : 0 < first ∧ 0 < second)
    (active : activeSlicesIn slices visit.ue = [first, second]) (sid : Nat)
    (turn : (visit.turnOf = 0 ∧ sid = first) ∨ (visit.turnOf = 1 ∧ sid = second))
    (pending : 0 < pendingBytes slices visit.toDlSlot visit.ue sid)
    (counted : pendingBytes slices visit.toDlSlot visit.ue sid < 2 ^ 32) :
    selectedSlice slices visit.toDlSlot visit.position = some sid := by
  have member : sid ∈ activeSlicesIn slices visit.ue := by
    rw [active]
    rcases turn with ⟨_, rfl⟩ | ⟨_, rfl⟩ <;> simp
  have recorded := prepareUe_bytesOf slices visit.toDlSlot visit.ue sid member
  rw [Nat.mod_eq_of_lt counted] at recorded
  obtain ⟨srb, one, two, entries, firstSid, secondSid⟩ := prepared_pair visit.toDlSlot active
  have srbSid : srb.sid = 0 := by
    have sids := prepareUe_sids slices visit.toDlSlot visit.ue
    rw [entries] at sids
    simpa using (cons.inj sids).1
  have positive : 0#32 < bytesOf sid (prepareUe slices visit.toDlSlot visit.ue).availSliceList := by
    rw [BitVec.lt_def, recorded]
    simpa using pending
  rw [entries] at positive
  rw [selectedSlice_eq slices visit total, entries, sliceForUe_pair]
  have parity : (visit.slot + visit.ueInd) % 2 = visit.turnOf := rfl
  rcases turn with ⟨turn, rfl⟩ | ⟨turn, rfl⟩
  · have data : 0#32 < one.bytes := by
      have other : ¬ srb.sid = sid := by omega
      simpa [bytesOf, other, firstSid] using positive
    simp [parity, turn, preferSlice, data, firstSid]
  · have data : 0#32 < two.bytes := by
      have other : ¬ srb.sid = sid := by omega
      have earlier : ¬ one.sid = sid := by omega
      simpa [bytesOf, other, earlier, secondSid] using positive
    simp [parity, turn, preferSlice, data, secondSid]

theorem activeSlicesIn_sorted (slices : List SliceInfo) (ue : UeInfo) :
    (activeSlicesIn slices ue).Pairwise (· < ·) :=
  pairwise_lt_range.filter _

theorem activeSlicesIn_pos (active : sid ∈ activeSlicesIn slices ue) : 0 < sid := by
  obtain ⟨_, carried⟩ := mem_filter.mp active
  obtain ⟨lc, _, belongs⟩ := countP_pos_iff.mp (of_decide_eq_true carried)
  have both := of_decide_eq_true belongs
  omega

theorem single_slice_selected (slices : List SliceInfo) (visit : UeSlot)
    (total : (selectSlices slices visit.toDlSlot).isSome)
    (single : (activeSlicesIn slices visit.ue).length ≤ 1) :
    selectedSlice slices visit.toDlSlot visit.position =
      some ((activeSlicesIn slices visit.ue).headD 0) := by
  have sids := prepareUe_sids slices visit.toDlSlot visit.ue
  rw [selectedSlice_eq slices visit total]
  match active : activeSlicesIn slices visit.ue,
      entries : (prepareUe slices visit.toDlSlot visit.ue).availSliceList with
  | [], [srb] =>
    simp only [entries, map_cons, cons.injEq] at sids
    simp [sliceForUe, sids]
  | [sid], [_, one] =>
    simp only [active, entries, map_cons, cons.injEq] at sids
    simp [sliceForUe, sids.2]
  | _ :: _ :: _, _ => simp [active] at single
  | [], [] => simp [entries] at sids
  | [], _ :: _ :: _ => simp [active, entries] at sids
  | [_], [] => simp [entries] at sids
  | [_], [_] => simp [active, entries] at sids
  | [_], _ :: _ :: _ :: _ => simp [active, entries] at sids

/-- With a null pointer left in the table, slice selection stays inside it and aborts exactly when a connected UE
has more than two slices. A single slice is always selected. Of two slices, one that always has data is selected
in every window that gives a turn to both. -/
theorem slice_selection_fair {snssai : List Nssai} {table : SlicePointers}
    (accepted : configureSlices snssai = some table) (room : snssai.length < maxNumSlice) :
    let slices := configuredSlices snssai
    (∀ dl : DlSlot, selectSlicesIn table dl = .ok (selectSlices slices dl) ∧ ((selectSlices slices dl).isSome ↔
      ∀ ue ∈ dl.ues, ue.ulFailure = false → (activeSlicesIn slices ue).length ≤ 2)) ∧
    (∀ visit : UeSlot, (selectSlices slices visit.toDlSlot).isSome →
      (activeSlicesIn slices visit.ue).length ≤ 1 →
      selectedSlice slices visit.toDlSlot visit.position = some ((activeSlicesIn slices visit.ue).headD 0)) ∧
    (∀ (window : List UeSlot) (first second sid : Nat),
      (∀ visit ∈ window, (selectSlices slices visit.toDlSlot).isSome ∧
        activeSlicesIn slices visit.ue = [first, second]) →
      (∃ visit ∈ window, visit.turnOf = 0) → (∃ visit ∈ window, visit.turnOf = 1) →
      sid ∈ [first, second] →
      (∀ visit ∈ window, 0 < pendingBytes slices visit.toDlSlot visit.ue sid ∧
        pendingBytes slices visit.toDlSlot visit.ue sid < 2 ^ 32) →
      ∃ visit ∈ window, selectedSlice slices visit.toDlSlot visit.position = some sid) := by
  intro slices
  have terminated := slIterator_configured accepted
  rw [if_pos room] at terminated
  refine ⟨fun dl => ⟨selectSlicesIn_eq terminated dl, selectSlices_isSome slices dl⟩,
    single_slice_selected slices, ?_⟩
  intro window first second sid legal ⟨evenTurn, evenIn, even⟩ ⟨oddTurn, oddIn, odd⟩ member data
  have sorted := activeSlicesIn_sorted slices evenTurn.ue
  have positive : ∀ s ∈ activeSlicesIn slices evenTurn.ue, 0 < s := fun s => activeSlicesIn_pos
  rw [(legal evenTurn evenIn).2] at sorted positive
  have distinct : first ≠ second := by
    have order : first < second := by simpa using sorted
    omega
  have nonDefault : 0 < first ∧ 0 < second := by simpa using positive
  have serves : ∀ visit ∈ window, (visit.turnOf = 0 ∧ sid = first) ∨ (visit.turnOf = 1 ∧ sid = second) →
      selectedSlice slices visit.toDlSlot visit.position = some sid := by
    intro visit inside turn
    exact turn_serves slices visit (legal visit inside).1 distinct nonDefault
      (legal visit inside).2 sid turn (data visit inside).1 (data visit inside).2
  rcases mem_pair.mp member with same | same
  · exact ⟨evenTurn, evenIn, serves evenTurn evenIn (Or.inl ⟨even, same⟩)⟩
  · exact ⟨oddTurn, oddIn, serves oddTurn oddIn (Or.inr ⟨odd, same⟩)⟩

def drbUe (rnti : Nat) (sds : List (BitVec 32)) : UeInfo :=
  { rnti := rnti, lcConfig := sds.mapIdx (fun i sd => ⟨dlSchLcidDtch + i, ⟨1, sd⟩⟩) }

def threeSnssai : List Nssai := [⟨1, 1⟩, ⟨1, 2⟩, ⟨1, 3⟩]

def threeSlices : List SliceInfo := configuredSlices threeSnssai

def busySlot (slot : Nat) (ue : UeInfo) : DlSlot := ⟨slot, [ue], fun _ _ => ⟨100, 1⟩⟩

def busyVisit (slot : Nat) : UeSlot where
  toDlSlot := busySlot slot (drbUe 1 [1, 2])
  position := 0
  ue := drbUe 1 [1, 2]
  present := rfl
  connected := rfl

theorem slice_selection_fair_busy :
    ∃ visit ∈ [busyVisit 4, busyVisit 5],
      selectedSlice threeSlices visit.toDlSlot visit.position = some 2 := by
  refine (@slice_selection_fair threeSnssai _ rfl (by decide)).2.2 [busyVisit 4, busyVisit 5] 1 2 2 ?_ ?_ ?_ ?_ ?_
  · decide
  · exact ⟨busyVisit 4, by simp, by decide⟩
  · exact ⟨busyVisit 5, by simp, by decide⟩
  · decide
  · decide

/-- A UE with three slices aborts selection. With DL slots of one parity only, the
second slice of a UE always has data and is never selected. -/
theorem slice_selection_aborts_and_starves :
    selectSlices threeSlices (busySlot 0 (drbUe 1 [1, 2, 3])) = none ∧
    ∀ n, pendingBytes threeSlices (busySlot (2 * n) (drbUe 1 [1, 2])) (drbUe 1 [1, 2]) 2 = 100 ∧
      selectedSlice threeSlices (busySlot (2 * n) (drbUe 1 [1, 2])) 0 = some 1 := by
  refine ⟨by decide, ?_⟩
  intro n
  refine ⟨rfl, ?_⟩
  have total : (selectSlices threeSlices (busyVisit (2 * n)).toDlSlot).isSome := by
    rw [selectSlices_isSome]
    intro ue member _
    obtain rfl : ue = drbUe 1 [1, 2] := mem_singleton.mp member
    decide
  have active : activeSlicesIn threeSlices (drbUe 1 [1, 2]) = [1, 2] := by decide
  have turn : (busyVisit (2 * n)).turnOf = 0 := by
    simp [UeSlot.turnOf, busyVisit, busySlot, UeSlot.ueInd]
  have data : pendingBytes threeSlices (busyVisit (2 * n)).toDlSlot (drbUe 1 [1, 2]) 1 = 100 := rfl
  exact turn_serves threeSlices (busyVisit (2 * n)) total (by decide) (by decide) active 1
    (Or.inl ⟨turn, rfl⟩) (data ▸ by decide) (data ▸ by decide)

end OranSlice.Mac
