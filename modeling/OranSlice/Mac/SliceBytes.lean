import OranSlice.Core.Totals
import OranSlice.Mac.DlScenarios
import OranSlice.Mac.SliceFairness

/-! The bytes that wait for a UE, by slice. Each logical channel that is not held back adds to exactly
one entry of the slice list. -/

namespace OranSlice.Mac

open Totals

variable {slices : List SliceInfo} {dl : DlSlot} {ue : UeInfo}

def totalPending (dl : DlSlot) (ue : UeInfo) : Nat :=
  ((ue.lcConfig.filter (fun lc => !ue.heldBack lc.lcid)).map
    (fun lc => (dl.macRlcStatusInd ue lc.lcid).bytesInBuffer.toNat)).sum

structure BytesAttributed (slices : List SliceInfo) (dl : DlSlot) (ue prepared : UeInfo) : Prop where
  distinct : (prepared.availSliceList.map AvailSlice.sid).Nodup
  within : prepared.availSliceList.length ≤ maxNumPduSession + 1
  total : (prepared.availSliceList.map (fun entry => entry.bytes.toNat)).sum = prepared.numTotalBytes.toNat
  each : ∀ entry ∈ prepared.availSliceList, entry.bytes.toNat = pendingBytes slices dl ue entry.sid

theorem bytesOf_of_mem {entries : List AvailSlice} (distinct : (entries.map AvailSlice.sid).Nodup)
    {entry : AvailSlice} (member : entry ∈ entries) : bytesOf entry.sid entries = entry.bytes := by
  induction entries with
  | nil => cases member
  | cons first rest ih =>
    rw [List.map_cons, List.nodup_cons] at distinct
    rcases List.mem_cons.mp member with rfl | later
    · exact if_pos rfl
    have other : first.sid ≠ entry.sid := by
      intro same
      exact distinct.1 (same ▸ List.mem_map_of_mem later)
    rw [bytesOf, if_neg other]
    exact ih distinct.2 later

theorem activeSlices_nodup (ue : UeInfo) : (0 :: ue.activeSlices).Nodup := by
  rw [List.nodup_cons]
  constructor
  · intro member
    have counted := of_decide_eq_true (List.mem_filter.mp member).2
    obtain ⟨lc, _, holds⟩ := List.countP_pos_iff.mp counted
    have both := of_decide_eq_true holds
    omega
  · exact List.nodup_range.filter _

theorem activeSlices_length (ue : UeInfo) : (0 :: ue.activeSlices).length ≤ maxNumPduSession + 1 := by
  have inside : 0 :: ue.activeSlices ⊆ List.range (maxNumPduSession + 1) := by
    intro sid member
    rcases List.mem_cons.mp member with rfl | active
    · exact List.mem_range.mpr (Nat.succ_pos _)
    · exact (List.mem_filter.mp active).1
  have fits := (List.subperm_of_subset (activeSlices_nodup ue) inside).length_le
  rwa [List.length_range] at fits

theorem mem_activeSlices {lc : LcConfig} (member : lc ∈ ue.lcConfig) (bound : ue.dlSlInfo lc.lcid ≤ maxNumPduSession) :
    ue.dlSlInfo lc.lcid ∈ 0 :: ue.activeSlices := by
  by_cases default : ue.dlSlInfo lc.lcid = 0
  · rw [default]
    exact List.mem_cons_self
  apply List.mem_cons_of_mem
  apply List.mem_filter.mpr
  constructor
  · exact List.mem_range.mpr (Nat.lt_succ_of_le bound)
  · apply decide_eq_true
    exact List.countP_pos_iff.mpr ⟨lc, member, decide_eq_true ⟨pos_of_ne_zero default, rfl⟩⟩

theorem sliceIdOf_le {bound : Nat} (slices : List SliceInfo) (bounded : ∀ slice ∈ slices, slice.sid ≤ bound)
    (nssai : Nssai) : sliceIdOf slices nssai ≤ bound := by
  have fold (start : Nat) (small : start ≤ bound) :
      slices.foldl (fun sid slice => if slice.nssai = nssai then slice.sid else sid) start ≤ bound := by
    induction slices generalizing start with
    | nil => exact small
    | cons slice rest ih =>
      obtain ⟨here, later⟩ := List.forall_mem_cons.mp bounded
      rw [List.foldl_cons]
      apply ih later
      split
      · exact here
      · exact small
  exact fold 0 (Nat.zero_le bound)

theorem nrStoreDlSliceInfo_le {bound : Nat} (bounded : ∀ slice ∈ slices, slice.sid ≤ bound) {lc : LcConfig}
    (member : lc ∈ ue.lcConfig) (free : ue.heldBack lc.lcid = false) :
    (nrStoreDlSliceInfo slices ue).dlSlInfo lc.lcid ≤ bound := by
  have fold (lcs : List LcConfig) (info : Nat → Nat) (known : lc ∈ lcs ∨ info lc.lcid ≤ bound) :
      lcs.foldl (fun info other => if ue.heldBack other.lcid then info
        else Function.update info other.lcid (sliceIdOf slices other.nssai)) info lc.lcid ≤ bound := by
    induction lcs generalizing info with
    | nil =>
      rcases known with absent | small
      · cases absent
      · exact small
    | cons other rest ih =>
      rw [List.foldl_cons]
      apply ih
      by_cases same : other.lcid = lc.lcid
      · right
        rw [same, free, if_neg Bool.false_ne_true, Function.update_self]
        exact sliceIdOf_le slices bounded other.nssai
      rcases known with present | small
      · left
        exact (List.mem_cons.mp present).resolve_left (fun here => same (here ▸ rfl))
      right
      split
      · exact small
      · rw [Function.update_of_ne (Ne.symm same)]
        exact small
  exact fold ue.lcConfig ue.dlSlInfo (.inl member)

theorem storeBuffers_numTotalBytes (status : Nat → RlcStatus) (lcs : List LcConfig) (ue : UeInfo) :
    (lcs.foldl (storeLcBuffer status) ue).numTotalBytes.toNat =
      (ue.numTotalBytes.toNat + ((lcs.filter (fun lc => !ue.heldBack lc.lcid)).map
        (fun lc => (status lc.lcid).bytesInBuffer.toNat)).sum) % 2 ^ 32 := by
  induction lcs generalizing ue with
  | nil => simp [Nat.mod_eq_of_lt (BitVec.isLt _)]
  | cons lc rest ih =>
    have step : (storeLcBuffer status ue lc).numTotalBytes =
        ue.numTotalBytes + if ue.heldBack lc.lcid then 0#32 else (status lc.lcid).bytesInBuffer := by
      cases held : ue.heldBack lc.lcid with
      | true => simp [storeLcBuffer, held]
      | false =>
        by_cases empty : (status lc.lcid).bytesInBuffer = 0#32 <;> simp [storeLcBuffer, held, empty]
    rw [List.foldl_cons, ih, step]
    cases held : ue.heldBack lc.lcid with
    | true => simp [held]
    | false => simp [held, add_assoc]

theorem prepareUe_numTotalBytes (slices : List SliceInfo) (dl : DlSlot) (ue : UeInfo) :
    (prepareUe slices dl ue).numTotalBytes.toNat = totalPending dl ue % 2 ^ 32 := by
  rw [prepareUe, nrStoreDlschBuffer, storeBuffers_numTotalBytes]
  simp [totalPending, nrGetUeActiveSliceList, nrStoreDlSliceInfo, UeInfo.heldBack]

section

variable (bounded : ∀ slice ∈ slices, slice.sid ≤ maxNumPduSession) (dl : DlSlot) (ue : UeInfo)

include bounded

theorem sum_pendingBytes :
    ((prepareUe slices dl ue).availSliceList.map (fun entry => pendingBytes slices dl ue entry.sid)).sum =
      totalPending dl ue := by
  have covered : ∀ lc ∈ ue.lcConfig.filter (fun lc => !ue.heldBack lc.lcid),
      (nrStoreDlSliceInfo slices ue).dlSlInfo lc.lcid ∈ 0 :: activeSlicesIn slices ue := by
    intro lc member
    obtain ⟨configured, free⟩ := List.mem_filter.mp member
    have small := nrStoreDlSliceInfo_le bounded configured (by simpa using free)
    exact @mem_activeSlices (nrStoreDlSliceInfo slices ue) lc configured small
  have groups := sum_groups (fun lc : LcConfig => (nrStoreDlSliceInfo slices ue).dlSlInfo lc.lcid)
    (fun lc => (dl.macRlcStatusInd ue lc.lcid).bytesInBuffer.toNat)
    (activeSlices_nodup (nrStoreDlSliceInfo slices ue)) _ covered
  have own : ∀ sid, pendingBytes slices dl ue sid =
      (((ue.lcConfig.filter (fun lc => !ue.heldBack lc.lcid)).filter
        (fun lc => (nrStoreDlSliceInfo slices ue).dlSlInfo lc.lcid = sid)).map
        (fun lc => (dl.macRlcStatusInd ue lc.lcid).bytesInBuffer.toNat)).sum := by
    intro sid
    rw [pendingBytes]
    simp [Bool.and_comm, beq_eq_decide]
  calc ((prepareUe slices dl ue).availSliceList.map (fun entry => pendingBytes slices dl ue entry.sid)).sum
      = (((prepareUe slices dl ue).availSliceList.map AvailSlice.sid).map (pendingBytes slices dl ue)).sum := by
        rw [List.map_map]
        rfl
    _ = ((0 :: activeSlicesIn slices ue).map (pendingBytes slices dl ue)).sum := by rw [prepareUe_sids]
    _ = totalPending dl ue := by
        rw [totalPending, ← groups]
        exact congrArg List.sum (List.map_congr_left (fun sid _ => own sid))

theorem bytesAttributed_iff :
    BytesAttributed slices dl ue (prepareUe slices dl ue) ↔ totalPending dl ue < 2 ^ 32 := by
  have sids := prepareUe_sids slices dl ue
  have distinct : ((prepareUe slices dl ue).availSliceList.map AvailSlice.sid).Nodup := by
    rw [sids]
    exact activeSlices_nodup (nrStoreDlSliceInfo slices ue)
  have divided := sum_pendingBytes bounded dl ue
  have counted := prepareUe_numTotalBytes slices dl ue
  constructor
  · intro attributed
    calc totalPending dl ue
        = ((prepareUe slices dl ue).availSliceList.map (fun entry => pendingBytes slices dl ue entry.sid)).sum :=
          divided.symm
      _ = ((prepareUe slices dl ue).availSliceList.map (fun entry => entry.bytes.toNat)).sum := by
          rw [List.map_congr_left attributed.each]
      _ = (prepareUe slices dl ue).numTotalBytes.toNat := attributed.total
      _ < 2 ^ 32 := BitVec.isLt _
  · intro small
    have each : ∀ entry ∈ (prepareUe slices dl ue).availSliceList,
        entry.bytes.toNat = pendingBytes slices dl ue entry.sid := by
      intro entry member
      have listed : entry.sid ∈ 0 :: activeSlicesIn slices ue := sids ▸ List.mem_map_of_mem member
      have recorded := prepareUe_bytesOf_listed slices dl ue entry.sid listed
      have part : pendingBytes slices dl ue entry.sid ≤ totalPending dl ue := by
        rw [← divided]
        exact List.single_le_sum (fun _ _ => Nat.zero_le _) _ (List.mem_map_of_mem member)
      rw [bytesOf_of_mem distinct member] at recorded
      rw [recorded, Nat.mod_eq_of_lt (lt_of_le_of_lt part small)]
    refine ⟨distinct, ?_, ?_, each⟩
    · have length := congrArg List.length sids
      rw [List.length_map] at length
      rw [length]
      exact activeSlices_length (nrStoreDlSliceInfo slices ue)
    · rw [List.map_congr_left each, divided, counted, Nat.mod_eq_of_lt small]

end

theorem configuredSlices_sid_le (snssai : List Nssai) : ∀ slice ∈ configuredSlices snssai, slice.sid ≤ snssai.length := by
  intro slice member
  rcases List.mem_cons.mp member with rfl | configured
  · exact Nat.zero_le _
  · obtain ⟨s, inside, rfl⟩ := List.mem_mapIdx.mp configured
    exact inside

def SlicesExact {κ : Type} (snssai : List Nssai) (table : SlicePointers) (dl : DlSlot) (cell : DlCell κ)
    (ues : List UeInfo) (slSched : List SlSched) : Prop :=
  (∃ prepared, prepareUesIn table dl = .ok prepared ∧
    List.Forall₂ (BytesAttributed (configuredSlices snssai) dl) dl.ues prepared) ∧
  ∃ entries, slicePrbEstimate cell table ues slSched = .ok entries ∧
    entries.map SlSched.sl = configuredSlices snssai

/-- For an accepted configuration the bytes are attributed exactly, and the estimate writes one entry
for each slice, exactly if a null pointer is left in the table and the waiting bytes of each UE have 32
bits. -/
theorem slices_exact_iff {κ : Type} (snssai : List Nssai) (table : SlicePointers)
    (accepted : configureSlices snssai = some table) (dl : DlSlot) (cell : DlCell κ) (ues : List UeInfo)
    (slSched : List SlSched) (size : slSched.length = snssai.length + 1) :
    SlicesExact snssai table dl cell ues slSched ↔
      snssai.length < maxNumSlice ∧ ∀ ue ∈ dl.ues, totalPending dl ue < 2 ^ 32 := by
  have iterated := slIterator_configured accepted
  by_cases room : snssai.length < maxNumSlice
  · rw [if_pos room] at iterated
    have bounded : ∀ slice ∈ configuredSlices snssai, slice.sid ≤ maxNumPduSession := by
      intro slice member
      exact (configuredSlices_sid_le snssai slice member).trans (le_of_lt room)
    have estimated : ∃ entries, slicePrbEstimate cell table ues slSched = .ok entries ∧
        entries.map SlSched.sl = configuredSlices snssai := by
      obtain ⟨entries, written, taken, _⟩ := slicePrbEstimate_terminated iterated cell ues slSched
        (by rw [size, configuredSlices_length])
      exact ⟨entries, written, taken⟩
    have all : List.Forall₂ (BytesAttributed (configuredSlices snssai) dl) dl.ues
        (dl.ues.map (prepareUe (configuredSlices snssai) dl)) ↔ ∀ ue ∈ dl.ues, totalPending dl ue < 2 ^ 32 := by
      rw [List.forall₂_map_right_iff, List.forall₂_same]
      exact forall₂_congr (fun ue _ => bytesAttributed_iff bounded dl ue)
    constructor
    · rintro ⟨⟨prepared, ran, attributed⟩, _⟩
      rw [prepareUesIn_eq iterated] at ran
      cases ran
      exact ⟨room, all.mp attributed⟩
    · intro small
      exact ⟨⟨_, prepareUesIn_eq iterated dl, all.mpr small.2⟩, estimated⟩
  · rw [if_neg room] at iterated
    constructor
    · rintro ⟨_, entries, written, _⟩
      rw [slicePrbEstimate, iterated] at written
      cases written
    · exact fun small => absurd small.1 room

def blankEntries (count : Nat) : List SlSched := List.replicate count ⟨0, 0, 0, 0, ⟨0, ⟨0, 0⟩, configuredPolicy⟩⟩

theorem slices_exact_two_slices :
    ∃ table, configureSlices [⟨1, 1⟩, ⟨1, 2⟩] = some table ∧
      SlicesExact [⟨1, 1⟩, ⟨1, 2⟩] table (busySlot 0 (drbUe 1 [1, 2])) plainCell [drbUe 1 [1, 2]] (blankEntries 3) := by
  refine ⟨_, rfl, ?_⟩
  apply (slices_exact_iff [⟨1, 1⟩, ⟨1, 2⟩] _ rfl (busySlot 0 (drbUe 1 [1, 2])) plainCell [drbUe 1 [1, 2]]
    (blankEntries 3) rfl).mpr
  decide

def eightSnssai : List Nssai := (List.range 8).map (fun s => ⟨1, BitVec.ofNat 32 (s + 1)⟩)

/-- Eight S-NSSAIs are accepted and fill the table, so that the loops over the slices read on behind it. -/
theorem slices_exact_eight_slices :
    ∃ table, configureSlices eightSnssai = some table ∧
      ¬ SlicesExact eightSnssai table (busySlot 0 (drbUe 1 [1])) plainCell [drbUe 1 [1]] (blankEntries 9) := by
  obtain ⟨table, accepted⟩ : ∃ table, configureSlices eightSnssai = some table := ⟨_, rfl⟩
  refine ⟨table, accepted, ?_⟩
  rintro ⟨_, entries, written, _⟩
  have outside := slIterator_configured accepted
  rw [slicePrbEstimate, outside] at written
  cases written

end OranSlice.Mac
