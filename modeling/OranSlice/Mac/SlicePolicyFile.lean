import OranSlice.Mac.SlicePolicy

/-! The update of the slice policies from the rrmPolicy file. -/

namespace OranSlice.Mac

open SliceInfo Walk List

/-- An entry of `rrmPolicyRatio`, with each field as `json_object_get_int` returns it; a field that is
missing is 0. -/
structure RrmPolicyRatio where
  (sst sd minRatio maxRatio dedicatedRatio : BitVec 32)
deriving DecidableEq, Repr

inductive RrmPolicyFile where
  | unreadable
  | noPolicyRatio
  | notAnArray
  | policyRatios (entries : List RrmPolicyRatio)
deriving DecidableEq, Repr

namespace RrmPolicyRatio

variable (entry : RrmPolicyRatio)

/-- The slice that the entry is about. An SD of 0 stands for a missing one. -/
def nssai : Nssai :=
  ⟨entry.sst.setWidth 8, if entry.sd = 0 then 0xffffff else entry.sd⟩

def dedicatedByte : BitVec 8 := entry.dedicatedRatio.setWidth 8

def minByte : BitVec 8 := entry.minRatio.setWidth 8

def maxByte : BitVec 8 := entry.maxRatio.setWidth 8

/-- The ratios after the repair: the minimum is raised to the dedicated ratio, and the maximum to the
minimum. -/
def policy : SlicePrbPolicy :=
  let dedicatedRatio := entry.dedicatedByte
  let minRatio := if dedicatedRatio > entry.minByte then dedicatedRatio else entry.minByte
  let maxRatio := if minRatio > entry.maxByte then minRatio else entry.maxByte
  ⟨dedicatedRatio, minRatio, maxRatio⟩

end RrmPolicyRatio

def SliceInfo.takePolicy (entry : RrmPolicyRatio) (slice : SliceInfo) : SliceInfo :=
  if slice.nssai = entry.nssai then { slice with spolicy := entry.policy } else slice

variable (slices : List SliceInfo)

def totalDedicatedRatio : Nat :=
  (slices.map (fun slice => slice.spolicy.dedicatedRatio.toNat)).sum

def SliceInfo.resetShares (slice : SliceInfo) : SliceInfo :=
  { slice with spolicy := { slice.spolicy with minRatio := 0, dedicatedRatio := 0 } }

/-- The table is rewritten entry by entry; when the sums are too large all minimum and dedicated ratios
are set to 0. -/
def nrUpdateSlicePolicy (file : RrmPolicyFile) (table : SlicePointers) : Except Fault SlicePointers :=
  match file with
  | .unreadable | .noPolicyRatio | .notAnArray => .ok table
  | .policyRatios entries => do
    let updated ← entries.foldlM (fun table entry => rewriteSlices (takePolicy entry) table) table
    let slices ← slIterator updated
    if totalMinRatio slices > 100 ∨ totalDedicatedRatio slices > 100 then rewriteSlices resetShares updated
    else return updated

def SlicePrbPolicy.Ordered (policy : SlicePrbPolicy) : Prop :=
  policy.dedicatedRatio ≤ policy.minRatio ∧ policy.minRatio ≤ policy.maxRatio ∧ policy.maxRatio ≤ 100

instance (policy : SlicePrbPolicy) : Decidable policy.Ordered := inferInstanceAs (Decidable (_ ∧ _ ∧ _))

structure TableSound (slices : List SliceInfo) : Prop where
  ordered : ∀ slice ∈ slices, slice.spolicy.Ordered
  minRatios : totalMinRatio slices ≤ 100
  dedicatedRatios : totalDedicatedRatio slices ≤ 100

namespace RrmPolicyRatio

theorem policy_ordered (entry : RrmPolicyRatio) :
    entry.policy.dedicatedRatio ≤ entry.policy.minRatio ∧ entry.policy.minRatio ≤ entry.policy.maxRatio := by
  unfold policy
  simp only [BitVec.lt_def, BitVec.le_def]
  constructor
  · split <;> omega
  · split <;> split <;> omega

theorem policy_maxRatio_iff (entry : RrmPolicyRatio) : entry.policy.maxRatio ≤ 100 ↔
    entry.dedicatedByte ≤ 100 ∧ entry.minByte ≤ 100 ∧ entry.maxByte ≤ 100 := by
  unfold policy
  simp only [BitVec.lt_def, BitVec.le_def]
  split <;> split <;> omega

end RrmPolicyRatio

variable (entries : List RrmPolicyRatio)

def lastEntryFor (nssai : Nssai) : Option RrmPolicyRatio :=
  entries.reverse.find? (fun entry => entry.nssai = nssai)

theorem lastEntryFor_concat (entry : RrmPolicyRatio) (nssai : Nssai) :
    lastEntryFor (entries ++ [entry]) nssai =
      if entry.nssai = nssai then some entry else lastEntryFor entries nssai := by
  unfold lastEntryFor
  by_cases here : entry.nssai = nssai <;> simp [here]

def SliceInfo.settle (slice : SliceInfo) : SliceInfo :=
  match lastEntryFor entries slice.nssai with
  | none => slice
  | some entry => { slice with spolicy := entry.policy }

theorem settle_concat (entry : RrmPolicyRatio) (slice : SliceInfo) :
    slice.settle (entries ++ [entry]) = (slice.settle entries).takePolicy entry := by
  have same : (slice.settle entries).nssai = slice.nssai := by
    unfold settle
    split <;> rfl
  unfold takePolicy
  rw [same]
  by_cases here : slice.nssai = entry.nssai
  · rw [if_pos here]
    unfold settle
    rw [lastEntryFor_concat, if_pos here.symm]
    cases lastEntryFor entries slice.nssai <;> rfl
  · rw [if_neg here]
    unfold settle
    rw [lastEntryFor_concat, if_neg (fun other => here other.symm)]

theorem foldl_takePolicy (slices : List SliceInfo) :
    entries.foldl (fun slices entry => slices.map (takePolicy entry)) slices =
      slices.map (settle entries) := by
  induction entries using reverseRecOn with
  | nil => exact (map_id slices).symm
  | append_singleton entries entry ih =>
    rw [foldl_concat, ih, map_map]
    apply map_congr_left
    intro slice _
    exact (settle_concat entries entry slice).symm

variable {entries : List RrmPolicyRatio} {slice : SliceInfo}

theorem settle_ordered_iff (ordered : slice.spolicy.Ordered) :
    (slice.settle entries).spolicy.maxRatio ≤ 100 ↔ ∀ entry ∈ lastEntryFor entries slice.nssai,
      entry.dedicatedByte ≤ 100 ∧ entry.minByte ≤ 100 ∧ entry.maxByte ≤ 100 := by
  unfold settle
  cases lastEntryFor entries slice.nssai with
  | none => exact iff_of_true ordered.2.2 (fun _ absent => absurd absent (by simp))
  | some entry =>
    simp only [Option.mem_def, Option.some.injEq, forall_eq']
    exact entry.policy_maxRatio_iff

theorem settle_ordered (ordered : slice.spolicy.Ordered) :
    (slice.settle entries).spolicy.dedicatedRatio ≤ (slice.settle entries).spolicy.minRatio ∧
      (slice.settle entries).spolicy.minRatio ≤ (slice.settle entries).spolicy.maxRatio := by
  unfold settle
  cases lastEntryFor entries slice.nssai with
  | none => exact ⟨ordered.1, ordered.2.1⟩
  | some entry => exact entry.policy_ordered

theorem resetShares_ordered_iff (slice : SliceInfo) :
    slice.resetShares.spolicy.Ordered ↔ slice.spolicy.maxRatio ≤ 100 := by
  constructor
  · exact fun ordered => ordered.2.2
  · exact fun bound => ⟨le_refl 0, Nat.zero_le _, bound⟩

theorem totalRatios_reset :
    totalMinRatio (slices.map resetShares) = 0 ∧ totalDedicatedRatio (slices.map resetShares) = 0 := by
  simp [totalMinRatio, totalDedicatedRatio, resetShares, Function.comp_def]

theorem foldlM_takePolicy {table : SlicePointers} (ends : none ∈ table) (entries : List RrmPolicyRatio) :
    ∃ updated, entries.foldlM (fun table entry => rewriteSlices (takePolicy entry) table) table = .ok updated ∧
      none ∈ updated ∧ slicesOf updated = (slicesOf table).map (settle entries) := by
  rw [← foldl_takePolicy]
  induction entries generalizing table with
  | nil => exact ⟨table, rfl, ends, rfl⟩
  | cons entry rest ih =>
    obtain ⟨next, rewritten, still, mapped⟩ := @rewriteSlices_eq table (takePolicy entry) ends
    rw [foldlM_cons, rewritten, foldl_cons, ← mapped]
    exact ih still

def settleTable (entries : List RrmPolicyRatio) (slices : List SliceInfo) : List SliceInfo :=
  if totalMinRatio (slices.map (settle entries)) > 100 ∨ totalDedicatedRatio (slices.map (settle entries)) > 100 then
    (slices.map (settle entries)).map resetShares
  else slices.map (settle entries)

theorem nrUpdateSlicePolicy_eq {table : SlicePointers} (ends : none ∈ table) (entries : List RrmPolicyRatio) :
    ∃ after, nrUpdateSlicePolicy (.policyRatios entries) table = .ok after ∧
      slicesOf after = settleTable entries (slicesOf table) := by
  obtain ⟨updated, rewritten, still, settled⟩ := foldlM_takePolicy ends entries
  obtain ⟨reset, cleared, _, mapped⟩ := @rewriteSlices_eq updated resetShares still
  have read : slIterator updated = .ok (slicesOf updated) := by rw [slIterator_eq, if_pos still]
  have ran : nrUpdateSlicePolicy (.policyRatios entries) table =
      if totalMinRatio (slicesOf updated) > 100 ∨ totalDedicatedRatio (slicesOf updated) > 100 then
        rewriteSlices resetShares updated
      else .ok updated := by
    unfold nrUpdateSlicePolicy
    dsimp only
    rw [rewritten]
    change (slIterator updated).bind _ = _
    rw [read]
    rfl
  rw [ran, settleTable, ← settled, ← mapped]
  split
  · exact ⟨reset, cleared, rfl⟩
  · exact ⟨updated, rfl, rfl⟩

theorem nrUpdateSlicePolicy_full {table : SlicePointers} (full : none ∉ table) (entries : List RrmPolicyRatio) :
    nrUpdateSlicePolicy (.policyRatios entries) table = .error .outOfBounds := by
  unfold nrUpdateSlicePolicy
  dsimp only
  cases entries with
  | nil =>
    change (slIterator table).bind _ = _
    rw [slIterator_eq, if_neg full]
    rfl
  | cons entry rest =>
    rw [foldlM_cons, rewriteSlices_full full]
    rfl

theorem settleTable_sound_iff {slices : List SliceInfo} (sound : TableSound slices) :
    TableSound (settleTable entries slices) ↔ ∀ slice ∈ slices, (slice.settle entries).spolicy.maxRatio ≤ 100 := by
  unfold settleTable
  split_ifs with fits
  · constructor
    · intro after slice member
      have reset := after.ordered (slice.settle entries).resetShares (mem_map_of_mem (mem_map_of_mem member))
      exact (resetShares_ordered_iff _).mp reset
    · intro bounds
      obtain ⟨noMin, noDedicated⟩ := totalRatios_reset (slices.map (settle entries))
      refine ⟨?_, noMin ▸ Nat.zero_le 100, noDedicated ▸ Nat.zero_le 100⟩
      intro slice member
      obtain ⟨settled, listed, rfl⟩ := mem_map.mp member
      obtain ⟨old, present, rfl⟩ := mem_map.mp listed
      exact (resetShares_ordered_iff _).mpr (bounds old present)
  · obtain ⟨minRatios, dedicatedRatios⟩ := not_or.mp fits
    constructor
    · intro after slice member
      exact (after.ordered _ (mem_map_of_mem member)).2.2
    · intro bounds
      refine ⟨?_, Nat.le_of_not_lt minRatios, Nat.le_of_not_lt dedicatedRatios⟩
      intro slice member
      obtain ⟨old, present, rfl⟩ := mem_map.mp member
      obtain ⟨low, middle⟩ := @settle_ordered entries old (sound.ordered old present)
      exact ⟨low, middle, bounds old present⟩

/-- A null pointer is left in the table, and for each slice of the table the last entry about it has no ratio
whose low byte is above 100. -/
def RrmPolicyFile.InRange (table : SlicePointers) : RrmPolicyFile → Prop
  | .policyRatios entries => none ∈ table ∧ ∀ slice ∈ slicesOf table, ∀ entry ∈ lastEntryFor entries slice.nssai,
      entry.dedicatedByte ≤ 100 ∧ entry.minByte ≤ 100 ∧ entry.maxByte ≤ 100
  | _ => True

instance (table : SlicePointers) (file : RrmPolicyFile) : Decidable (file.InRange table) :=
  match file with
  | .policyRatios entries => inferInstanceAs (Decidable
      (none ∈ table ∧ ∀ slice ∈ slicesOf table, ∀ entry ∈ lastEntryFor entries slice.nssai,
        entry.dedicatedByte ≤ 100 ∧ entry.minByte ≤ 100 ∧ entry.maxByte ≤ 100))
  | .unreadable | .noPolicyRatio | .notAnArray => isTrue trivial

def KeepsSound (file : RrmPolicyFile) (table : SlicePointers) : Prop :=
  ∃ after, nrUpdateSlicePolicy file table = .ok after ∧ TableSound (slicesOf after)

/-- The update stays inside the table and keeps it sound exactly when the file has no entries to take over, or a
null pointer is left in the table and the ratios that are taken over are in range. -/
theorem slice_policy_file_sound_iff {table : SlicePointers} (sound : TableSound (slicesOf table))
    (file : RrmPolicyFile) : KeepsSound file table ↔ file.InRange table := by
  cases file with
  | unreadable | noPolicyRatio | notAnArray => exact iff_of_true ⟨table, rfl, sound⟩ trivial
  | policyRatios entries =>
    unfold KeepsSound
    by_cases ends : none ∈ table
    · obtain ⟨after, updated, slices⟩ := nrUpdateSlicePolicy_eq ends entries
      rw [updated, RrmPolicyFile.InRange, and_iff_right ends]
      constructor
      · rintro ⟨_, ⟨⟩, kept⟩
        rw [slices, settleTable_sound_iff sound] at kept
        exact fun slice member => (settle_ordered_iff (sound.ordered slice member)).mp (kept slice member)
      · intro ranges
        refine ⟨after, rfl, ?_⟩
        rw [slices, settleTable_sound_iff sound]
        exact fun slice member => (settle_ordered_iff (sound.ordered slice member)).mpr (ranges slice member)
    · rw [nrUpdateSlicePolicy_full ends]
      refine ⟨?_, fun inRange => absurd inRange.1 ends⟩
      rintro ⟨_, ⟨⟩, _⟩

def twoSlices : SlicePointers := (configuredSlices [⟨1, 0xffffff⟩, ⟨1, 5⟩]).map some ++ replicate 6 none

theorem twoSlices_sound : TableSound (slicesOf twoSlices) := ⟨by decide, by decide, by decide⟩

/-- Two entries about one slice and one about an unknown slice. -/
theorem slice_policy_file_repeated :
    KeepsSound (.policyRatios [⟨1, 0, 50, 200, 10⟩, ⟨1, 0, 30, 20, 60⟩, ⟨9, 0, 255, 255, 255⟩]) twoSlices :=
  (slice_policy_file_sound_iff twoSlices_sound _).mpr (by decide)

/-- A maximum of 200 percent is taken over. -/
theorem slice_policy_file_above_hundred :
    TableSound (slicesOf twoSlices) ∧ ¬ KeepsSound (.policyRatios [⟨1, 5, 10, 200, 0⟩]) twoSlices := by
  refine ⟨twoSlices_sound, ?_⟩
  rintro ⟨_, ⟨⟩, sound⟩
  exact absurd (sound.ordered ⟨2, ⟨1, 5⟩, ⟨0, 10, 200⟩⟩ (by decide)) (by decide)

end OranSlice.Mac
