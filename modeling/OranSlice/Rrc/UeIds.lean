import OranSlice.Core.Runs

/-! RRC UE identities: the bitmap allocator of `linear_alloc.h` and the tree of UE contexts. -/

namespace OranSlice.Rrc.UeIds

open List

/-- The first word with a clear bit and the first such bit in it, where `bit_index` is 1 shifted `uid` times. -/
def uidLinearAllocatorNew (bitmap : Nat → BitVec 32) : (Nat → BitVec 32) × Nat :=
  match (range 33).find? (fun i => bitmap i ≠ .allOnes 32) with
  | some i =>
    let uid := ((range 32).find? (fun uid => bitmap i &&& .twoPow 32 uid ≠ .twoPow 32 uid)).getD 32
    (Function.update bitmap i (bitmap i ||| .twoPow 32 uid), uid + i * 32)
  | none => (bitmap, 2 ^ 32 - 1)

def uidLinearAllocatorFree (bitmap : Nat → BitVec 32) (uid : Nat) : Nat → BitVec 32 :=
  if uid / 32 < 33 then Function.update bitmap (uid / 32) (bitmap (uid / 32) &&& ~~~ .twoPow 32 (uid % 32))
  else bitmap

structure Ues where
  uidAllocator : Nat → BitVec 32 := fun _ => 0
  (rrcUeHead cu2duUeMapping : List Nat := [])

/-- The new context by its `rrc_ue_id`, or none without memory; no answer when the assertion fails. The
tree leaves out a second context of a key. -/
def createUeContext (s : Ues) (memory : Bool) : Option (Ues × Option Nat) :=
  if memory then
    let (bitmap, uid) := uidLinearAllocatorNew s.uidAllocator
    let id := (uid + 1) % 2 ^ 32
    if id ∈ s.cu2duUeMapping then none
    else some (⟨bitmap, s.rrcUeHead.insert id, id :: s.cu2duUeMapping⟩, some id)
  else some (s, none)

/-- A lookup that finds no context gives a null pointer, and nothing is removed. -/
def removeUeContext (s : Ues) (id : Nat) : Ues :=
  if id ∈ s.rrcUeHead then
    ⟨uidLinearAllocatorFree s.uidAllocator ((id + (2 ^ 32 - 1)) % 2 ^ 32), s.rrcUeHead.erase id,
      s.cu2duUeMapping.erase id⟩
  else s

inductive Action where
  | create (memory : Bool)
  | remove (id : Nat)

def step (s : Ues) : Action → Option Ues
  | .create memory => (createUeContext s memory).map (·.1)
  | .remove id => some (removeUeContext s id)

def Unique (s : Ues) : Prop := s.rrcUeHead.Nodup ∧ 0 ∉ s.rrcUeHead

/-- A creation comes back, with no context or with one that it put into the tree under an id that no
other context there has. -/
def Reported (s : Ues) : Action → Prop
  | .create memory => ∃ next result, createUeContext s memory = some (next, result) ∧
      ∀ id ∈ result, id ∉ s.rrcUeHead ∧ id ∈ next.rrcUeHead
  | .remove _ => True

def taken (bitmap : Nat → BitVec 32) (k : Nat) : Bool := (bitmap (k / 32)).getLsbD (k % 32)

theorem taken_update (bitmap : Nat → BitVec 32) (word : BitVec 32) (i k : Nat) :
    taken (Function.update bitmap i word) k = if k / 32 = i then word.getLsbD (k % 32) else taken bitmap k := by
  unfold taken
  rw [Function.update_apply]
  split <;> rfl

theorem and_twoPow_eq_iff (word : BitVec 32) {bit : Nat} (below : bit < 32) :
    word &&& .twoPow 32 bit = .twoPow 32 bit ↔ word.getLsbD bit = true := by
  rw [BitVec.and_twoPow]
  cases word.getLsbD bit
  · simpa using fun zero => absurd (congrArg (BitVec.getLsbD · bit) zero) (by simp; omega)
  · simp

theorem allocator_new_spec (bitmap : Nat → BitVec 32) :
    (∃ after, ∃ k < 1056, uidLinearAllocatorNew bitmap = (after, k) ∧ taken bitmap k = false ∧
      ∀ j, taken after j = (taken bitmap j || decide (j = k))) ∨
    (∀ k < 1056, taken bitmap k = true) ∧ uidLinearAllocatorNew bitmap = (bitmap, 2 ^ 32 - 1) := by
  unfold uidLinearAllocatorNew
  split
  · next i found =>
    have inside := mem_range.mp (mem_of_find?_eq_some found)
    have open_word := find?_some found
    cases first : (range 32).find? (fun uid => bitmap i &&& .twoPow 32 uid ≠ .twoPow 32 uid) with
    | none =>
      refine absurd (BitVec.eq_of_getLsbD_eq fun bit below => ?_) (of_decide_eq_true open_word)
      have set := find?_eq_none.mp first bit (mem_range.mpr below)
      rw [BitVec.getLsbD_allOnes, decide_eq_true below]
      simpa [and_twoPow_eq_iff _ below] using set
    | some uid =>
      have below := mem_range.mp (mem_of_find?_eq_some first)
      have clear : (bitmap i).getLsbD uid = false := by
        simpa [and_twoPow_eq_iff _ below] using find?_some first
      have place : (uid + i * 32) / 32 = i ∧ (uid + i * 32) % 32 = uid := by omega
      refine .inl ⟨_, uid + i * 32, by omega, rfl, by rw [taken, place.1, place.2, clear], fun j => ?_⟩
      rw [taken_update]
      split
      · next word =>
        have same : j = uid + i * 32 ↔ uid = j % 32 := by omega
        simp only [taken, word, same]
        simp [below]
      · next word =>
        have other : j ≠ uid + i * 32 := fun same => word (same ▸ place.1)
        simp [other]
  · next full =>
    refine .inr ⟨fun k below => ?_, rfl⟩
    have word := find?_eq_none.mp full (k / 32) (mem_range.mpr (by omega))
    have ones : bitmap (k / 32) = .allOnes 32 := by simpa using word
    rw [taken, ones, BitVec.getLsbD_allOnes, decide_eq_true (Nat.mod_lt _ (by decide))]

theorem taken_free (bitmap : Nat → BitVec 32) {uid : Nat} (inside : uid < 1056) (k : Nat) :
    taken (uidLinearAllocatorFree bitmap uid) k = (taken bitmap k && decide (k ≠ uid)) := by
  have bound : k % 32 < 32 := Nat.mod_lt _ (by decide)
  rw [uidLinearAllocatorFree, if_pos (by omega), taken_update]
  split
  · next word =>
    have same : k = uid ↔ uid % 32 = k % 32 := by omega
    simp only [BitVec.getLsbD_and, BitVec.getLsbD_not, BitVec.getLsbD_twoPow, taken, word, ne_eq, same]
    by_cases bit : uid % 32 = k % 32 <;> simp [bound, bit]
  · next word =>
    have other : k ≠ uid := fun same => word (same ▸ rfl)
    simp [other]

structure Consistent (s : Ues) : Prop where
  unique : Unique s
  bits : ∀ k, k + 1 ∈ s.rrcUeHead ↔ k < 1056 ∧ taken s.uidAllocator k = true
  shared : s.cu2duUeMapping = s.rrcUeHead

variable {s : Ues}

theorem Consistent.bound (ok : Consistent s) {id : Nat} (present : id ∈ s.rrcUeHead) : id ∈ range' 1 1056 := by
  cases id with
  | zero => exact absurd present ok.unique.2
  | succ k => exact mem_range'_1.mpr ⟨by omega, by have := (ok.bits k).mp present; omega⟩

theorem create_below (ok : Consistent s) (room : s.rrcUeHead.length < 1056) :
    ∃ next id, createUeContext s true = some (next, some id) ∧ id ∉ s.rrcUeHead ∧
      next.rrcUeHead = id :: s.rrcUeHead ∧ Consistent next := by
  rcases allocator_new_spec s.uidAllocator with ⟨after, k, inside, result, free, marked⟩ | ⟨full, _⟩
  · have fresh : k + 1 ∉ s.rrcUeHead := by simp [ok.bits, free]
    have small : (k + 1) % 2 ^ 32 = k + 1 := Nat.mod_eq_of_lt (by omega)
    refine ⟨⟨after, (k + 1) :: s.rrcUeHead, (k + 1) :: s.rrcUeHead⟩, k + 1, ?_, fresh, rfl, ?_⟩
    · simp only [createUeContext, if_true, result, small, ok.shared]
      simp [fresh]
    refine ⟨⟨nodup_cons.mpr ⟨fresh, ok.unique.1⟩, by simpa using ok.unique.2⟩, fun j => ?_, rfl⟩
    by_cases same : j = k <;> simp [marked, ok.bits, same, inside]
  · have all : range' 1 1056 ⊆ s.rrcUeHead := by
      intro id listed
      obtain ⟨k, below, rfl⟩ := mem_range'.mp listed
      rw [Nat.one_mul, Nat.add_comm]
      exact (ok.bits k).mpr ⟨below, full k below⟩
    have many := (subperm_of_subset nodup_range' all).length_le
    rw [length_range'] at many
    omega

theorem create_full (ok : Consistent s) (full : ¬ s.rrcUeHead.length < 1056) :
    ∃ next, createUeContext s true = some (next, some 0) ∧ 0 ∈ next.rrcUeHead := by
  rcases allocator_new_spec s.uidAllocator with ⟨_, k, inside, _, free, _⟩ | ⟨_, result⟩
  · have fresh : k + 1 ∉ s.rrcUeHead := by simp [ok.bits, free]
    have listed : (k + 1) :: s.rrcUeHead ⊆ range' 1 1056 :=
      cons_subset.mpr ⟨mem_range'_1.mpr (by omega), fun _ present => ok.bound present⟩
    have few := (subperm_of_subset (nodup_cons.mpr ⟨fresh, ok.unique.1⟩) listed).length_le
    rw [length_cons, length_range'] at few
    omega
  · simp [createUeContext, result, ok.shared, ok.unique.2]

theorem Consistent.remove (ok : Consistent s) (id : Nat) : Consistent (removeUeContext s id) := by
  unfold removeUeContext
  split
  · next present =>
    obtain ⟨positive, limit⟩ := mem_range'_1.mp (ok.bound present)
    have uid : (id + (2 ^ 32 - 1)) % 2 ^ 32 = id - 1 := by omega
    have shifted (k : Nat) : k + 1 ≠ id ↔ k ≠ id - 1 := by omega
    rw [uid]
    refine ⟨⟨ok.unique.1.erase id, fun zero => ok.unique.2 (mem_of_mem_erase zero)⟩, fun k => ?_,
      by rw [ok.shared]⟩
    rw [ok.unique.1.mem_erase_iff, ok.bits, taken_free _ (by omega), Bool.and_eq_true, decide_eq_true_eq, shifted]
    exact ⟨fun ⟨other, below, held⟩ => ⟨below, held, other⟩, fun ⟨below, held, other⟩ => ⟨other, below, held⟩⟩
  · exact ok

def Roomy (s : Ues) : Action → Prop
  | .create true => s.rrcUeHead.length < 1056
  | _ => True

theorem start_consistent : Consistent {} := ⟨⟨nodup_nil, not_mem_nil⟩, fun k => by simp [taken], rfl⟩

/-- The identities stay distinct and non-zero, and each creation gives a context of the tree or none,
exactly when every creation that has memory begins with fewer than 1056 contexts. -/
theorem ue_ids_unique_iff (actions : List Action) :
    Runs.Along step Unique {} actions ∧ Runs.Attempts step Reported {} actions ↔
      Runs.Attempts step Roomy {} actions := by
  refine @Runs.safe_iff_attempts _ _ step Unique Consistent _ _ (fun s ok => ok.unique) ?_ ?_ {} actions
    start_consistent
  · intro s a ok roomy
    cases a with
    | remove id =>
      refine ⟨trivial, fun next taken => ?_⟩
      cases taken
      exact ok.remove id
    | create memory =>
      cases memory
      · refine ⟨⟨s, none, rfl, by simp⟩, fun next taken => ?_⟩
        cases taken
        exact ok
      · obtain ⟨after, id, created, fresh, grown, kept⟩ := create_below ok roomy
        refine ⟨⟨after, some id, created, ?_⟩, fun next taken => ?_⟩
        · rintro _ ⟨⟩
          exact ⟨fresh, by simp [grown]⟩
        · simp only [step, created, Option.map_some, Option.some.injEq] at taken
          exact taken ▸ kept
  · intro s a ok crowded
    rcases a with (_ | _) | _
    · exact absurd trivial crowded
    · obtain ⟨next, created, zero⟩ := create_full ok crowded
      exact .inr ⟨next, by simp [step, created], fun unique => unique.2 zero⟩
    · exact absurd trivial crowded

theorem fill (count : Nat) (room : count ≤ 1056) :
    ∃ s, Runs.run step {} (replicate count (.create true)) = some s ∧ Consistent s ∧
      s.rrcUeHead.length = count := by
  induction count with
  | zero => exact ⟨{}, rfl, start_consistent, rfl⟩
  | succ count ih =>
    obtain ⟨s, reached, ok, many⟩ := ih (by omega)
    obtain ⟨next, id, created, _, grown, kept⟩ := create_below ok (by omega)
    refine ⟨next, ?_, kept, by simp [grown, many]⟩
    rw [replicate_succ', Runs.run_append, reached]
    simp [step, created]

/-- The context created beside 1056 others gets the identity 0. -/
theorem ue_id_zero :
    ∃ s next, Runs.run step {} (replicate 1056 (.create true)) = some s ∧
      createUeContext s true = some (next, some 0) ∧ ¬ Unique next := by
  obtain ⟨s, reached, ok, many⟩ := fill 1056 le_rfl
  obtain ⟨next, created, zero⟩ := create_full ok (by omega)
  exact ⟨s, next, reached, created, fun unique => unique.2 zero⟩

end OranSlice.Rrc.UeIds
