import Mathlib.Tactic

/-! A table that lists exactly a set of items, by a key of each. -/

namespace OranSlice.Registry

open List

variable {ι α β : Type*}

def Lists (key : ι → α) (value : ι → β) (items : List ι) (table : α → Option β) : Prop :=
  ∀ k v, table k = some v ↔ ∃ item ∈ items, key item = k ∧ value item = v

namespace Lists

variable {key : ι → α} {value : ι → β} {items : List ι} {item : ι} {table table' : α → Option β}

theorem found (listed : Lists key value items table) (member : item ∈ items) :
    table (key item) = some (value item) :=
  (listed _ _).mpr ⟨item, member, rfl, rfl⟩

theorem exists_item (listed : Lists key value items table) {k : α} {v : β} (there : table k = some v) :
    ∃ item ∈ items, key item = k ∧ value item = v :=
  (listed k v).mp there

theorem intro (here : ∀ item ∈ items, table (key item) = some (value item))
    (only : ∀ k v, table k = some v → ∃ item ∈ items, key item = k) : Lists key value items table := by
  intro k v
  constructor
  · intro there
    obtain ⟨item, member, rfl⟩ := only k v there
    exact ⟨item, member, rfl, Option.some.inj ((here item member).symm.trans there)⟩
  · rintro ⟨item, member, rfl, rfl⟩
    exact here item member

theorem nil (empty : ∀ k, table k = none) : Lists key value [] table := by
  apply intro
  · simp
  · intro k v there
    rw [empty] at there
    cases there

theorem add [DecidableEq α] (listed : Lists key value items table) (free : table (key item) = none)
    (changed : ∀ k, table' k = if k = key item then some (value item) else table k) :
    Lists key value (items ++ [item]) table' := by
  apply intro
  · intro other member
    rw [changed]
    rcases mem_append.mp member with old | new
    · have taken := listed.found old
      have different : key other ≠ key item := by
        intro same
        rw [same, free] at taken
        cases taken
      rw [if_neg different, taken]
    · rw [mem_singleton.mp new, if_pos rfl]
  · intro k v there
    rw [changed] at there
    split_ifs at there with same
    · exact ⟨item, by simp, same.symm⟩
    · obtain ⟨other, member, same, _⟩ := listed.exists_item there
      exact ⟨other, mem_append_left _ member, same⟩

theorem filter {kept : ι → Bool} {gone : α → Prop} [DecidablePred gone] (listed : Lists key value items table)
    (matching : ∀ item ∈ items, kept item = true ↔ ¬ gone (key item))
    (changed : ∀ k, table' k = if gone k then none else table k) :
    Lists key value (items.filter kept) table' := by
  apply intro
  · intro item member
    obtain ⟨old, kept⟩ := mem_filter.mp member
    rw [changed, if_neg ((matching item old).mp kept), listed.found old]
  · intro k v there
    rw [changed] at there
    split_ifs at there
    · rename_i stays
      obtain ⟨item, member, rfl, _⟩ := listed.exists_item there
      exact ⟨item, mem_filter.mpr ⟨member, (matching item member).mpr stays⟩, rfl⟩

theorem map {rename : ι → ι} (here : ∀ item ∈ items, table (key (rename item)) = some (value (rename item)))
    (only : ∀ k v, table k = some v → ∃ item ∈ items, key (rename item) = k) :
    Lists key value (items.map rename) table := by
  apply intro
  · intro item member
    obtain ⟨old, oldMember, rfl⟩ := mem_map.mp member
    exact here old oldMember
  · intro k v there
    obtain ⟨old, oldMember, same⟩ := only k v there
    exact ⟨rename old, mem_map.mpr ⟨old, oldMember, rfl⟩, same⟩

end Lists

end OranSlice.Registry
