import Mathlib.Tactic

/-! A search tree as the list of its records: at most one for each key. -/

namespace OranSlice.Keyed

open List

variable {α κ β : Type*} [LinearOrder κ] (key : α → κ)

def insert (new : α) (items : List α) : List α :=
  if items.any (fun item => key item = key new) then items
  else items.orderedInsert (fun a b => key a ≤ key b) new

def find (k : κ) (items : List α) : Option α := items.find? (fun item => key item = k)

def remove (k : κ) (items : List α) : List α := items.eraseP (fun item => key item = k)

def replace (k : κ) (new : α) (items : List α) : List α :=
  items.map (fun item => if key item = k then new else item)

variable {key} {items : List α} {k : κ} {new item : α} {field : α → β}

theorem insert_present (present : ∃ item ∈ items, key item = key new) : insert key new items = items := by
  have found : items.any (fun item => decide (key item = key new)) = true := by simpa using present
  exact if_pos found

theorem insert_fresh (fresh : ∀ item ∈ items, key item ≠ key new) :
    (insert key new items).Perm (new :: items) := by
  have missing : ¬ items.any (fun item => decide (key item = key new)) = true := by simpa using fresh
  rw [insert, if_neg missing]
  exact perm_orderedInsert _ new items

theorem find_some (found : find key k items = some item) : item ∈ items ∧ key item = k :=
  ⟨mem_of_find?_eq_some found, by simpa using find?_some found⟩

theorem find_none (missing : find key k items = none) : ∀ item ∈ items, key item ≠ k := by
  simpa using find?_eq_none.mp missing

theorem remove_sublist : (remove key k items).Sublist items := eraseP_sublist

theorem length_remove (found : find key k items = some item) :
    (remove key k items).length = items.length - 1 := by
  obtain ⟨member, here⟩ := find_some found
  exact length_eraseP_of_mem member (by simpa using here)

@[simp] theorem length_replace : (replace key k new items).length = items.length := length_map _

theorem replace_cons (head : α) (tail : List α) : replace key k new (head :: tail) =
    (if key head = k then new else head) :: replace key k new tail := rfl

theorem replace_absent (absent : ∀ item ∈ items, key item ≠ k) : replace key k new items = items := by
  have unchanged : ∀ item ∈ items, (if key item = k then new else item) = item :=
    fun item member => if_neg (absent item member)
  exact (map_congr_left unchanged).trans (map_id items)

theorem mem_replace (present : ∃ item ∈ items, key item = k) :
    item ∈ replace key k new items ↔ item = new ∨ item ∈ items ∧ key item ≠ k := by
  rw [replace, mem_map]
  constructor
  · rintro ⟨old, member, rfl⟩
    by_cases here : key old = k
    · exact .inl (if_pos here)
    · rw [if_neg here]
      exact .inr ⟨member, here⟩
  · rintro (rfl | ⟨member, other⟩)
    · obtain ⟨old, member, here⟩ := present
      exact ⟨old, member, if_pos here⟩
    · exact ⟨item, member, if_neg other⟩

theorem nodup_replace (keys : (items.map key).Nodup) (distinct : (items.map field).Nodup)
    (present : ∃ item ∈ items, key item = k) :
    ((replace key k new items).map field).Nodup ↔ ∀ item ∈ items, key item ≠ k → field item ≠ field new := by
  induction items with
  | nil => simp at present
  | cons head tail ih =>
    rw [map_cons, nodup_cons] at keys distinct
    by_cases here : key head = k
    · have absent : ∀ item ∈ tail, key item ≠ k := by
        intro item member same
        exact keys.1 (mem_map.mpr ⟨item, member, same.trans here.symm⟩)
      have changed : replace key k new (head :: tail) = new :: tail := by
        rw [replace_cons, if_pos here, replace_absent absent]
      rw [changed, map_cons, nodup_cons, mem_map]
      constructor
      · rintro ⟨fresh, _⟩ item member other
        rcases mem_cons.mp member with rfl | inside
        · exact absurd here other
        · exact fun same => fresh ⟨item, inside, same⟩
      · intro others
        refine ⟨?_, distinct.2⟩
        rintro ⟨item, inside, same⟩
        exact others item (mem_cons_of_mem head inside) (absent item inside) same
    · have inside : ∃ item ∈ tail, key item = k := by
        obtain ⟨item, member, same⟩ := present
        rcases mem_cons.mp member with rfl | later
        · exact absurd same here
        · exact ⟨item, later, same⟩
      have changed : replace key k new (head :: tail) = head :: replace key k new tail := by
        rw [replace_cons, if_neg here]
      rw [changed, map_cons, nodup_cons, mem_map, ih keys.2 distinct.2 inside]
      constructor
      · rintro ⟨fresh, others⟩ item member other
        rcases mem_cons.mp member with rfl | later
        · exact fun same => fresh ⟨new, (mem_replace inside).mpr (.inl rfl), same.symm⟩
        · exact others item later other
      · intro others
        refine ⟨?_, (forall_mem_cons.mp others).2⟩
        rintro ⟨item, member, same⟩
        rcases (mem_replace inside).mp member with rfl | ⟨later, _⟩
        · exact others head mem_cons_self here same.symm
        · exact distinct.1 (mem_map.mpr ⟨item, later, same⟩)

end OranSlice.Keyed
