import OranSlice.Core.Ordered

/-! A buffer that gives out items in the order of their keys: items below `deliv` are no longer
taken, those below `next` have been announced. -/

namespace OranSlice.Reorder

open Ordered List

variable {α : Type*} (key : α → Nat) {log : List Nat} {list : List α} {deliv next : Nat}

structure Ok (log : List Nat) (list : List α) (deliv next : Nat) : Prop where
  increasing : log.Pairwise (· < ·)
  past : ∀ given ∈ log, given < deliv
  sorted : list.Pairwise (fun a b => key a < key b)
  inside : ∀ item ∈ list, deliv ≤ key item ∧ key item < next
  order : deliv ≤ next

variable {key}

theorem Ok.empty (deliv : Nat) : Ok key [] [] deliv deliv where
  increasing := List.Pairwise.nil
  past := by simp
  sorted := List.Pairwise.nil
  inside := by simp
  order := le_refl deliv

theorem Ok.forget (ok : Ok key log list deliv next) : Ok key [] list deliv next :=
  { ok with increasing := List.Pairwise.nil, past := by simp }

theorem Ok.insert (ok : Ok key log list deliv next) {item : α} (fresh : ∀ old ∈ list, key old ≠ key item)
    (low : deliv ≤ key item) :
    Ok key log (list.orderedInsert (fun a b => key a < key b) item) deliv
      (if key item ≥ next then key item + 1 else next) where
  increasing := ok.increasing
  past := ok.past
  sorted := by
    refine pairwise_orderedInsert (fun first second => first.trans second) ⟨?_, ?_⟩ ok.sorted
    · intro old _ passed
      exact passed
    · intro old member failed
      have := fresh old member
      omega
  inside := by
    intro other member
    rcases (mem_orderedInsert _).mp member with here | there
    · rw [here]
      split <;> omega
    · have := ok.inside other there
      split <;> omega
  order := by
    split <;> omega

theorem Ok.give {front back : List α} {upTo : Nat} (ok : Ok key log list deliv next)
    (split : front ++ back = list) (given : ∀ item ∈ front, key item < upTo)
    (kept : ∀ item ∈ back, upTo ≤ key item) (ahead : deliv ≤ upTo) (bound : upTo ≤ next) :
    Ok key (log ++ front.map key) back upTo next := by
  subst split
  obtain ⟨frontSorted, backSorted, _⟩ := pairwise_append.mp ok.sorted
  refine ⟨?_, ?_, backSorted, ?_, bound⟩
  · rw [pairwise_append]
    refine ⟨ok.increasing, pairwise_map.mpr frontSorted, ?_⟩
    intro old logged new member
    obtain ⟨item, inFront, rfl⟩ := mem_map.mp member
    have past := ok.past old logged
    have low := (ok.inside item (mem_append_left back inFront)).1
    omega
  · intro new member
    rcases mem_append.mp member with old | fresh
    · have past := ok.past new old
      omega
    · obtain ⟨item, inFront, rfl⟩ := mem_map.mp fresh
      exact given item inFront
  · intro item member
    exact ⟨kept item member, (ok.inside item (mem_append_right front member)).2⟩

theorem le_of_mem_dropWhile {list : List α} (sorted : list.Pairwise (fun a b => key a < key b)) {limit : Nat}
    {item : α} (member : item ∈ list.dropWhile (fun a => key a < limit)) : limit ≤ key item := by
  induction list with
  | nil => cases member
  | cons head rest ih =>
    obtain ⟨first, later⟩ := pairwise_cons.mp sorted
    rw [dropWhile_cons] at member
    split at member
    · exact ih later member
    rename_i stopped
    have low : limit ≤ key head := by simpa using stopped
    rcases mem_cons.mp member with here | there
    · rw [here]
      exact low
    · have := first item there
      omega

end OranSlice.Reorder
