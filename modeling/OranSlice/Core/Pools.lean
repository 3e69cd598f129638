import Mathlib.Tactic

/-! Identifiers that are moved between three pools, each in exactly one pool, exactly once. -/

namespace OranSlice

open List

structure Pools where
  (free waiting again : List Nat)
deriving DecidableEq, Repr

namespace Pools

variable {pools : Pools} {size id : Nat} {rest : List Nat}

def count (pools : Pools) (id : Nat) : Nat :=
  pools.free.count id + pools.waiting.count id + pools.again.count id

def Complete (size : Nat) (pools : Pools) : Prop := ∀ id, pools.count id = if id < size then 1 else 0

theorem Complete.congr {other : Pools} (complete : pools.Complete size)
    (same : ∀ id, other.count id = pools.count id) : other.Complete size := by
  intro id
  rw [same, complete id]

section Membership

variable (complete : pools.Complete size)
include complete

theorem Complete.count_le (id : Nat) :
    pools.free.count id + pools.waiting.count id + pools.again.count id ≤ 1 := by
  have exactly := complete id
  unfold count at exactly
  split at exactly <;> omega

theorem Complete.lt_of_mem (member : id ∈ pools.free ++ pools.waiting ++ pools.again) : id < size := by
  by_contra outside
  have exactly := complete id
  have positive := count_pos_iff.mpr member
  rw [if_neg outside] at exactly
  unfold count at exactly
  rw [count_append, count_append] at positive
  omega

theorem Complete.free_lt (member : id ∈ pools.free) : id < size := complete.lt_of_mem (by simp [member])

theorem Complete.waiting_lt (member : id ∈ pools.waiting) : id < size := complete.lt_of_mem (by simp [member])

theorem Complete.again_lt (member : id ∈ pools.again) : id < size := complete.lt_of_mem (by simp [member])

theorem Complete.nodup : (pools.free ++ pools.waiting ++ pools.again).Nodup :=
  nodup_iff_count_le_one.mpr (fun id => by rw [count_append, count_append]; exact complete.count_le id)

theorem Complete.free_nodup : pools.free.Nodup := complete.nodup.of_append_left.of_append_left

theorem Complete.waiting_nodup : pools.waiting.Nodup := complete.nodup.of_append_left.of_append_right

theorem Complete.again_nodup : pools.again.Nodup := complete.nodup.of_append_right

theorem Complete.not_waiting_of_free (member : id ∈ pools.free) : id ∉ pools.waiting :=
  disjoint_of_nodup_append complete.nodup.of_append_left member

theorem Complete.not_again_of_free (member : id ∈ pools.free) : id ∉ pools.again :=
  disjoint_of_nodup_append complete.nodup (mem_append_left _ member)

theorem Complete.not_again_of_waiting (member : id ∈ pools.waiting) : id ∉ pools.again :=
  disjoint_of_nodup_append complete.nodup (mem_append_right _ member)

theorem Complete.mem_cases (inside : id < size) : id ∈ pools.free ∨ id ∈ pools.waiting ∨ id ∈ pools.again := by
  have present := complete id
  rw [if_pos inside] at present
  unfold count at present
  by_contra nowhere
  rw [not_or, not_or] at nowhere
  have first := count_eq_zero.mpr nowhere.1
  have second := count_eq_zero.mpr nowhere.2.1
  have third := count_eq_zero.mpr nowhere.2.2
  omega

end Membership

/-! The moves. -/

def start (pools : Pools) (id : Nat) : Pools :=
  { pools with free := pools.free.erase id, waiting := pools.waiting ++ [id] }

def restart (pools : Pools) (id : Nat) : Pools :=
  { pools with again := pools.again.erase id, waiting := pools.waiting ++ [id] }

def finish (pools : Pools) (id : Nat) : Pools :=
  { pools with waiting := pools.waiting.tail, free := pools.free ++ [id] }

def fail (pools : Pools) (id : Nat) : Pools :=
  { pools with waiting := pools.waiting.tail, again := pools.again ++ [id] }

def reclaim (pools : Pools) : Pools := ⟨pools.free ++ pools.waiting ++ pools.again, [], []⟩

def grow (pools : Pools) (old more : Nat) : Pools :=
  { pools with free := pools.free ++ range' old more }

private theorem count_erase_add {ids : List Nat} (member : id ∈ ids) (other : Nat) :
    (ids.erase id).count other + (if id = other then 1 else 0) = ids.count other := by
  have positive := count_pos_iff.mpr member
  rw [count_erase]
  by_cases same : id = other
  · subst same
    simp only [beq_self_eq_true, if_true]
    omega
  · simp [same]

private theorem count_concat (ids : List Nat) (id other : Nat) :
    (ids ++ [id]).count other = ids.count other + if id = other then 1 else 0 := by
  simp [count_singleton]

section

variable (complete : pools.Complete size)

include complete

theorem Complete.start (member : id ∈ pools.free) : (pools.start id).Complete size := by
  apply complete.congr
  intro other
  have erased := count_erase_add member other
  have added := count_concat pools.waiting id other
  simp only [Pools.start, count]
  omega

theorem Complete.restart (member : id ∈ pools.again) : (pools.restart id).Complete size := by
  apply complete.congr
  intro other
  have erased := count_erase_add member other
  have added := count_concat pools.waiting id other
  simp only [Pools.restart, count]
  omega

theorem Complete.finish (first : pools.waiting = id :: rest) : (pools.finish id).Complete size := by
  apply complete.congr
  intro other
  have added := count_concat pools.free id other
  simp only [Pools.finish, count, first, tail_cons, count_cons, beq_iff_eq]
  omega

theorem Complete.fail (first : pools.waiting = id :: rest) : (pools.fail id).Complete size := by
  apply complete.congr
  intro other
  have added := count_concat pools.again id other
  simp only [Pools.fail, count, first, tail_cons, count_cons, beq_iff_eq]
  omega

theorem Complete.reclaim : pools.reclaim.Complete size := by
  apply complete.congr
  simp [Pools.reclaim, count, Nat.add_assoc]

theorem Complete.grow (more : Nat) : (pools.grow size more).Complete (size + more) := by
  intro other
  have before := complete other
  have added : (range' size more).count other = if size ≤ other ∧ other < size + more then 1 else 0 := by
    rw [count_range_1']
  simp only [Pools.grow, count, count_append] at before ⊢
  split at before <;> split at added <;> split <;> omega

end

theorem complete_range (size : Nat) : (⟨range size, [], []⟩ : Pools).Complete size := by
  intro id
  simp [count]

end Pools

end OranSlice
