import Mathlib.Tactic

/-! Objects held in several shares, with a counter for each object of the shares still out. A list names
the object of every share; counters are found by a key. -/

namespace OranSlice.Shares

open List Function

variable {Obj Key : Type*} [DecidableEq Obj]

def total (weight : Obj → Int) (objs : List Obj) : Int := (objs.dedup.map weight).sum

variable {weight : Obj → Int} {objs others : List Obj} {obj : Obj}

theorem total_congr (same : ∀ o, o ∈ objs ↔ o ∈ others) : total weight objs = total weight others := by
  have perm : objs.dedup.Perm others.dedup := by
    rw [perm_ext_iff_of_nodup objs.nodup_dedup others.nodup_dedup]
    intro o
    rw [mem_dedup, mem_dedup]
    exact same o
  exact (perm.map weight).sum_eq

theorem total_cons_of_mem (member : obj ∈ objs) : total weight (obj :: objs) = total weight objs := by
  rw [total, dedup_cons_of_mem member, total]

theorem total_cons_of_notMem (fresh : obj ∉ objs) :
    total weight (obj :: objs) = weight obj + total weight objs := by
  rw [total, dedup_cons_of_notMem fresh, map_cons, sum_cons, total]

structure Counted (key : Obj → Key) (left : Key → Int) (objs : List Obj) : Prop where
  shared : ∀ a ∈ objs, ∀ b ∈ objs, key a = key b → a = b
  counted : ∀ a ∈ objs, left (key a) = objs.count a

namespace Counted

variable {key : Obj → Key} {left : Key → Int}

theorem perm (counted : Counted key left objs) (same : objs.Perm others) : Counted key left others where
  shared a inA b inB := counted.shared a (same.mem_iff.mpr inA) b (same.mem_iff.mpr inB)
  counted a member := by
    rw [counted.counted a (same.mem_iff.mpr member), same.count_eq]

theorem last_iff (counted : Counted key left (obj :: objs)) : left (key obj) - 1 = 0 ↔ obj ∉ objs := by
  rw [counted.counted obj mem_cons_self, count_cons_self, ← count_eq_zero]
  omega

theorem drop (counted : Counted key left (obj :: objs)) (last : obj ∉ objs) : Counted key left objs where
  shared a inA b inB := counted.shared a (mem_cons_of_mem obj inA) b (mem_cons_of_mem obj inB)
  counted a member := by
    have apart : a ≠ obj := fun same => last (same ▸ member)
    rw [counted.counted a (mem_cons_of_mem obj member), count_cons_of_ne (Ne.symm apart)]

variable [DecidableEq Key]

theorem give_back (counted : Counted key left (obj :: objs)) :
    Counted key (update left (key obj) (left (key obj) - 1)) objs where
  shared a inA b inB := counted.shared a (mem_cons_of_mem obj inA) b (mem_cons_of_mem obj inB)
  counted a member := by
    have before := counted.counted a (mem_cons_of_mem obj member)
    by_cases same : a = obj
    · subst same
      rw [update_self, before, count_cons_self]
      omega
    · have apart : key a ≠ key obj := fun equal =>
        same (counted.shared a (mem_cons_of_mem obj member) obj mem_cons_self equal)
      rw [update_of_ne apart, before, count_cons_of_ne (Ne.symm same)]

theorem split (counted : Counted key left (obj :: objs)) :
    Counted key (update left (key obj) (left (key obj) + 1)) (obj :: obj :: objs) where
  shared a inA b inB := by
    have there : ∀ c, c ∈ obj :: obj :: objs → c ∈ obj :: objs := by simp
    exact counted.shared a (there a inA) b (there b inB)
  counted a member := by
    by_cases same : a = obj
    · subst same
      have before := counted.counted a mem_cons_self
      rw [update_self, count_cons_self (a := a) (l := a :: objs)]
      omega
    · have listed : a ∈ obj :: objs := by
        simp only [mem_cons] at member ⊢
        tauto
      have apart : key a ≠ key obj := fun equal =>
        same (counted.shared a listed obj mem_cons_self equal)
      rw [update_of_ne apart, counted.counted a listed, count_cons_of_ne (Ne.symm same) (l := obj :: objs)]

theorem create (counted : Counted key left objs) (fresh : ∀ a ∈ objs, key a ≠ key obj) :
    Counted key (update left (key obj) 1) (obj :: objs) where
  shared a inA b inB equal := by
    rcases mem_cons.mp inA with hereA | thereA
    · rcases mem_cons.mp inB with hereB | thereB
      · rw [hereA, hereB]
      · exact absurd (hereA ▸ equal.symm) (fresh b thereB)
    · rcases mem_cons.mp inB with hereB | thereB
      · exact absurd (hereB ▸ equal) (fresh a thereA)
      · exact counted.shared a thereA b thereB equal
  counted a member := by
    have absent : obj ∉ objs := fun there => fresh obj there rfl
    rcases mem_cons.mp member with here | there
    · rw [here, update_self, count_cons_self, count_eq_zero.mpr absent]
      rfl
    · have apart : a ≠ obj := fun same => absent (same ▸ there)
      rw [update_of_ne (fresh a there), counted.counted a there, count_cons_of_ne (Ne.symm apart)]

end Counted

end OranSlice.Shares
