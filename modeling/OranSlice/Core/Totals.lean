import Mathlib.Tactic

/-! The total weight of the items of a list. -/

namespace OranSlice.Totals

open List

variable {α : Type*} {weight : α → Int} {list front back : List α}

def total (weight : α → Int) (list : List α) : Int := (list.map weight).sum

@[simp] theorem total_nil : total weight [] = 0 := rfl

@[simp] theorem total_cons (a : α) (rest : List α) : total weight (a :: rest) = weight a + total weight rest := by
  simp [total]

@[simp] theorem total_append (front back : List α) :
    total weight (front ++ back) = total weight front + total weight back := by
  simp [total]

theorem total_perm (same : front.Perm back) : total weight front = total weight back := (same.map weight).sum_eq

theorem total_parts (p : α → Bool) (list : List α) :
    total weight list = total weight (list.takeWhile p) + total weight (list.dropWhile p) := by
  rw [← total_append, takeWhile_append_dropWhile]

theorem total_eraseP {p : α → Bool} {a : α} (found : list.find? p = some a) :
    total weight list = weight a + total weight (list.eraseP p) := by
  obtain ⟨holds, front, back, rfl, before⟩ := find?_eq_some_iff_append.mp found
  have erased : (front ++ a :: back).eraseP p = front ++ back := by
    rw [eraseP_append_right _ (by simpa using before), eraseP_cons_of_pos holds]
  rw [erased, total_append, total_append, total_cons]
  omega

theorem total_nonneg (weights : ∀ a ∈ list, 0 ≤ weight a) : 0 ≤ total weight list := by
  induction list with
  | nil => exact le_rfl
  | cons a rest ih =>
    obtain ⟨first, others⟩ := forall_mem_cons.mp weights
    exact Int.add_nonneg first (ih others)

theorem total_eq_zero_iff (weights : ∀ a ∈ list, 0 ≤ weight a) :
    total weight list = 0 ↔ ∀ a ∈ list, weight a = 0 := by
  induction list with
  | nil => simp
  | cons a rest ih =>
    obtain ⟨first, others⟩ := forall_mem_cons.mp weights
    have nonneg := total_nonneg others
    rw [total_cons, forall_mem_cons, ← ih others]
    omega

section Groups

variable {κ M : Type*} [DecidableEq κ] [AddCommMonoid M]

theorem sum_single {groups : List κ} (distinct : groups.Nodup) {own : κ} (member : own ∈ groups) (value : M) :
    (groups.map (fun group => if own = group then value else 0)).sum = value := by
  induction groups with
  | nil => cases member
  | cons group groups ih =>
    obtain ⟨fresh, others⟩ := nodup_cons.mp distinct
    by_cases here : own = group
    · have zeros : groups.map (fun other => if own = other then value else 0) = groups.map (fun _ => 0) := by
        apply map_congr_left
        intro other later
        have apart : own ≠ other := by
          intro same
          rw [here] at same
          exact fresh (same ▸ later)
        exact if_neg apart
      rw [map_cons, if_pos here, zeros]
      simp
    · have later : own ∈ groups := (mem_cons.mp member).resolve_left here
      rw [map_cons, sum_cons, if_neg here, ih others later, zero_add]

theorem sum_groups (key : α → κ) (value : α → M) {groups : List κ} (distinct : groups.Nodup) (list : List α)
    (covered : ∀ a ∈ list, key a ∈ groups) :
    (groups.map (fun group => ((list.filter (fun a => key a = group)).map value).sum)).sum = (list.map value).sum := by
  induction list with
  | nil => simp
  | cons a rest ih =>
    obtain ⟨first, others⟩ := forall_mem_cons.mp covered
    have split : ∀ group, (((a :: rest).filter (fun b => key b = group)).map value).sum =
        (if key a = group then value a else 0) + ((rest.filter (fun b => key b = group)).map value).sum := by
      intro group
      by_cases own : key a = group <;> simp [own]
    calc (groups.map (fun group => (((a :: rest).filter (fun b => key b = group)).map value).sum)).sum
        = (groups.map (fun group => (if key a = group then value a else 0) +
            ((rest.filter (fun b => key b = group)).map value).sum)).sum := by
          simp [split]
      _ = (groups.map (fun group => if key a = group then value a else 0)).sum +
            (groups.map (fun group => ((rest.filter (fun b => key b = group)).map value).sum)).sum :=
          sum_map_add
      _ = value a + (rest.map value).sum := by rw [sum_single distinct first, ih others]
      _ = ((a :: rest).map value).sum := by rw [map_cons, sum_cons]

end Groups

end OranSlice.Totals
