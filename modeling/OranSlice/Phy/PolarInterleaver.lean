import Mathlib.Tactic

/-! The triangular interleaver of polar coded bits: written row by row, read column by column. -/

namespace OranSlice.Phy.Polar

open List Function

/-- `ceil((sqrt(8 * E + 1) - 1) / 2)`; the root of 8E + 1 rounded up is that of 8E rounded down, and one. -/
def side (e : Nat) : Nat := (Nat.sqrt (8 * e) + 1) / 2

abbrev Cell := Nat × Nat

def rows (t : Nat) : List Cell := (range t).flatMap fun i => (range (t - i)).map fun j => (i, j)

def columns (t : Nat) : List Cell := (range t).flatMap fun j => (range (t - j)).map fun i => (i, j)

def number (value : Nat → Int) : List Cell → Nat → (Cell → Int) → Cell → Int
  | [], _, v => v
  | cell :: cells, k, v => number value cells (k + 1) (update v cell (value k))

def intMax : Int := 2 ^ 31 - 1

def spread (vTab : Cell → Int) (e : Nat) (value : Nat → Int) : List Cell → Nat → (Cell → Int) → Cell → Int
  | [], _, v => v
  | cell :: cells, k, v =>
    if k < e ∧ vTab cell ≠ 0 then spread vTab e value cells (k + 1) (update v cell (value k))
    else spread vTab e value cells k (update v cell intMax)

/-- The values that are there, one after the other from address `k` on. -/
def collect (absent : Int) (write : β → Int → β) (v : Cell → Int) : List Cell → Nat → (Nat → β) → Nat → β
  | [], _, memory => memory
  | cell :: cells, k, memory =>
    if v cell = absent then collect absent write v cells k memory
    else collect absent write v cells (k + 1) (update memory k (write (memory k) (v cell)))

def memset (value : β) (start count : Nat) (memory : Nat → β) (address : Nat) : β :=
  if start ≤ address ∧ address < start + count then value else memory address

/-- The bits of a little-endian memory; the two buffers start at the bits `input` and `out`. -/
def nrPolarRmInterleavingCb (memory : Nat → Bool) (input out e : Nat) : Nat → Bool :=
  let v := number (fun k => if k < e then (memory (input + k)).toInt else -1) (rows (side e)) 0 (fun _ => 0)
  collect (-1) (fun old bit => old || bit == 1) v (columns (side e)) out (memset false out (8 * (e / 8)) memory)

def nrPolarRmDeinterleavingCb (memory : Nat → BitVec 16) (input out e : Nat) : Nat → BitVec 16 :=
  let vTab := number (fun k => if k < e then k + 1 else 0) (rows (side e)) 0 (fun _ => 0)
  let v := spread vTab e (fun k => (memory (input + k)).toInt) (columns (side e)) 0 (fun _ => 0)
  collect intMax (fun _ value => BitVec.ofInt 16 value) v (rows (side e)) out (memset 0 out e memory)

theorem side_le (e : Nat) : e ≤ side e * (side e + 1) / 2 := by
  have above : 8 * e < (Nat.sqrt (8 * e) + 1) * (Nat.sqrt (8 * e) + 1) := Nat.lt_succ_sqrt (8 * e)
  have wide : Nat.sqrt (8 * e) + 1 ≤ 2 * side e + 1 := by unfold side; omega
  rw [Nat.le_div_iff_mul_le (by decide)]
  nlinarith

theorem lt_of_lt_side {t e : Nat} (small : t < side e) : t * (t + 1) / 2 < e := by
  have below : Nat.sqrt (8 * e) * Nat.sqrt (8 * e) ≤ 8 * e := Nat.sqrt_le (8 * e)
  have narrow : 2 * t + 1 ≤ Nat.sqrt (8 * e) := by unfold side at small; omega
  rw [Nat.div_lt_iff_lt_mul (by decide)]
  nlinarith

theorem rows_length (t : Nat) : (rows t).length = t * (t + 1) / 2 := by
  simp only [rows]
  induction t with
  | zero => rfl
  | succ t ih =>
    have grown : (t + 1) * (t + 1 + 1) = t * (t + 1) + 2 * (t + 1) := by linarith
    rw [range_succ_eq_map, grown, Nat.add_mul_div_left _ _ (by decide), ← ih]
    simp [Function.comp_def, add_comm]

@[simp] theorem mem_rows {cell : Cell} {t : Nat} : cell ∈ rows t ↔ cell.1 + cell.2 < t := by
  obtain ⟨i, j⟩ := cell
  simp [rows]
  omega

@[simp] theorem mem_columns {cell : Cell} {t : Nat} : cell ∈ columns t ↔ cell.1 + cell.2 < t := by
  obtain ⟨i, j⟩ := cell
  simp [columns]
  omega

theorem nodup_rows (t : Nat) : (rows t).Nodup := by
  refine nodup_flatMap.mpr ⟨fun i _ => nodup_range.map fun a b same => (Prod.ext_iff.mp same).2, ?_⟩
  refine nodup_range.imp fun {i i'} apart cell left right => apart ?_
  obtain ⟨j, _, rfl⟩ := mem_map.mp left
  obtain ⟨j', _, same⟩ := mem_map.mp right
  exact (Prod.ext_iff.mp same).1.symm

theorem columns_eq (t : Nat) : columns t = (rows t).map Prod.swap := by
  simp [columns, rows, map_flatMap, Function.comp_def]

theorem nodup_columns (t : Nat) : (columns t).Nodup := by
  rw [columns_eq]
  exact (nodup_rows t).map Prod.swap_injective

variable {cells : List Cell} {cell : Cell} {value : Nat → Int} {v vTab : Cell → Int} {k n e : Nat} {absent : Int}
  {write : β → Int → β} {memory : Nat → β}

theorem number_apply (distinct : cells.Nodup) : number value cells k v cell =
    if cell ∈ cells then value (k + cells.idxOf cell) else v cell := by
  induction cells generalizing k v with
  | nil => simp [number]
  | cons first cells ih =>
    obtain ⟨new, later⟩ := nodup_cons.mp distinct
    rw [number, ih later]
    by_cases same : cell = first
    · subst same
      simp [new]
    · simp [same, idxOf_cons_ne _ (Ne.symm same), add_right_comm, ← add_assoc]

theorem spread_apply (distinct : cells.Nodup) (room : k + (cells.filter (vTab · ≠ 0)).length ≤ e) :
    spread vTab e value cells k v cell = if cell ∈ cells then
      if vTab cell ≠ 0 then value (k + (cells.filter (vTab · ≠ 0)).idxOf cell) else intMax else v cell := by
  induction cells generalizing k v with
  | nil => simp [spread]
  | cons first cells ih =>
    obtain ⟨new, later⟩ := nodup_cons.mp distinct
    rw [spread]
    by_cases marked : vTab first ≠ 0
    · rw [filter_cons_of_pos (by simpa using marked)] at room ⊢
      rw [length_cons] at room
      rw [if_pos ⟨by omega, marked⟩, ih later (by omega)]
      by_cases same : cell = first
      · subst same
        simp [new, marked]
      · simp [same, idxOf_cons_ne _ (Ne.symm same), add_right_comm, ← add_assoc]
    · rw [filter_cons_of_neg (by simpa using marked)] at room ⊢
      rw [if_neg (fun both => marked both.2), ih later room]
      by_cases same : cell = first
      · subst same
        simp [marked]
      · simp [same]

theorem collect_before (before : n < k) : collect absent write v cells k memory n = memory n := by
  induction cells generalizing k memory with
  | nil => rfl
  | cons first cells ih =>
    rw [collect]
    split_ifs
    · exact ih before
    · rw [ih (by omega), update_of_ne (by omega)]

theorem collect_at (found : (cells.filter (v · ≠ absent))[n]? = some cell) :
    collect absent write v cells k memory (k + n) = write (memory (k + n)) (v cell) := by
  induction cells generalizing k n memory with
  | nil => simp at found
  | cons first cells ih =>
    rw [collect]
    by_cases none : v first = absent
    · rw [if_pos none]
      exact ih (by rwa [filter_cons_of_neg (by simpa using none)] at found)
    · rw [filter_cons_of_pos (by simpa using none)] at found
      rw [if_neg none]
      cases n with
      | zero =>
        cases found
        rw [add_zero, collect_before (by omega), update_self]
      | succ n =>
        rw [show k + (n + 1) = k + 1 + n by omega, ih (by simpa using found), update_of_ne (by omega)]

theorem filter_idxOf (distinct : cells.Nodup) (e : Nat) : cells.filter (cells.idxOf · < e) = cells.take e := by
  induction cells generalizing e with
  | nil => simp
  | cons first cells ih =>
    obtain ⟨new, later⟩ := nodup_cons.mp distinct
    cases e with
    | zero => simp
    | succ e =>
      rw [filter_cons_of_pos (by simp), take_succ_cons, ← ih later]
      congr 1
      refine filter_congr fun cell member => ?_
      rw [idxOf_cons_ne _ (fun same : first = cell => new (same ▸ member))]
      simp

def place (e : Nat) (cell : Cell) : Nat := (rows (side e)).idxOf cell

def order (e : Nat) : List Cell := (columns (side e)).filter (place e · < e)

def kept (e : Nat) : List Cell := (rows (side e)).filter (place e · < e)

theorem order_perm (e : Nat) : (order e).Perm (kept e) := by
  refine Perm.filter _ ((perm_ext_iff_of_nodup (nodup_columns _) (nodup_rows _)).mpr fun cell => ?_)
  rw [mem_columns, mem_rows]

theorem rows_enough (e : Nat) : e ≤ (rows (side e)).length := by
  rw [rows_length]
  exact side_le e

theorem kept_eq (e : Nat) : kept e = (rows (side e)).take e := filter_idxOf (nodup_rows _) e

theorem order_length (e : Nat) : (order e).length = e := by
  rw [(order_perm e).length_eq, kept_eq, length_take_of_le (rows_enough e)]

theorem number_place (inside : cell ∈ columns (side e)) :
    number value (rows (side e)) 0 v cell = value (place e cell) := by
  rw [number_apply (nodup_rows _), if_pos (mem_rows.mpr (mem_columns.mp inside)), zero_add, place]

theorem interleaving_apply (whole : 8 ∣ e) (bits : Nat → Bool) (input out : Nat) (below : n < e)
    (found : (order e)[n]? = some cell) :
    nrPolarRmInterleavingCb bits input out e (out + n) = bits (input + place e cell) := by
  obtain ⟨inside, kept⟩ := mem_filter.mp (mem_of_getElem? found)
  have cleared : memset false out (8 * (e / 8)) bits (out + n) = false := if_pos (by omega)
  rw [nrPolarRmInterleavingCb]
  generalize table : number _ (rows (side e)) 0 (fun _ => 0) = v
  have held (c : Cell) (inside : c ∈ columns (side e)) :
      v c = if place e c < e then (bits (input + place e c)).toInt else -1 := by
    rw [← table, number_place inside]
  have listed : (columns (side e)).filter (v · ≠ -1) = order e := by
    refine filter_congr fun c member => ?_
    rw [held c member]
    cases bits (input + place e c) <;> simp
  rw [collect_at (listed ▸ found), held cell inside, if_pos (by simpa using kept), cleared]
  cases bits (input + place e cell) <;> rfl

theorem deinterleaving_apply (soft : Nat → BitVec 16) (input out : Nat)
    (found : (kept e)[n]? = some cell) :
    nrPolarRmDeinterleavingCb soft input out e (out + n) = soft (input + (order e).idxOf cell) := by
  rw [nrPolarRmDeinterleavingCb]
  generalize table : number _ (rows (side e)) 0 (fun _ => 0) = vTab
  have marked (c : Cell) (inside : c ∈ columns (side e)) : vTab c ≠ 0 ↔ place e c < e := by
    rw [← table, number_place inside]
    split_ifs <;> omega
  have listed : (columns (side e)).filter (vTab · ≠ 0) = order e :=
    filter_congr fun c member => by simp only [marked c member]
  generalize values : spread vTab e _ (columns (side e)) 0 (fun _ => 0) = v
  have held (c : Cell) (inside : c ∈ rows (side e)) :
      v c = if place e c < e then (soft (input + (order e).idxOf c)).toInt else intMax := by
    have inside := mem_columns.mpr (mem_rows.mp inside)
    rw [← values, spread_apply (nodup_columns _) (by rw [listed, order_length, zero_add]), if_pos inside, listed,
      zero_add]
    simp only [marked c inside]
  have filled : (rows (side e)).filter (v · ≠ intMax) = kept e := by
    refine filter_congr fun c member => ?_
    have small := BitVec.toInt_lt (x := soft (input + (order e).idxOf c))
    have apart : (soft (input + (order e).idxOf c)).toInt ≠ intMax := by unfold intMax; omega
    rw [held c member]
    split_ifs with holds <;> simp [holds, apart]
  obtain ⟨inside, holds⟩ := mem_filter.mp (mem_of_getElem? found)
  rw [collect_at (filled ▸ found), held cell inside, if_pos (by simpa using holds), BitVec.ofInt_toInt]

def Inverted (e : Nat) : Prop :=
  ∃ source : Nat → Nat,
    (∀ (bits : Nat → Bool) (input out k : Nat), k < e →
      source k < e ∧ nrPolarRmInterleavingCb bits input out e (out + k) = bits (input + source k)) ∧
    ∀ (soft original : Nat → BitVec 16) (input out : Nat), (∀ k < e, soft (input + k) = original (source k)) →
      ∀ m < e, nrPolarRmDeinterleavingCb soft input out e (out + m) = original m

theorem deinterleaving_inverts (octets : Nat) :
    Inverted (8 * octets) ∧ 8 * octets ≤ side (8 * octets) * (side (8 * octets) + 1) / 2 ∧
      ∀ t < side (8 * octets), t * (t + 1) / 2 < 8 * octets := by
  refine ⟨?_, side_le _, fun t => lt_of_lt_side⟩
  generalize size : 8 * octets = e
  refine ⟨fun k => place e ((order e).getD k (0, 0)), fun bits input out k below => ?_,
    fun soft original input out same m below => ?_⟩
  · have found : (order e)[k]? = some ((order e).getD k (0, 0)) := by
      rw [getD_eq_getElem?_getD, getElem?_eq_getElem (by rwa [order_length]), Option.getD_some]
    have inside := (mem_filter.mp (mem_of_getElem? found)).2
    exact ⟨by simpa using inside, interleaving_apply ⟨octets, size.symm⟩ bits input out below found⟩
  · have room : m < (rows (side e)).length := below.trans_le (rows_enough e)
    have found : (kept e)[m]? = some (rows (side e))[m] := by
      rw [kept_eq, getElem?_take_of_lt below, getElem?_eq_getElem room]
    have index := idxOf_lt_length_of_mem ((order_perm e).mem_iff.mpr (mem_of_getElem? found))
    rw [deinterleaving_apply soft input out found, same _ (by rwa [order_length] at index)]
    dsimp only
    rw [getD_eq_getElem?_getD, getElem?_eq_getElem index, Option.getD_some, getElem_idxOf, place,
      (nodup_rows _).idxOf_getElem]

end OranSlice.Phy.Polar
