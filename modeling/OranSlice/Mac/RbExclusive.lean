import OranSlice.Core.Toggle
import OranSlice.Mac.DlCell

/-! Areas of resource blocks and symbols that UEs are given one after the other, each
marked in a mask by an exclusive or. -/

namespace OranSlice.Mac

open FreeRun Toggle

def RbMask.cells (mask : RbMask) : Set (Nat × Nat) := { cell | (mask cell.1).getLsbD cell.2 = true }

def freeRun (bwpSize : Nat) (mask : RbMask) (tda : TdaInfo) (rbStart : Nat) : Nat :=
  run (mask.isFree tda.bitmap) (bwpSize - rbStart) rbStart

structure RbArea where
  owner : Nat
  maskBefore : RbMask
  tdaInfo : TdaInfo
  (rbStart rbSize : Nat)

namespace RbArea

def Covers (area : RbArea) (rb : Nat) : Prop :=
  area.rbStart ≤ rb ∧ rb < area.rbStart + area.rbSize

def cells (area : RbArea) : Set (Nat × Nat) :=
  { cell | area.Covers cell.1 ∧ cell.2 < 16 ∧ area.tdaInfo.startSymbolIndex ≤ cell.2 ∧
    cell.2 < area.tdaInfo.startSymbolIndex + area.tdaInfo.nrOfSymbols }

def Fits (bwpSize : Nat) (area : RbArea) : Prop :=
  area.rbSize ≤ freeRun bwpSize area.maskBefore area.tdaInfo area.rbStart

def marked (area : RbArea) (mask : RbMask) : RbMask :=
  mask.toggle area.tdaInfo.bitmap area.rbStart area.rbSize

end RbArea

def AreaChain : RbMask → List RbArea → RbMask → Prop
  | mask, [], last => last = mask
  | mask, area :: rest, last => area.maskBefore = mask ∧ AreaChain (area.marked mask) rest last

structure AreasExclusive (bwpSize : Nat) (mask : RbMask) (areas : List RbArea) : Prop where
  inside : ∀ area ∈ areas, ∀ rb, area.Covers rb → rb < bwpSize
  unblocked : ∀ area ∈ areas, area.cells ⊆ mask.cells
  apart : ∀ area ∈ areas, ∀ other ∈ areas, area.owner ≠ other.owner →
    Disjoint area.cells other.cells

variable {mask middle last : RbMask} {front back areas : List RbArea} {small large bwpSize : Nat}

theorem AreaChain.append (first : AreaChain mask front middle) (second : AreaChain middle back last) :
    AreaChain mask (front ++ back) last := by
  induction front generalizing mask with
  | nil =>
    cases first
    exact second
  | cons area rest ih => exact ⟨first.1, ih first.2⟩

theorem slToBitmap_getLsbD (start symbols k : Nat) :
    (slToBitmap start symbols).getLsbD k =
      decide (k < 16 ∧ start ≤ k ∧ k < start + symbols) := by
  have ones : ∀ j, ((1#16 <<< symbols) - 1#16).getLsbD j = decide (j < 16 ∧ j < symbols) := by
    intro j
    rcases Nat.lt_or_ge symbols 16 with few | many
    · have small : 2 ^ symbols < 2 ^ 16 := Nat.pow_lt_pow_right (by decide) few
      have positive := Nat.two_pow_pos symbols
      have value : ((1#16 <<< symbols) - 1#16).toNat = 2 ^ symbols - 1 := by
        rw [BitVec.toNat_sub_of_le]
        · simp only [BitVec.toNat_shiftLeft, BitVec.toNat_ofNat]
          omega
        · rw [BitVec.le_def]
          simp only [BitVec.toNat_shiftLeft, BitVec.toNat_ofNat]
          omega
      rw [BitVec.getLsbD, value, Nat.testBit_two_pow_sub_one]
      simp only [decide_eq_decide]
      omega
    · have gone : 1#16 <<< symbols = 0#16 := BitVec.shiftLeft_eq_zero many
      have all : (0#16 - 1#16) = BitVec.allOnes 16 := by decide
      rw [gone, all, BitVec.getLsbD_allOnes]
      simp only [decide_eq_decide]
      omega
  rw [slToBitmap, BitVec.getLsbD_shiftLeft, ones]
  by_cases inside : k < 16
  · by_cases early : k < start
    · simp [early]
    · simp only [inside, early, decide_true, decide_false, Bool.not_false, Bool.true_and, true_and,
        decide_eq_decide]
      omega
  · simp [inside]

theorem isFree_iff (mask : RbMask) (tda : TdaInfo) (rb : Nat) :
    mask.isFree tda.bitmap rb = true ↔
      ∀ k < 16, tda.startSymbolIndex ≤ k → k < tda.startSymbolIndex + tda.nrOfSymbols →
        (mask rb).getLsbD k = true := by
  rw [RbMask.isFree, beq_iff_eq]
  constructor
  · intro same k inside above below
    have bit := congrArg (fun bits => bits.getLsbD k) same
    simpa [TdaInfo.bitmap, slToBitmap_getLsbD, inside, above, below] using bit
  · intro all
    refine BitVec.eq_of_getLsbD_eq fun k inside => ?_
    rw [BitVec.getLsbD_and, TdaInfo.bitmap, slToBitmap_getLsbD]
    by_cases symbol : k < 16 ∧ tda.startSymbolIndex ≤ k ∧ k < tda.startSymbolIndex + tda.nrOfSymbols
    · simp [all k symbol.1 symbol.2.1 symbol.2.2]
    · simp [symbol]

theorem freeRun_mono (order : small ≤ large) (mask : RbMask) (tda : TdaInfo)
    (start : Nat) : freeRun small mask tda start ≤ freeRun large mask tda start := by
  have fits := (@le_run_iff (mask.isFree tda.bitmap) (small - start) start
    (freeRun small mask tda start)).mp (le_refl _)
  exact (le_run_iff (large - start) start _).mpr ⟨by omega, fits.2⟩

theorem RbArea.fits_iff (bwpSize : Nat) (area : RbArea) :
    area.Fits bwpSize ↔
      (∀ rb, area.Covers rb → rb < bwpSize) ∧ area.cells ⊆ area.maskBefore.cells := by
  rw [RbArea.Fits, freeRun, le_run_iff]
  constructor
  · rintro ⟨bound, free⟩
    refine ⟨fun rb covered => ?_, ?_⟩
    · have range := covered
      simp only [RbArea.Covers] at range
      omega
    · rintro ⟨rb, k⟩ ⟨⟨above, below⟩, inside, first, last⟩
      have here := (isFree_iff _ _ _).mp (free (rb - area.rbStart) (by omega)) k inside first last
      rwa [Nat.add_sub_cancel' above] at here
  · rintro ⟨inside, free⟩
    refine ⟨?_, fun i below => (isFree_iff _ _ _).mpr fun k symbol first last => ?_⟩
    · rcases Nat.eq_zero_or_pos area.rbSize with none | some
      · omega
      have last := inside (area.rbStart + area.rbSize - 1) (by
        simp only [RbArea.Covers]
        omega)
      omega
    · have covered : area.Covers (area.rbStart + i) := by
        simp only [RbArea.Covers]
        omega
      have cell : (area.rbStart + i, k) ∈ area.cells := ⟨covered, symbol, first, last⟩
      exact free cell

theorem RbArea.marked_cells (area : RbArea) (mask : RbMask) :
    (area.marked mask).cells = symmDiff mask.cells area.cells := by
  ext ⟨rb, k⟩
  rw [Set.mem_symmDiff]
  simp only [RbMask.cells, Set.mem_ofPred_eq, RbArea.marked, RbMask.toggle, RbArea.cells, RbArea.Covers]
  by_cases covered : area.rbStart ≤ rb ∧ rb < area.rbStart + area.rbSize
  · rw [if_pos covered, BitVec.getLsbD_xor, TdaInfo.bitmap, slToBitmap_getLsbD]
    by_cases symbol : k < 16 ∧ area.tdaInfo.startSymbolIndex ≤ k ∧
        k < area.tdaInfo.startSymbolIndex + area.tdaInfo.nrOfSymbols
    · simp [covered, symbol]
    · simp [symbol]
  · simp [covered]

theorem AreaChain.eachInside (chain : AreaChain mask areas last) :
    (∀ area ∈ areas, area.cells ⊆ area.maskBefore.cells) ↔
      EachInside mask.cells (areas.map RbArea.cells) := by
  induction areas generalizing mask with
  | nil => simp [EachInside]
  | cons area rest ih =>
    rw [List.forall_mem_cons, List.map_cons, EachInside, chain.1, ih chain.2, RbArea.marked_cells]

theorem pairwise_disjoint_iff (once : (areas.map RbArea.owner).Nodup) :
    (areas.map RbArea.cells).Pairwise Disjoint ↔
      ∀ area ∈ areas, ∀ other ∈ areas, area.owner ≠ other.owner → Disjoint area.cells other.cells := by
  have distinct : areas.Pairwise (fun a b => a.owner ≠ b.owner) := List.pairwise_map.mp once
  rw [List.pairwise_map]
  constructor
  · intro pairwise area member other inside different
    have : Std.Symm (fun a b : RbArea => a.owner ≠ b.owner → Disjoint a.cells b.cells) :=
      ⟨fun a b apart different => (apart (Ne.symm different)).symm⟩
    have weaker : areas.Pairwise (fun a b => a.owner ≠ b.owner → Disjoint a.cells b.cells) := by
      apply pairwise.imp
      intro a b apart _
      exact apart
    exact weaker.forall_of_forall (fun a _ different => absurd rfl different) member inside different
  · intro all
    exact distinct.imp_of_mem fun first second different => all _ first _ second different

theorem AreaChain.exclusive_iff (chain : AreaChain mask areas last) (once : (areas.map RbArea.owner).Nodup) :
    AreasExclusive bwpSize mask areas ↔ ∀ area ∈ areas, area.Fits bwpSize := by
  have inside := chain.eachInside
  rw [eachInside_iff, List.forall_mem_map, pairwise_disjoint_iff once] at inside
  simp only [RbArea.fits_iff]
  constructor
  · intro exclusive area member
    exact ⟨exclusive.inside area member, inside.mpr ⟨exclusive.unblocked, exclusive.apart⟩ area member⟩
  · intro all
    obtain ⟨unblocked, apart⟩ := inside.mp fun area member => (all area member).2
    exact ⟨fun area member => (all area member).1, unblocked, apart⟩

end OranSlice.Mac
