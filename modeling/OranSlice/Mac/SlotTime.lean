import OranSlice.Core.Periodic

/-! Frames, slots and the uplink slots of a TDD pattern. -/

namespace OranSlice.Mac

open Periodic

def nrSlotsPerFrame (scs : Nat) : Nat := 10 * 2 ^ scs

def maxFrameNumber : Nat := 1024

inductive TddPeriodicity where
  | ms0p5
  | ms0p625
  | ms1
  | ms1p25
  | ms2
  | ms2p5
  | ms5
  | ms10
deriving DecidableEq, Repr

def getNbPeriodsPerFrame : TddPeriodicity → Nat
  | .ms0p5 => 20
  | .ms0p625 => 16
  | .ms1 => 10
  | .ms1p25 => 8
  | .ms2 => 5
  | .ms2p5 => 4
  | .ms5 => 2
  | .ms10 => 1

structure TddUlDlPattern where
  periodicity : TddPeriodicity
  (nrofDownlinkSlots nrofDownlinkSymbols nrofUplinkSlots nrofUplinkSymbols : Nat)
deriving DecidableEq, Repr

def getFirstUlSlot (tdd : TddUlDlPattern) : Nat :=
  tdd.nrofDownlinkSlots + if tdd.nrofDownlinkSymbols ≠ 0 ∧ tdd.nrofUplinkSymbols = 0 then 1 else 0

/-- The time structure of a cell: its numerology, its TDD pattern if it has one, and the offset of a
non-terrestrial network. -/
structure SlotGrid where
  scs : Nat
  tdd : Option TddUlDlPattern
  cellSpecificKoffset : Nat
  scs_le : scs ≤ 4
  koffset_le : cellSpecificKoffset ≤ 1023
  period_slot : ∀ pattern, tdd = some pattern →
    getNbPeriodsPerFrame pattern.periodicity ≤ nrSlotsPerFrame scs

namespace SlotGrid

theorem zero_koffset_le : 0 ≤ 1023 := by decide

variable (grid : SlotGrid)

def slotsFrame : Nat := nrSlotsPerFrame grid.scs

def koffset : Nat := grid.cellSpecificKoffset * 2 ^ grid.scs

def slotsPeriod : Nat :=
  match grid.tdd with
  | none => grid.slotsFrame
  | some tdd => grid.slotsFrame / getNbPeriodsPerFrame tdd.periodicity

def ulSlotsPeriod : Nat :=
  match grid.tdd with
  | none => grid.slotsFrame
  | some tdd => tdd.nrofUplinkSlots + if 0 < tdd.nrofUplinkSymbols then 1 else 0

def firstUlSlotPeriod : Nat :=
  match grid.tdd with
  | none => 0
  | some tdd => getFirstUlSlot tdd

def isUl (slot : Nat) : Bool := decide (grid.firstUlSlotPeriod ≤ slot % grid.slotsPeriod)

variable (time now ahead : Nat)

def frameOf : Nat := time / grid.slotsFrame % maxFrameNumber

def slotOf : Nat := time % grid.slotsFrame

/-- The TDD pattern has no flexible slots: from the first uplink slot on, a period has no more
slots than the pattern counts as uplink. -/
def Regular : Prop := grid.slotsPeriod ≤ grid.firstUlSlotPeriod + grid.ulSlotsPeriod

instance : Decidable grid.Regular :=
  inferInstanceAs (Decidable (grid.slotsPeriod ≤ grid.firstUlSlotPeriod + grid.ulSlotsPeriod))

variable {grid}

theorem slotsFrame_pos : 0 < grid.slotsFrame := Nat.mul_pos (by decide) (Nat.two_pow_pos _)

theorem slotsPeriod_pos : 0 < grid.slotsPeriod := by
  unfold slotsPeriod
  split
  · exact slotsFrame_pos
  rename_i tdd known
  have few := grid.period_slot tdd known
  apply Nat.div_pos few
  cases tdd.periodicity <;> decide

private def periodFits (scs : Nat) (periods : Nat) : Bool :=
  let n := nrSlotsPerFrame scs
  n / periods == 0 || n % (n / periods) == 0

private theorem periods_fit (periodicity : TddPeriodicity) {scs : Nat} (small : scs ≤ 4) :
    periodFits scs (getNbPeriodsPerFrame periodicity) = true := by
  have all : ∀ scs ≤ 4, periodFits scs (getNbPeriodsPerFrame periodicity) = true := by
    cases periodicity <;> decide
  exact all scs small

theorem slotsPeriod_dvd : grid.slotsPeriod ∣ grid.slotsFrame := by
  have positive := @slotsPeriod_pos grid
  unfold slotsPeriod at positive ⊢
  split at positive
  · exact dvd_refl _
  rename_i tdd known
  have fits := periods_fit tdd.periodicity grid.scs_le
  simp only [periodFits, Bool.or_eq_true, beq_iff_eq] at fits
  rcases fits with none | whole
  · exact absurd none (ne_of_gt positive)
  · exact Nat.dvd_of_mod_eq_zero whole

def pattern (grid : SlotGrid) : Pattern :=
  ⟨grid.slotsPeriod, grid.firstUlSlotPeriod, grid.ulSlotsPeriod, slotsPeriod_pos⟩

theorem Regular.pattern (regular : grid.Regular) : grid.pattern.Regular := regular

theorem isUl_iff : grid.isUl (grid.slotOf time) = true ↔ grid.pattern.Selected time := by
  have same : time % grid.slotsFrame % grid.slotsPeriod = time % grid.slotsPeriod :=
    Nat.mod_mod_of_dvd time slotsPeriod_dvd
  simp only [isUl, slotOf, decide_eq_true_eq, same]
  rfl

theorem frameOf_add :
    (grid.frameOf now + (grid.slotOf now + ahead) / grid.slotsFrame) % maxFrameNumber =
      grid.frameOf (now + ahead) := by
  have split := Nat.div_add_mod now grid.slotsFrame
  have later : (now + ahead) / grid.slotsFrame =
      now / grid.slotsFrame + (now % grid.slotsFrame + ahead) / grid.slotsFrame := by
    calc (now + ahead) / grid.slotsFrame
        = (grid.slotsFrame * (now / grid.slotsFrame) + (now % grid.slotsFrame + ahead)) /
            grid.slotsFrame := by rw [← add_assoc, split]
      _ = now / grid.slotsFrame + (now % grid.slotsFrame + ahead) / grid.slotsFrame :=
          Nat.mul_add_div slotsFrame_pos _ _
  rw [frameOf, frameOf, slotOf, later, Nat.mod_add_mod]

theorem slotOf_add : (grid.slotOf now + ahead) % grid.slotsFrame = grid.slotOf (now + ahead) := by
  rw [slotOf, slotOf, Nat.mod_add_mod]

theorem frameOf_mul_add_slotOf :
    grid.frameOf time * grid.slotsFrame + grid.slotOf time =
      time % (maxFrameNumber * grid.slotsFrame) := by
  rw [frameOf, slotOf, mul_comm maxFrameNumber, Nat.mod_mul, mul_comm grid.slotsFrame, add_comm]

end SlotGrid

end OranSlice.Mac
