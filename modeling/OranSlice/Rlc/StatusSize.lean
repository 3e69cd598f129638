import OranSlice.Rlc.AmRun
import OranSlice.Rlc.StatusNacks
import OranSlice.Rlc.StatusPlan

/-! The size that is announced for a status report. -/

namespace OranSlice.Rlc

open BitCodec

variable {cfg : AmConfig} {rx : AmRx}

def rangeSize (cfg : AmConfig) (nack : NackEntry) : Nat :=
  if nack.single then
    if nack.wholeSdus then (cfg.snFieldLength + 3 + nackRBits cfg) / 8
    else (cfg.snFieldLength + 3 + nackRBits cfg + 16 * 2) / 8
  else if nack.wholeSdus then (cfg.snFieldLength + 3 + nackRBits cfg + 8) / 8
  else (cfg.snFieldLength + 3 + nackRBits cfg + 16 * 2 + 8) / 8

structure MissingSize where
  (size rangeCount : Nat)
  truncated : Bool
deriving DecidableEq, Repr

def missingRanges (cfg : AmConfig) (maxsize : Nat) (m : MissingData) : Nat → Nat → Int → Nat → Nat → MissingSize
  | 0, _, _, size, rangeCount => ⟨size, rangeCount, false⟩
  | _ + 1, 0, _, size, rangeCount => ⟨size, rangeCount, false⟩
  | fuel + 1, snCount + 1, snStart, size, rangeCount =>
    let nack := rangeOf cfg m snStart (snCount + 1)
    if size + nackSize cfg nack > maxsize then ⟨size, rangeCount, true⟩
    else
      missingRanges cfg maxsize m fuel (snCount + 1 - nack.count) ((snStart + nack.count) % cfg.snModulus)
        (size + rangeSize cfg nack) (rangeCount + 1)

def missingSize (cfg : AmConfig) (maxsize : Nat) (m : MissingData) (size : Nat) : MissingSize :=
  missingRanges cfg maxsize m (m.snCount cfg) (m.snCount cfg) m.snStart size 0

/-- The loop over the missing parts. A part may be missing before the head as long as nothing was counted. -/
def AmRx.sizeNacks (cfg : AmConfig) (rx : AmRx) (maxsize : Nat) : Nat → List Pdu → Nat → Nat → Nat
  | 0, _, _, size => size
  | _ + 1, [], _, size => size
  | fuel + 1, cur :: rest, nackCount, size =>
    match rx.nextMissing cfg cur rest (nackCount == 0) with
    | none => size
    | some m =>
      let counted := missingSize cfg maxsize m size
      rx.sizeNacks cfg maxsize fuel (if counted.truncated then [] else m.next)
        (nackCount + counted.rangeCount) counted.size

def AmRx.statusSize (cfg : AmConfig) (rx : AmRx) (maxsize : Nat) : Nat :=
  if maxsize < 3 then 0 else rx.sizeNacks cfg maxsize (rx.rxList.length + 1) rx.rxList 0 3

theorem rangeSize_eq (admitted : cfg.Admitted) (nack : NackEntry) : rangeSize cfg nack = nackSize cfg nack := by
  unfold rangeSize nackSize nackLength nackRBits
  rcases admitted with short | long
  · cases nack.single <;> cases nack.wholeSdus <;> simp [short]
  · cases nack.single <;> cases nack.wholeSdus <;> simp [long]

theorem missingRanges_plan (admitted : cfg.Admitted) (m : MissingData) (fuel left : Nat) (snStart : Int)
    (size room rangeCount : Nat) :
    missingRanges cfg (size + room) m fuel left snStart size rangeCount =
      ⟨size + nackSizes cfg (planRanges cfg m fuel left snStart room).nacks,
        rangeCount + (planRanges cfg m fuel left snStart room).nacks.length,
        (planRanges cfg m fuel left snStart room).cut⟩ := by
  induction fuel generalizing left snStart size room rangeCount with
  | zero => rfl
  | succ fuel ih =>
    cases left with
    | zero => rfl
    | succ left =>
      unfold missingRanges planRanges
      by_cases full : nackSize cfg (rangeOf cfg m snStart (left + 1)) > room
      · rw [if_pos (Nat.add_lt_add_left full size), if_pos full]
        rfl
      have split_ : size + room = size + rangeSize cfg (rangeOf cfg m snStart (left + 1)) +
          (room - nackSize cfg (rangeOf cfg m snStart (left + 1))) := by
        rw [rangeSize_eq admitted]
        omega
      rw [if_neg (fun less => full (Nat.lt_of_add_lt_add_left less)), if_neg full, split_, ih,
        rangeSize_eq admitted, nackSizes_cons, List.length_cons, add_assoc size, add_assoc rangeCount,
        add_comm 1]

theorem planMissing_nonempty (positive : 0 < cfg.snModulus) (m : MissingData) {room : Nat}
    (whole : ¬ (planMissing cfg m room).cut = true) : 0 < (planMissing cfg m room).nacks.length := by
  obtain ⟨left, count⟩ := Nat.exists_eq_succ_of_ne_zero (Nat.pos_iff_ne_zero.mp (@m.snCount_bounds cfg positive).1)
  rw [planMissing, count, planRanges] at whole ⊢
  split_ifs at whole with fits
  · exact absurd rfl whole
  · rw [if_neg fits]
    exact Nat.succ_pos _

theorem sizeNacks_plan (admitted : cfg.Admitted) (positive : 0 < cfg.snModulus) (fuel : Nat) (list : List Pdu)
    (nackCount size room : Nat) :
    rx.sizeNacks cfg (size + room) fuel list nackCount size =
      size + nackSizes cfg (rx.planNacks cfg fuel list (nackCount == 0) room).nacks := by
  induction fuel generalizing list nackCount size room with
  | zero => rfl
  | succ fuel ih =>
    cases list with
    | nil => rfl
    | cons cur rest =>
      unfold AmRx.sizeNacks AmRx.planNacks
      cases rx.nextMissing cfg cur rest (nackCount == 0) with
      | none => rfl
      | some m =>
        dsimp only
        rw [missingSize, missingRanges_plan admitted, ← planMissing, zero_add]
        have fits : nackSizes cfg (planMissing cfg m room).nacks ≤ room := planRanges_fits _ _ _ _ _
        have split_ : size + room = size + nackSizes cfg (planMissing cfg m room).nacks +
            (room - nackSizes cfg (planMissing cfg m room).nacks) := by omega
        rw [split_, ih]
        split_ifs with whole
        · -- the loop ends with the part that was cut
          have ended (checkHead : Bool) (room : Nat) : (rx.planNacks cfg fuel [] checkHead room).nacks = [] := by
            cases fuel <;> rfl
          rw [ended]
          rfl
        · have counted := planMissing_nonempty positive m whole
          have later : (nackCount + (planMissing cfg m room).nacks.length == 0) = false := by
            rw [beq_eq_false_iff_ne]
            omega
          rw [later, nackSizes_append, add_assoc]

/-- The size that is announced for a report is the size of the report. -/
theorem status_size_exact (admitted : cfg.Admitted) (positive : 0 < cfg.snModulus) (rx : AmRx)
    (tCurrent maxsize : Nat) :
    rx.statusSize cfg maxsize = (rx.generateStatus cfg tCurrent maxsize).1.length := by
  unfold AmRx.statusSize AmRx.generateStatus
  split
  · rfl
  rename_i small
  have room : 3 ≤ maxsize := Nat.le_of_not_lt small
  have sized := @sizeNacks_plan cfg rx admitted positive (rx.rxList.length + 1) rx.rxList 0 3 (maxsize - 3)
  have length := report_length admitted (rx.plannedAckSn cfg (rx.statusPlan cfg maxsize)).toNat
    (rx.statusPlan cfg maxsize).wires
  rw [Nat.add_sub_cancel' room] at sized
  rw [sized, statusReport_eq admitted room, bitsToBytes_length _ length, wires_size]
  rfl

def gapsRx : AmRx :=
  { rxHighestStatus := 303
    rxList := [⟨1, 1, 1, false, false, some [7]⟩, ⟨2, 0, 1, true, true, none⟩] }

theorem status_size_gaps :
    ∃ start, newNrRlcEntityAm 100000 100000 defaultAmParams 12 = some start ∧
      gapsRx.statusSize start.cfg 20 = 19 ∧
      gapsRx.statusSize start.cfg 20 = (gapsRx.generateStatus start.cfg start.tCurrent 20).1.length :=
  ⟨_, rfl, by decide +kernel, status_size_exact (Or.inl rfl) (by decide) gapsRx 0 20⟩

end OranSlice.Rlc
