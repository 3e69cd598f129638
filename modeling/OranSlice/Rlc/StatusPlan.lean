import OranSlice.Rlc.StatusCodec

/-! Which NACKs a status report has, apart from how they are written, and the size that is announced for
a report. -/

namespace OranSlice.Rlc

open BitCodec List

variable {cfg : AmConfig} {rx : AmRx}

def nackSizes (cfg : AmConfig) (nacks : List NackEntry) : Nat := (nacks.map (nackSize cfg)).sum

def NackEntry.lastSn (nack : NackEntry) : Int :=
  if nack.single then nack.snStart else nack.snStart + nack.count - 1

def lastNacked (last : Int) : List NackEntry → Int
  | [] => last
  | nack :: rest => lastNacked nack.lastSn rest

structure StatusPlan where
  nacks : List NackEntry
  cut : Bool
deriving DecidableEq, Repr

def planRanges (cfg : AmConfig) (m : MissingData) : Nat → Nat → Int → Nat → StatusPlan
  | 0, _, _, _ => ⟨[], false⟩
  | _ + 1, 0, _, _ => ⟨[], false⟩
  | fuel + 1, snCount + 1, snStart, room =>
    let nack := rangeOf cfg m snStart (snCount + 1)
    if nackSize cfg nack > room then ⟨[], true⟩
    else
      let later := planRanges cfg m fuel (snCount + 1 - nack.count) ((snStart + nack.count) % cfg.snModulus)
        (room - nackSize cfg nack)
      ⟨nack :: later.nacks, later.cut⟩

def planMissing (cfg : AmConfig) (m : MissingData) (room : Nat) : StatusPlan :=
  planRanges cfg m (m.snCount cfg) (m.snCount cfg) m.snStart room

def AmRx.planNacks (cfg : AmConfig) (rx : AmRx) : Nat → List Pdu → Bool → Nat → StatusPlan
  | 0, _, _, _ => ⟨[], false⟩
  | _ + 1, [], _, _ => ⟨[], false⟩
  | fuel + 1, cur :: rest, checkHead, room =>
    match rx.nextMissing cfg cur rest checkHead with
    | none => ⟨[], false⟩
    | some m =>
      let first := planMissing cfg m room
      if first.cut then first
      else
        let later := rx.planNacks cfg fuel m.next false (room - nackSizes cfg first.nacks)
        ⟨first.nacks ++ later.nacks, later.cut⟩

def AmRx.statusPlan (cfg : AmConfig) (rx : AmRx) (size : Nat) : StatusPlan :=
  rx.planNacks cfg (rx.rxList.length + 1) rx.rxList true (size - 3)

/-- The NACKs as they stand in the report: when it was cut, the last one reaches to the end of its SDU. -/
def StatusPlan.wires (plan : StatusPlan) : List WireNack :=
  if plan.cut then cutLast (plan.nacks.map NackEntry.wire) else plan.nacks.map NackEntry.wire

def AmRx.plannedAckSn (cfg : AmConfig) (rx : AmRx) (plan : StatusPlan) : Int :=
  (lastNacked ((rx.rxNext - 1 + cfg.snModulus) % cfg.snModulus) plan.nacks + 1) % cfg.snModulus

@[simp] theorem nackSizes_cons (nack : NackEntry) (rest : List NackEntry) :
    nackSizes cfg (nack :: rest) = nackSize cfg nack + nackSizes cfg rest := by
  simp [nackSizes]

@[simp] theorem nackSizes_append (front back : List NackEntry) :
    nackSizes cfg (front ++ back) = nackSizes cfg front + nackSizes cfg back := by
  simp [nackSizes]

theorem lastNacked_append (last : Int) (front back : List NackEntry) :
    lastNacked last (front ++ back) = lastNacked (lastNacked last front) back := by
  induction front generalizing last with
  | nil => rfl
  | cons nack rest ih => exact ih nack.lastSn

theorem wire_size (nack : NackEntry) : nack.wire.size cfg = nackSize cfg nack := by
  unfold WireNack.size nackSize NackEntry.wire
  cases nack.wholeSdus <;> rfl

theorem wireSizes_map (nacks : List NackEntry) : wireSizes cfg (nacks.map NackEntry.wire) = nackSizes cfg nacks := by
  unfold wireSizes nackSizes
  rw [map_map]
  congr 1
  apply map_congr_left
  intro nack _
  exact wire_size nack

theorem wireSizes_cutLast (wires : List WireNack) : wireSizes cfg (cutLast wires) = wireSizes cfg wires := by
  rcases eq_nil_or_concat wires with none | ⟨front, last, same⟩
  · rw [none]
    rfl
  · rw [same, concat_eq_append, cutLast_concat]
    simp only [wireSizes, map_append]
    rfl

theorem wires_size (plan : StatusPlan) : wireSizes cfg plan.wires = nackSizes cfg plan.nacks := by
  unfold StatusPlan.wires
  split
  · rw [wireSizes_cutLast, wireSizes_map]
  · exact wireSizes_map plan.nacks

theorem planRanges_fits (m : MissingData) (fuel left : Nat) (snStart : Int) (room : Nat) :
    nackSizes cfg (planRanges cfg m fuel left snStart room).nacks ≤ room := by
  induction fuel generalizing left snStart room with
  | zero => exact Nat.zero_le room
  | succ fuel ih =>
    cases left with
    | zero => exact Nat.zero_le room
    | succ left =>
      unfold planRanges
      dsimp only
      split
      · exact Nat.zero_le room
      have later := ih (left + 1 - (rangeOf cfg m snStart (left + 1)).count)
        ((snStart + (rangeOf cfg m snStart (left + 1)).count) % cfg.snModulus)
        (room - nackSize cfg (rangeOf cfg m snStart (left + 1)))
      rw [nackSizes_cons]
      omega

structure StatusEncoder.Filled (cfg : AmConfig) (encoder : StatusEncoder) (nacks : List NackEntry) (room : Nat) :
    Prop where
  wrote : encoder.Wrote cfg (nacks.map NackEntry.wire)
  size : encoder.size = 3 + nackSizes cfg nacks + room

namespace StatusEncoder.Filled

variable {encoder : StatusEncoder} {nacks : List NackEntry} {room : Nat}

theorem byte (admitted : cfg.Admitted) (filled : encoder.Filled cfg nacks room) :
    encoder.byte = 3 + nackSizes cfg nacks := by
  rw [StatusEncoder.byte, filled.wrote.closed, statusStream_length admitted, wireSizes_map]
  exact Nat.mul_div_cancel_left _ (by decide)

theorem put (filled : encoder.Filled cfg nacks room) {nack : NackEntry} (fits : nackSize cfg nack ≤ room) :
    (encoder.put cfg nack).Filled cfg (nacks ++ [nack]) (room - nackSize cfg nack) where
  wrote := by
    rw [map_append]
    exact filled.wrote.put nack
  size := by
    have size := filled.size
    have single : nackSizes cfg [nack] = nackSize cfg nack := by simp [nackSizes]
    rw [nackSizes_append]
    change encoder.size = _
    omega

end StatusEncoder.Filled

structure Generated.Follows (cfg : AmConfig) (plan : StatusPlan) (nacks : List NackEntry) (room : Nat)
    (lastNack : Option Int) (result : Generated) : Prop where
  filled : result.encoder.Filled cfg (nacks ++ plan.nacks) (room - nackSizes cfg plan.nacks)
  truncated : result.truncated = plan.cut
  lastNack : ∀ last, result.lastNack.getD last = lastNacked (lastNack.getD last) plan.nacks

theorem Generated.Follows.nothing {encoder : StatusEncoder} {nacks : List NackEntry} {room : Nat}
    (filled : encoder.Filled cfg nacks room) (lastNack : Option Int) (cut : Bool) :
    Generated.Follows cfg ⟨[], cut⟩ nacks room lastNack ⟨encoder, lastNack, cut⟩ := by
  refine ⟨?_, rfl, fun _ => rfl⟩
  rw [append_nil]
  exact filled

theorem generateRanges_plan (admitted : cfg.Admitted) (m : MissingData) (fuel left : Nat) (snStart : Int)
    {encoder : StatusEncoder} {nacks : List NackEntry} {room : Nat} (filled : encoder.Filled cfg nacks room)
    (lastNack : Option Int) :
    (generateRanges cfg m fuel left snStart encoder lastNack).Follows cfg
      (planRanges cfg m fuel left snStart room) nacks room lastNack := by
  induction fuel generalizing left snStart encoder nacks room lastNack with
  | zero => exact .nothing filled lastNack false
  | succ fuel ih =>
    cases left with
    | zero => exact .nothing filled lastNack false
    | succ left =>
      have full_iff : encoder.byte + nackSize cfg (rangeOf cfg m snStart (left + 1)) > encoder.size ↔
          nackSize cfg (rangeOf cfg m snStart (left + 1)) > room := by
        have byte := filled.byte admitted
        have size := filled.size
        omega
      unfold generateRanges planRanges
      dsimp only
      rw [if_congr full_iff rfl rfl]
      split
      · exact .nothing filled lastNack true
      rename_i fits
      have later := ih (left + 1 - (rangeOf cfg m snStart (left + 1)).count)
        ((snStart + (rangeOf cfg m snStart (left + 1)).count) % cfg.snModulus)
        (filled.put (Nat.le_of_not_lt fits)) (some (rangeOf cfg m snStart (left + 1)).lastSn)
      refine ⟨?_, later.truncated, later.lastNack⟩
      have filled := later.filled
      rw [append_assoc, Nat.sub_sub] at filled
      exact filled

theorem generateNacks_plan (admitted : cfg.Admitted) (fuel : Nat) (list : List Pdu) (checkHead : Bool)
    {encoder : StatusEncoder} {nacks : List NackEntry} {room : Nat} (filled : encoder.Filled cfg nacks room)
    (lastNack : Int) :
    (rx.generateNacks cfg fuel list checkHead encoder lastNack).1.stream = statusStream cfg
        (StatusPlan.wires ⟨nacks ++ (rx.planNacks cfg fuel list checkHead room).nacks,
          (rx.planNacks cfg fuel list checkHead room).cut⟩) ∧
      (rx.generateNacks cfg fuel list checkHead encoder lastNack).2 =
        lastNacked lastNack (rx.planNacks cfg fuel list checkHead room).nacks := by
  have stop : encoder.stream = statusStream cfg (StatusPlan.wires ⟨nacks ++ [], false⟩) := by
    rw [append_nil]
    exact filled.wrote.closed
  induction fuel generalizing list checkHead encoder nacks room lastNack with
  | zero => exact ⟨stop, rfl⟩
  | succ fuel ih =>
    cases list with
    | nil => exact ⟨stop, rfl⟩
    | cons cur rest =>
      unfold AmRx.generateNacks AmRx.planNacks
      cases rx.nextMissing cfg cur rest checkHead with
      | none => exact ⟨stop, rfl⟩
      | some m =>
        have follows := generateRanges_plan admitted m (m.snCount cfg) (m.snCount cfg) m.snStart filled none
        change (generateMissing cfg m encoder).Follows cfg (planMissing cfg m room) nacks room none at follows
        dsimp only
        rw [follows.truncated, follows.lastNack]
        split_ifs with cut
        · refine ⟨?_, rfl⟩
          rw [StatusPlan.wires, if_pos cut]
          exact follows.filled.wrote.cut
        · have closed := follows.filled.wrote.closed
          have later := ih m.next false follows.filled (lastNacked lastNack (planMissing cfg m room).nacks)
            (by rw [append_nil]; exact closed)
          rw [lastNacked_append, ← append_assoc]
          exact later

theorem statusReport_eq (admitted : cfg.Admitted) {size : Nat} (room : 3 ≤ size) :
    rx.statusReport cfg size = bitsToBytes (putAckSn cfg (rx.plannedAckSn cfg (rx.statusPlan cfg size)).toNat
      (statusStream cfg (rx.statusPlan cfg size).wires)) := by
  have filled : StatusEncoder.Filled cfg ⟨bits 24 0, size, if cfg.snFieldLength = 18 then 22 else 16, none⟩ []
      (size - 3) :=
    ⟨.initial admitted size, by simp [nackSizes]; omega⟩
  have written := @generateNacks_plan cfg rx admitted (rx.rxList.length + 1) rx.rxList true _ _ _ filled
    ((rx.rxNext - 1 + cfg.snModulus) % cfg.snModulus)
  unfold AmRx.statusReport
  dsimp only
  rw [written.1, written.2]
  rfl

end OranSlice.Rlc
