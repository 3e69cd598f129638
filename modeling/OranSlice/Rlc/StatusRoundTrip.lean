import OranSlice.Rlc.AmReassembly
import OranSlice.Rlc.StatusPlan
import OranSlice.Rlc.StatusTruth

/-! Status reports are read back: the peer decodes the ACK_SN and the NACKs that were to be written. -/

namespace OranSlice.Rlc

open BitCodec Runs Window NackEntry List

variable {cfg : AmConfig} {rx : AmRx}

def NackEntry.asNack (nack : NackEntry) : Nack where
  sn := nack.snStart
  soStart := nack.soStart
  soEnd := if nack.soEnd = soEndOfSdu then -1 else nack.soEnd
  range := nack.count

def patchLast : List NackEntry → List NackEntry
  | [] => []
  | [nack] => [{ nack with soEnd := soEndOfSdu }]
  | nack :: next :: rest => nack :: patchLast (next :: rest)

def StatusPlan.entries (plan : StatusPlan) : List NackEntry := if plan.cut then patchLast plan.nacks else plan.nacks

structure NackEntry.Fits (cfg : AmConfig) (nack : NackEntry) : Prop where
  snLow : 0 ≤ nack.snStart
  snHigh : nack.snStart.toNat < 2 ^ cfg.snFieldLength
  soStart : nack.soStart ≤ soEndOfSdu
  soEnd : nack.soEnd ≤ soEndOfSdu
  single : nack.single = true → nack.count = 1
  count : nack.count < 2 ^ 8

namespace NackEntry.Fits

variable {nack : NackEntry}

theorem range (fits : nack.Fits cfg) : (if nack.single then 1 else nack.count % 2 ^ 8) = nack.count := by
  split_ifs with one
  · exact (fits.single one).symm
  · exact Nat.mod_eq_of_lt fits.count

theorem decoded (fits : nack.Fits cfg) : nack.wire.decoded cfg = nack.asNack := by
  have range := fits.range
  have soStart : nack.soStart % 2 ^ 16 = nack.soStart := Nat.mod_eq_of_lt (Nat.lt_succ_of_le fits.soStart)
  have soEnd : nack.soEnd % 2 ^ 16 = nack.soEnd := Nat.mod_eq_of_lt (Nat.lt_succ_of_le fits.soEnd)
  unfold WireNack.decoded wire asNack
  rw [range, soStart, soEnd, Nat.mod_eq_of_lt fits.snHigh, Int.toNat_of_nonneg fits.snLow]
  cases whole : nack.wholeSdus with
  | false => rfl
  | true =>
    simp only [wholeSdus, Bool.and_eq_true, beq_iff_eq] at whole
    rw [whole.1, whole.2]
    rfl

theorem decoded_toEnd (fits : nack.Fits cfg) :
    nack.wire.toEnd.decoded cfg = asNack { nack with soEnd := soEndOfSdu } := by
  rw [toEnd_decoded, fits.decoded]
  rfl

end NackEntry.Fits

theorem readNacks_cutLast {nacks : List NackEntry} (fits : ∀ nack ∈ nacks, nack.Fits cfg) :
    readNacks cfg (cutLast (nacks.map wire)) = (patchLast nacks).map asNack := by
  induction nacks with
  | nil => rfl
  | cons nack rest ih =>
    obtain ⟨first, others⟩ := forall_mem_cons.mp fits
    cases rest with
    | nil => exact congrArg (fun nack => [nack]) first.decoded_toEnd
    | cons next rest =>
      have later := ih others
      unfold readNacks at later ⊢
      simp only [map_cons, cutLast, patchLast] at later ⊢
      rw [first.decoded, later]

theorem readNacks_wires (plan : StatusPlan) (fits : ∀ nack ∈ plan.nacks, nack.Fits cfg) :
    readNacks cfg plan.wires = plan.entries.map asNack := by
  unfold StatusPlan.wires StatusPlan.entries
  split
  · exact readNacks_cutLast fits
  rw [readNacks, map_map]
  apply map_congr_left
  intro nack member
  exact (fits nack member).decoded

namespace MissingData

variable {m : MissingData}

theorem rangeOf_fits (sound : cfg.Sound) (encodable : m.Encodable cfg) (offset : m.soStart ≤ soEndOfSdu) {i left : Nat}
    (here : i + left = m.snCount cfg) (some_ : 0 < left) : (rangeOf cfg m (m.snAt cfg i) left).Fits cfg := by
  have large := sound.modulus_large
  have single := rangeOf_single large encodable here some_
  have space : Within cfg.snModulus (m.snAt cfg i) := within_mod (by omega) _
  refine ⟨space.1, sound.toNat_lt space.1 space.2, ?_, ?_, ?_, ?_⟩
  · unfold rangeOf
    split
    · exact offset
    · exact Nat.zero_le _
  · have inside := encodable.soEnd
    unfold rangeOf
    dsimp only
    split
    · exact inside
    · exact le_rfl
  · exact single.mp
  · exact lt_of_le_of_lt (min_le_right left 255) (by decide)

theorem planRanges_fits (sound : cfg.Sound) (encodable : m.Encodable cfg) (offset : m.soStart ≤ soEndOfSdu)
    {fuel i left : Nat} (here : i + left = m.snCount cfg) (room : Nat) :
    ∀ nack ∈ (planRanges cfg m fuel left (m.snAt cfg i) room).nacks, nack.Fits cfg := by
  induction fuel generalizing i left room with
  | zero =>
    exact forall_mem_nil _
  | succ fuel ih =>
    cases left with
    | zero =>
      exact forall_mem_nil _
    | succ left =>
      unfold planRanges
      dsimp only
      split
      · exact forall_mem_nil _
      have count : (rangeOf cfg m (m.snAt cfg i) (left + 1)).count = min (left + 1) 255 := rfl
      have later := @ih (i + (rangeOf cfg m (m.snAt cfg i) (left + 1)).count)
        (left + 1 - (rangeOf cfg m (m.snAt cfg i) (left + 1)).count) (by rw [count]; omega)
        (room - nackSize cfg (rangeOf cfg m (m.snAt cfg i) (left + 1)))
      rw [← snAt_add] at later
      exact forall_mem_cons.mpr ⟨rangeOf_fits sound encodable offset here (Nat.succ_pos left), later⟩

end MissingData

def ShortOffsets (list : List Pdu) : Prop := ∀ pdu ∈ list, pdu.so + pdu.size ≤ soEndOfSdu

theorem ShortOffsets.raised {cur : Pdu} {rest : List Pdu} {maxSo : Nat} (short : ShortOffsets (cur :: rest))
    (bound : maxSo < soEndOfSdu) : max maxSo (cur.so + cur.size - 1) < soEndOfSdu := by
  have here := short cur mem_cons_self
  omega

namespace AmRx

theorem setEndDifferentSdu_soStart (sn : Int) (so : Nat) (cur : Pdu) (rest : List Pdu) :
    (rx.setEndDifferentSdu cfg sn so cur rest).soStart = so := by
  simp [AmRx.setEndDifferentSdu, apply_ite MissingData.soStart]

variable {cur : Pdu} {maxSo size : Nat} {lastReached checkHead : Bool} {rest list : List Pdu}

theorem missingStart_soStart (bound : maxSo < soEndOfSdu) (lastReached : Bool) :
    (missingStart cfg cur maxSo lastReached).2 ≤ soEndOfSdu := by
  unfold missingStart
  split
  · exact Nat.zero_le _
  · exact bound

theorem missingAfter_soStart {m : MissingData} (bound : maxSo < soEndOfSdu) (short : ShortOffsets (cur :: rest))
    (found : rx.missingAfter cfg maxSo lastReached cur rest = some m) : m.soStart ≤ soEndOfSdu := by
  induction rest generalizing cur maxSo lastReached with
  | nil =>
    have raised := short.raised bound
    unfold AmRx.missingAfter at found
    dsimp only at found
    split at found
    · cases found
      exact missingStart_soStart raised _
    · cases found
  | cons next rest ih =>
    have raised := short.raised bound
    have later : ShortOffsets (next :: rest) := (forall_mem_cons.mp short).2
    unfold AmRx.missingAfter at found
    dsimp only at found
    split at found
    · exact ih raised later found
    split at found
    · exact ih (by decide) later found
    split at found
    · split at found
      · cases found
        exact raised
      · cases found
    · split at found
      · cases found
        rw [setEndDifferentSdu_soStart]
        exact missingStart_soStart raised _
      · cases found

theorem nextMissing_soStart {m : MissingData}
    (short : ShortOffsets (cur :: rest)) (found : rx.nextMissing cfg cur rest checkHead = some m) :
    m.soStart ≤ soEndOfSdu := by
  unfold AmRx.nextMissing at found
  split at found
  · split at found
    · cases found
      rw [setEndDifferentSdu_soStart]
      exact Nat.zero_le _
    · cases found
  · exact missingAfter_soStart (by decide) short found

theorem planNacks_fits (ok : rx.ListOk cfg) (sound : cfg.Sound) (short : ShortOffsets rx.rxList) (fuel : Nat)
    (suffix : list <:+ rx.rxList) (checkHead : Bool) (room : Nat) :
    ∀ nack ∈ (rx.planNacks cfg fuel list checkHead room).nacks, nack.Fits cfg := by
  induction fuel generalizing list checkHead room with
  | zero =>
    exact forall_mem_nil _
  | succ fuel ih =>
    cases list with
    | nil =>
      exact forall_mem_nil _
    | cons cur rest =>
      have found := @nextMissing_found cfg rx (cur :: rest) cur rest checkHead ok sound suffix
        (suffix_cons cur rest) (fun _ => suffix_refl _)
      unfold AmRx.planNacks
      cases missing : rx.nextMissing cfg cur rest checkHead with
      | none =>
        exact forall_mem_nil _
      | some m =>
        rw [missing] at found
        have offset := nextMissing_soStart (fun pdu member => short pdu (suffix.subset member)) missing
        have part := found.encodable
        have first : ∀ nack ∈ (planMissing cfg m room).nacks, nack.Fits cfg := by
          have ranges := @MissingData.planRanges_fits cfg m sound part offset (m.snCount cfg) 0 (m.snCount cfg)
            (zero_add _) room
          have large := sound.modulus_large
          rwa [(MissingData.snAt_eq_start part (by omega)).mpr rfl] at ranges
        dsimp only
        split
        · exact first
        have later := ih (found.next_suffix.trans suffix) false (room - nackSizes cfg (planMissing cfg m room).nacks)
        exact forall_mem_append.mpr ⟨first, later⟩

theorem statusReport_readBack (ok : rx.ListOk cfg) (sound : cfg.Sound) (short : ShortOffsets rx.rxList)
    (room : 3 ≤ size) (behind : List Byte) :
    decodeStatusPdu cfg (rx.statusReport cfg size ++ behind) =
      some ⟨rx.plannedAckSn cfg (rx.statusPlan cfg size), (rx.statusPlan cfg size).entries.map asNack⟩ := by
  have large := sound.modulus_large
  have space : Within cfg.snModulus (rx.plannedAckSn cfg (rx.statusPlan cfg size)) := within_mod (by omega) _
  have fits : ∀ nack ∈ (rx.statusPlan cfg size).nacks, nack.Fits cfg :=
    planNacks_fits ok sound short _ (suffix_refl _) true _
  rw [statusReport_eq sound.admitted room,
    decodeStatusPdu_append sound.admitted (sound.toNat_lt space.1 space.2), ← readNacks, readNacks_wires _ fits,
    Int.toNat_of_nonneg space.1]

end AmRx

/-- The report for a buffer of `size` bytes is read back: nothing is written without room for three
bytes, and otherwise the peer decodes the planned ACK_SN and NACKs, and stops at the end of the report
whatever follows. -/
def AmEntity.ReadsBack (entity : AmEntity) (size : Nat) : Prop :=
  if size < 3 then (entity.rx.generateStatus entity.cfg entity.tCurrent size).1 = []
  else ∀ behind, decodeStatusPdu entity.cfg
      ((entity.rx.generateStatus entity.cfg entity.tCurrent size).1 ++ behind) =
    some ⟨entity.rx.plannedAckSn entity.cfg (entity.rx.statusPlan entity.cfg size),
      (entity.rx.statusPlan entity.cfg size).entries.map asNack⟩

/-- A data PDU that is accepted does not end behind byte 65534 of its SDU. -/
def AmOp.EndsInReach (entity : AmEntity) : AmOp → Prop
  | .data (.recvPdu buffer) => isDataPdu buffer = true → ∀ pdu ∈ decodeDataPdu entity.cfg buffer,
      entity.rx.accepts entity.cfg pdu = true → pdu.so + pdu.data.length ≤ soEndOfSdu
  | _ => True

def AmOp.InReach (entity : AmEntity) (op : AmOp) : Prop :=
  AmOp.KeepsLength entity op ∧ op.EndsInReach entity

structure AmEntity.RxShort (entity : AmEntity) : Prop where
  ok : entity.RxOk
  short : ShortOffsets entity.rx.rxList

theorem AmEntity.RxShort.step (entity : AmEntity) (op : AmOp) (next : AmEntity) (before : entity.RxShort)
    (reach : op.InReach entity) (taken : entity.step op = some next) : next.RxShort := by
  refine ⟨before.ok.step reach.1 taken, ?_⟩
  cases op with
  | data op =>
    obtain ⟨same, move, _⟩ := AmEntity.dataStep_moves taken
    intro pdu member
    rcases move.held member with ⟨old, listed, equal⟩ | ⟨buffer, data, rfl, isData, read, accepted, equal⟩
    · injection equal with _ so size
      rw [← so, ← size]
      exact before.short old listed
    · injection equal with _ so size
      rw [so, size]
      exact reach.2 isData data read accepted
  | reestablishment =>
    cases taken
    intro pdu member
    cases member
  | reconfigure params snFieldLength =>
    cases taken
    exact before.short

/-- In every run that keeps the SN field length and in which no accepted data PDU ends behind byte 65534 of its
SDU, all status reports are read back. -/
theorem status_report_read_back {rxMaxsize txMaxsize : Int} {params : AmParams} {snFieldLength : Nat}
    {entity : AmEntity} (created : newNrRlcEntityAm rxMaxsize txMaxsize params snFieldLength = some entity)
    (ops : List AmOp) (reach : Steps AmEntity.step (fun entity op => op.InReach entity) entity ops) :
    Along AmEntity.step (fun entity => ∀ size, entity.ReadsBack size) entity ops := by
  have start : entity.RxShort := by
    refine ⟨newNrRlcEntityAm_rxOk created, ?_⟩
    obtain ⟨_, rx, _, _⟩ := newNrRlcEntityAm_sound created
    rw [rx]
    intro pdu member
    cases member
  intro front inside middle reached size
  have short := invariant_along AmEntity.RxShort.step entity ops start reach front inside middle reached
  unfold AmEntity.ReadsBack AmRx.generateStatus
  split_ifs with room
  · rfl
  · exact fun behind => AmRx.statusReport_readBack short.ok.rx short.ok.sound short.short
      (Nat.le_of_not_lt room) behind

instance (entity : AmEntity) (op : AmOp) : Decidable (op.EndsInReach entity) :=
  match op with
  | .data (.recvPdu buffer) => inferInstanceAs (Decidable (isDataPdu buffer = true →
      ∀ pdu ∈ decodeDataPdu entity.cfg buffer,
        entity.rx.accepts entity.cfg pdu = true → pdu.so + pdu.data.length ≤ soEndOfSdu))
  | .data (.recvSdu _ _) | .data (.discardSdu _) | .data (.generatePdu _) | .data (.setTime _)
  | .reestablishment | .reconfigure _ _ => isTrue trivial

instance (entity : AmEntity) (op : AmOp) : Decidable (AmOp.KeepsLength entity op) :=
  match op with
  | .reconfigure _ (some snFieldLength) => inferInstanceAs (Decidable (snFieldLength = entity.cfg.snFieldLength))
  | .reconfigure _ none | .data _ | .reestablishment => isTrue trivial

instance (entity : AmEntity) (op : AmOp) : Decidable (op.InReach entity) :=
  inferInstanceAs (Decidable (_ ∧ _))

theorem status_report_read_back_gaps :
    ∃ entity, newNrRlcEntityAm 100000 100000 defaultAmParams 12 = some entity ∧
      Along AmEntity.step (fun entity => ∀ size, entity.ReadsBack size) entity
        (gapsRun.map .data ++ [.reconfigure defaultAmParams (some 12), .reestablishment]) :=
  ⟨_, rfl, @status_report_read_back 100000 100000 defaultAmParams 12 _ rfl _
    (steps_of_check (by decide +kernel))⟩

/-- A segment of SDU 0 has its second byte at offset 65536. The NACK for what follows it is to start at
65537, and the peer reads 1. -/
theorem status_report_offset_wraps :
    ∃ start entity, newNrRlcEntityAm 100000 100000 defaultAmParams 12 = some start ∧ run AmEntity.dataStep start
        [.setTime 1, .recvPdu [0xB0, 0, 0xFF, 0xFF, 7, 8], .setTime 100] = some entity ∧
      (entity.rx.statusPlan entity.cfg 20).entries = [⟨0, 0, 0, 65534, 1⟩, ⟨0, 65537, 0, 65535, 1⟩] ∧
      decodeStatusPdu entity.cfg (entity.rx.generateStatus entity.cfg entity.tCurrent 20).1 =
        some ⟨1, [⟨0, 0, 65534, 1⟩, ⟨0, 1, -1, 1⟩]⟩ ∧ ¬ entity.ReadsBack 20 := by
  refine reached_of_check (fun entity =>
    (entity.rx.statusPlan entity.cfg 20).entries = [⟨0, 0, 0, 65534, 1⟩, ⟨0, 65537, 0, 65535, 1⟩] ∧
      decodeStatusPdu entity.cfg (entity.rx.generateStatus entity.cfg entity.tCurrent 20).1 =
        some ⟨1, [⟨0, 0, 65534, 1⟩, ⟨0, 1, -1, 1⟩]⟩) (by decide +kernel) ?_
  intro entity ⟨planned, read⟩
  refine ⟨planned, read, ?_⟩
  intro readsBack
  have same := readsBack []
  rw [append_nil, read, planned] at same
  have nacks : ([⟨0, 0, 65534, 1⟩, ⟨0, 1, -1, 1⟩] : List Nack) =
      [⟨0, 0, 0, 65534, 1⟩, ⟨0, 65537, 0, 65535, 1⟩].map asNack :=
    congrArg StatusPdu.nacks (Option.some.inj same)
  exact absurd nacks (by decide)

end OranSlice.Rlc
