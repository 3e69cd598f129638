import OranSlice.Rlc.AmSnSpace
import OranSlice.Rlc.UmSides

/-! The SN arithmetic of AM and UM entities over whole runs. -/

namespace OranSlice.Rlc

open BitCodec Window Runs List

variable {m : Int}

structure UmEntity.InSpace (length : Nat) (m window : Int) (entity : UmEntity) : Prop where
  length : entity.snFieldLength = length
  modulus : entity.snModulus = m
  window : entity.windowSize = window
  nextHighest : Within m entity.rxNextHighest
  nextReassembly : Within m entity.rxNextReassembly
  timerTrigger : Within m entity.rxTimerTrigger
  next : Within m entity.txNext
  rxList : ListWithin m entity.rxList
  txList : ∀ segment ∈ entity.txList, segment.sn = -1 ∨ Within m segment.sn

theorem decodeSegment_spec {entity : UmEntity} {buffer : List Byte} {pdu : DataPdu}
    (read : entity.decodeSegment buffer = some pdu) :
    ∃ si stream, take? 2 (bytesToBits buffer) = some (si, stream) ∧ pdu.isFirst = (si &&& 2 == 0) ∧
      pdu.isLast = (si &&& 1 == 0) ∧ (pdu.isFirst = true ↔ pdu.so = 0) ∧ pdu.data ≠ [] ∧
      0 ≤ pdu.sn ∧ pdu.sn < 2 ^ entity.snFieldLength := by
  simp only [UmEntity.decodeSegment, Option.bind_eq_bind, Option.bind_eq_some_iff, Prod.exists] at read
  obtain ⟨si, stream, flags, r, rest, -, sn, rest, snRead, so, rest, soRead, made⟩ := read
  have snBound : (sn : Int) < 2 ^ entity.snFieldLength := by exact_mod_cast (take?_eq_some snRead).1
  split at made
  · cases made
  rename_i soFits
  split_ifs at made with nonempty
  cases made
  refine ⟨si, stream, flags, rfl, rfl, so_zero_iff (take?_eq_some soRead).1 soFits, ?_,
    Int.natCast_nonneg sn, snBound⟩
  intro empty
  exact nonempty (by simpa using congrArg length empty)

namespace UmEntity.InSpace

variable {length : Nat} {window : Int} {entity next : UmEntity}

section Receive

variable (positive : 0 < m) (inside : entity.InSpace length m window)

include positive inside

theorem mod (sn : Int) : Within m (sn % entity.snModulus) := by
  rw [inside.modulus]
  exact within_mod positive sn

theorem skipDelivered (fuel : Nat) {sn : Int} (start : Within m sn) :
    Within m (entity.skipDelivered fuel sn) := by
  induction fuel generalizing sn with
  | zero => exact start
  | succ fuel ih =>
    unfold UmEntity.skipDelivered
    split
    · exact ih (inside.mod positive _)
    · exact start

end Receive

theorem moves (positive : 0 < m) (power : m = 2 ^ length) (inside : entity.InSpace length m window)
    (moves : entity.RxMoves next) : next.InSpace length m window := by
  induction moves with
  | refl => exact inside
  | tail _ move inside =>
    cases move with
    | store read =>
      obtain ⟨_, _, _, _, _, _, _, fits⟩ := decodeSegment_spec read
      rw [inside.length, ← power] at fits
      exact { inside with rxList := inside.rxList.add _ fits }
    | deliver x => exact { inside with rxList := inside.rxList.consume UmEntity.freePdu (fun _ => rfl) x }
    | raise x => exact { inside with nextHighest := inside.mod positive _ }
    | discard => exact { inside with rxList := inside.rxList.sublist (dropWhile_sublist _) }
    | skip fuel start =>
      refine { inside with nextReassembly := inside.skipDelivered positive fuel ?_ }
      rcases start with same | ⟨y, same⟩
      · exact same ▸ inside.nextReassembly
      · exact same ▸ inside.mod positive y
    | stop => exact { inside with }
    | start => exact { inside with timerTrigger := inside.nextHighest }

theorem setTime (positive : 0 < m) (inside : entity.InSpace length m window) (now : Nat) :
    (entity.setTime now).InSpace length m window := by
  cases expired : timerExpired now entity.tReassemblyStart entity.tReassembly with
  | false =>
    rw [setTime_running expired]
    exact { inside with }
  | true =>
    have dropped : (entity.afterExpiry now).InSpace length m window :=
      { inside with
        nextReassembly := inside.skipDelivered positive _ inside.timerTrigger
        rxList := inside.rxList.sublist (dropWhile_sublist _) }
    rw [setTime_expired expired]
    split
    · exact { dropped with timerTrigger := dropped.nextHighest }
    · exact dropped

theorem recvSdu (inside : entity.InSpace length m window) {buffer : List Byte} {sduId : Int}
    (taken : entity.recvSdu buffer sduId = some next) : next.InSpace length m window := by
  unfold UmEntity.recvSdu at taken
  split at taken
  · cases taken
  split at taken
  · cases taken
    exact inside
  cases taken
  refine { inside with txList := ?_ }
  exact forall_mem_append.mpr ⟨inside.txList, forall_mem_singleton.mpr (.inl rfl)⟩

theorem discardSdu (inside : entity.InSpace length m window) (sduId : Int) :
    (entity.discardSdu sduId).InSpace length m window := by
  unfold UmEntity.discardSdu
  split
  · exact inside
  split
  · refine { inside with txList := ?_ }
    intro segment member
    exact inside.txList segment (eraseP_sublist.subset member)
  · exact inside

theorem sendSegment (positive : 0 < m) (inside : entity.InSpace length m window)
    (segment : SduSegment) : (entity.sendSegment segment).2.InSpace length m window := by
  unfold UmEntity.sendSegment
  split
  · exact { inside with next := inside.mod positive _ }
  · exact { inside with }

theorem generatePdu (positive : 0 < m) (inside : entity.InSpace length m window) (size : Nat) :
    (entity.generatePdu size).2.InSpace length m window := by
  unfold UmEntity.generatePdu
  split
  · exact inside
  rename_i segment rest same
  have left : ∀ other ∈ rest, other.sn = -1 ∨ Within m other.sn := by
    intro other member
    exact inside.txList other (by simp [same, member])
  split
  · exact inside
  dsimp only
  split
  · split
    · exact { inside with txList := left }
    rename_i sent remainder cut
    have sn : remainder.sn = entity.txNext := by
      unfold UmEntity.resegment at cut
      dsimp only at cut
      split_ifs at cut
      · cases cut
        rfl
    apply sendSegment positive
    refine { inside with txList := ?_ }
    intro other member
    rcases mem_cons.mp member with new | old
    · rw [new, sn]
      exact .inr inside.next
    · exact left other old
  · apply sendSegment positive
    exact { inside with txList := left }

theorem initial (positive : 0 < m) (entity : UmEntity) (same : entity.snFieldLength = length)
    (modulus : entity.snModulus = m) (size : entity.windowSize = window) :
    entity.reestablishment.InSpace length m window := by
  have zero : Within m 0 := ⟨le_rfl, positive⟩
  refine ⟨same, modulus, size, zero, zero, zero, zero, ?_, ?_⟩
  all_goals
    exact forall_mem_nil _

theorem step (positive : 0 < m) (modulus : m = 2 ^ length) (inside : entity.InSpace length m window)
    {op : UmOp} (data : ∀ tReassembly snFieldLength, op ≠ .reconfigure tReassembly snFieldLength)
    (taken : entity.step op = some next) : next.InSpace length m window := by
  cases op with
  | recvSdu buffer sduId => exact inside.recvSdu taken
  | discardSdu sduId =>
    cases taken
    exact inside.discardSdu sduId
  | generatePdu size =>
    cases taken
    exact inside.generatePdu positive size
  | recvPdu buffer =>
    cases taken
    exact inside.moves positive modulus (recvPdu_rxMoves entity buffer)
  | setTime now =>
    cases taken
    exact inside.setTime positive now
  | reestablishment =>
    cases taken
    exact initial positive entity inside.length inside.modulus inside.window
  | reconfigure tReassembly snFieldLength => exact absurd rfl (data tReassembly snFieldLength)

end UmEntity.InSpace

structure SnSpace (snFieldLength : Nat) (snModulus windowSize : Int) (stored : List Int) : Prop where
  modulus : snModulus = 2 ^ snFieldLength
  window : windowSize = snModulus / 2
  inside : ∀ sn ∈ stored, Within snModulus sn
  lossless : ∀ sn ∈ stored, (value (bits snFieldLength sn.toNat) : Int) = sn

variable {stored : List Int} {list : List SduSegment} {first second snFieldLength tReassembly : Nat}
  {rxMaxsize txMaxsize : Int} {params : AmParams}

theorem SnSpace.of_inside {length : Nat} {window : Int} (modulus : m = 2 ^ length)
    (half : window = m / 2) (inside : ∀ sn ∈ stored, Within m sn) : SnSpace length m window stored := by
  refine ⟨modulus, half, inside, ?_⟩
  intro sn member
  obtain ⟨low, high⟩ := inside sn member
  have fits : sn.toNat < 2 ^ length := by
    rw [modulus, ← Int.toNat_of_nonneg low] at high
    exact_mod_cast high
  rw [value_bits, Nat.mod_eq_of_lt fits, Int.toNat_of_nonneg low]

def assignedSns (list : List SduSegment) : List Int :=
  (list.map SduSegment.sn).filter (fun sn => sn != -1)

def AmEntity.storedSns (entity : AmEntity) : List Int :=
  [entity.rx.rxNext, entity.rx.rxNextStatusTrigger, entity.rx.rxHighestStatus, entity.rx.rxNextHighest,
    entity.tx.txNext, entity.tx.txNextAck, entity.tx.pollSn] ++
    entity.rx.rxList.map Pdu.sn ++ assignedSns entity.tx.txList ++
    entity.tx.waitList.map SduSegment.sn ++ entity.tx.retransmitList.map SduSegment.sn

def UmEntity.storedSns (entity : UmEntity) : List Int :=
  [entity.rxNextHighest, entity.rxNextReassembly, entity.rxTimerTrigger, entity.txNext] ++
    entity.rxList.map Pdu.sn ++ assignedSns entity.txList

def AmEntity.HasSnSpace (entity : AmEntity) : Prop :=
  SnSpace entity.cfg.snFieldLength entity.cfg.snModulus entity.cfg.windowSize entity.storedSns

def UmEntity.HasSnSpace (entity : UmEntity) : Prop :=
  SnSpace entity.snFieldLength entity.snModulus entity.windowSize entity.storedSns

theorem assignedSns_within :
    (∀ sn ∈ assignedSns list, Within m sn) ↔ ∀ segment ∈ list, segment.sn = -1 ∨ Within m segment.sn := by
  simp only [assignedSns, mem_filter, mem_map, bne_iff_ne, and_imp,
    forall_exists_index, forall_apply_eq_imp_iff₂]
  constructor
  · intro inside segment member
    by_cases unassigned : segment.sn = -1
    · exact .inl unassigned
    · exact .inr (inside segment member unassigned)
  · intro inside segment member assigned
    exact (inside segment member).resolve_left assigned

theorem AmEntity.storedSns_within {entity : AmEntity} :
    (∀ sn ∈ entity.storedSns, Within entity.cfg.snModulus sn) ↔ entity.InSpace := by
  simp only [storedSns, forall_mem_append, forall_mem_cons, forall_mem_map,
    assignedSns_within, not_mem_nil, false_implies, implies_true, and_true]
  constructor
  · intro all
    obtain ⟨⟨⟨⟨⟨next, trigger, status, highest, txNext, ack, poll⟩, rxList⟩, txList⟩, wait⟩, retx⟩ := all
    exact ⟨⟨next, trigger, status, highest, rxList⟩, ⟨txNext, ack, poll, txList, wait, retx⟩⟩
  · intro inside
    obtain ⟨⟨next, trigger, status, highest, rxList⟩, ⟨txNext, ack, poll, txList, wait, retx⟩⟩ := inside
    exact ⟨⟨⟨⟨⟨next, trigger, status, highest, txNext, ack, poll⟩, rxList⟩, txList⟩, wait⟩, retx⟩

theorem UmEntity.storedSns_within {entity : UmEntity} :
    (∀ sn ∈ entity.storedSns, Within entity.snModulus sn) ↔
      entity.InSpace entity.snFieldLength entity.snModulus entity.windowSize := by
  simp only [storedSns, forall_mem_append, forall_mem_cons, forall_mem_map,
    assignedSns_within, not_mem_nil, false_implies, implies_true, and_true]
  constructor
  · intro all
    obtain ⟨⟨⟨highest, reassembly, trigger, next⟩, rxList⟩, txList⟩ := all
    exact ⟨rfl, rfl, rfl, highest, reassembly, trigger, next, rxList, txList⟩
  · intro inside
    exact ⟨⟨⟨inside.nextHighest, inside.nextReassembly, inside.timerTrigger, inside.next⟩,
      inside.rxList⟩, inside.txList⟩

def AmOp.KeepsLength (entity : AmEntity) : AmOp → Prop
  | .reconfigure _ (some snFieldLength) => snFieldLength = entity.cfg.snFieldLength
  | _ => True

def UmOp.KeepsLength (entity : UmEntity) : UmOp → Prop
  | .reconfigure _ (some snFieldLength) => snFieldLength = entity.snFieldLength
  | _ => True

theorem SnSpace.reconfigured {length : Nat} {window : Int} (good : SnSpace first m window stored) :
    SnSpace length m window stored ↔ length = first := by
  constructor
  · intro after
    have same := after.modulus.symm.trans good.modulus
    exact Nat.pow_right_injective le_rfl (by exact_mod_cast same)
  · intro same
    exact same ▸ good

theorem AmEntity.reconfigure_hasSnSpace {entity : AmEntity} (good : entity.HasSnSpace)
    (params : AmParams) (snFieldLength : Option Nat) :
    (entity.reconfigure params snFieldLength).HasSnSpace ↔
      AmOp.KeepsLength entity (.reconfigure params snFieldLength) := by
  cases snFieldLength with
  | none => exact iff_of_true good trivial
  | some length => exact good.reconfigured

theorem UmEntity.reconfigure_hasSnSpace {entity : UmEntity} (good : entity.HasSnSpace)
    (tReassembly : Nat) (snFieldLength : Option Nat) :
    (entity.reconfigure tReassembly snFieldLength).HasSnSpace ↔
      UmOp.KeepsLength entity (.reconfigure tReassembly snFieldLength) := by
  cases snFieldLength with
  | none => exact iff_of_true good trivial
  | some length => exact good.reconfigured

theorem AmEntity.step_hasSnSpace (entity : AmEntity) (op : AmOp) (next : AmEntity)
    (good : entity.HasSnSpace) (taken : entity.step op = some next) :
    next.HasSnSpace ↔ AmOp.KeepsLength entity op := by
  by_cases data : ∀ params snFieldLength, op ≠ .reconfigure params snFieldLength
  · have positive : 0 < entity.cfg.snModulus := by
      rw [good.modulus]
      exact Int.pow_pos (by decide)
    have inside := AmEntity.storedSns_within.mp good.inside
    obtain ⟨same, kept⟩ := inside.step positive good.modulus data taken
    have allowed : AmOp.KeepsLength entity op := by
      cases op with
      | reconfigure params snFieldLength => exact absurd rfl (data params snFieldLength)
      | _ => trivial
    refine iff_of_true ?_ allowed
    apply SnSpace.of_inside
    · rw [same]
      exact good.modulus
    · rw [same]
      exact good.window
    · exact AmEntity.storedSns_within.mpr kept
  · simp only [not_forall, not_not] at data
    obtain ⟨params, snFieldLength, rfl⟩ := data
    cases taken
    exact AmEntity.reconfigure_hasSnSpace good params snFieldLength

theorem UmEntity.step_hasSnSpace (entity : UmEntity) (op : UmOp) (next : UmEntity)
    (good : entity.HasSnSpace) (taken : entity.step op = some next) :
    next.HasSnSpace ↔ UmOp.KeepsLength entity op := by
  by_cases data : ∀ tReassembly snFieldLength, op ≠ .reconfigure tReassembly snFieldLength
  · have positive : 0 < entity.snModulus := by
      rw [good.modulus]
      exact Int.pow_pos (by decide)
    have inside := UmEntity.storedSns_within.mp good.inside
    have kept := inside.step positive good.modulus data taken
    have allowed : UmOp.KeepsLength entity op := by
      cases op with
      | reconfigure tReassembly snFieldLength => exact absurd rfl (data tReassembly snFieldLength)
      | _ => trivial
    refine iff_of_true ?_ allowed
    apply SnSpace.of_inside
    · rw [kept.modulus, kept.length]
      exact good.modulus
    · rw [kept.modulus, kept.window]
      exact good.window
    · apply UmEntity.storedSns_within.mpr
      rw [kept.modulus, kept.length, kept.window]
      exact kept
  · simp only [not_forall, not_not] at data
    obtain ⟨tReassembly, snFieldLength, rfl⟩ := data
    cases taken
    exact UmEntity.reconfigure_hasSnSpace good tReassembly snFieldLength

theorem newNrRlcEntityAm_hasSnSpace {entity : AmEntity}
    (created : newNrRlcEntityAm rxMaxsize txMaxsize params snFieldLength = some entity) :
    entity.HasSnSpace := by
  unfold newNrRlcEntityAm at created
  split at created
  · cases created
    apply SnSpace.of_inside rfl rfl
    exact AmEntity.storedSns_within.mpr (.initial (Int.pow_pos (by decide)) 0)
  · cases created

theorem newNrRlcEntityUm_hasSnSpace {entity : UmEntity}
    (created : newNrRlcEntityUm rxMaxsize txMaxsize tReassembly snFieldLength = some entity) :
    entity.HasSnSpace := by
  unfold newNrRlcEntityUm at created
  split at created
  · cases created
    apply SnSpace.of_inside rfl rfl
    exact UmEntity.storedSns_within.mpr (UmEntity.InSpace.initial (Int.pow_pos (by decide)) _ rfl rfl rfl)
  · cases created

/-- An entity of either kind has a consistent SN space throughout a run exactly when no reconfiguration
changes the SN field length. -/
theorem sn_space_iff {rxMaxsize txMaxsize : Int} {params : AmParams}
    {tReassembly amLength umLength : Nat} {am : AmEntity} {um : UmEntity}
    (amCreated : newNrRlcEntityAm rxMaxsize txMaxsize params amLength = some am)
    (umCreated : newNrRlcEntityUm rxMaxsize txMaxsize tReassembly umLength = some um)
    (amOps : List AmOp) (umOps : List UmOp) :
    (Along AmEntity.step AmEntity.HasSnSpace am amOps ↔ Steps AmEntity.step AmOp.KeepsLength am amOps) ∧
      (Along UmEntity.step UmEntity.HasSnSpace um umOps ↔
        Steps UmEntity.step UmOp.KeepsLength um umOps) := by
  constructor
  · exact along_iff_steps AmEntity.step_hasSnSpace am amOps (newNrRlcEntityAm_hasSnSpace amCreated)
  · exact along_iff_steps UmEntity.step_hasSnSpace um umOps (newNrRlcEntityUm_hasSnSpace umCreated)

def wideEntity : AmEntity where
  cfg := { tPollRetransmit := 45, tReassembly := 35, tStatusProhibit := 0, pollPdu := -1, pollByte := -1
           maxRetxThreshold := 8, snFieldLength := 18, snModulus := 2 ^ 18, windowSize := 2 ^ 18 / 2
           rxMaxsize := 100000, txMaxsize := 100000 }

/-- An AM entity that is reconfigured with its own length, and a UM entity that is reconfigured
without one. -/
theorem sn_space_same_length :
    newNrRlcEntityAm 100000 100000 defaultAmParams 18 = some wideEntity ∧
      Along AmEntity.step AmEntity.HasSnSpace wideEntity
        [.data (.recvSdu [7#8] 1), .reconfigure defaultAmParams (some 18), .data (.generatePdu 100)] ∧
      ∃ um, newNrRlcEntityUm 100000 100000 35 6 = some um ∧
        Along UmEntity.step UmEntity.HasSnSpace um [.recvSdu [7#8] 1, .reconfigure 40 none] := by
  have amCreated : newNrRlcEntityAm 100000 100000 defaultAmParams 18 = some wideEntity := rfl
  obtain ⟨um, umCreated⟩ : ∃ um, newNrRlcEntityUm 100000 100000 35 6 = some um := ⟨_, rfl⟩
  have both := sn_space_iff amCreated umCreated
    [.data (.recvSdu [7#8] 1), .reconfigure defaultAmParams (some 18), .data (.generatePdu 100)]
    [.recvSdu [7#8] 1, .reconfigure 40 none]
  refine ⟨amCreated, both.1.mpr ?_, um, umCreated, both.2.mpr ?_⟩
  · refine steps_cons.mpr (fun next taken => ⟨trivial, steps_cons.mpr (fun later changed => ⟨?_, ?_⟩)⟩)
    · cases taken
      rfl
    · exact steps_cons.mpr (fun last _ => ⟨trivial, steps_nil⟩)
  · exact steps_cons.mpr (fun next _ => ⟨trivial, steps_cons.mpr (fun later _ => ⟨trivial, steps_nil⟩)⟩)

/-- The default reconfiguration of an entity with SNs of 18 bits sets the length to 12 and
leaves the modulus at 2 ^ 18. -/
theorem sn_space_default_reconfigure :
    newNrRlcEntityAm 100000 100000 defaultAmParams 18 = some wideEntity ∧
      nrRlcReconfigureEntity wideEntity none = wideEntity.step (.reconfigure defaultAmParams (some 12)) ∧
      ¬ Along AmEntity.step AmEntity.HasSnSpace wideEntity
        [.reconfigure defaultAmParams (some 12)] := by
  refine ⟨rfl, rfl, ?_⟩
  intro all
  have after := along_final all (s := wideEntity) rfl
  have modulus := after.modulus
  revert modulus
  decide

end OranSlice.Rlc
