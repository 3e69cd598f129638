import OranSlice.Rlc.UmTimer

/-! The sizes that a UM entity keeps of its two lists. -/

namespace OranSlice.Rlc

open BitCodec Runs Totals

def pduSizes (list : List Pdu) : Int := total (fun pdu => (pdu.size : Int)) list

theorem pduSizes_eq_zero_iff {list : List Pdu} : pduSizes list = 0 ↔ ∀ pdu ∈ list, pdu.size = 0 := by
  rw [pduSizes, total_eq_zero_iff (fun pdu _ => Int.natCast_nonneg pdu.size)]
  simp

theorem pduSizes_consume (sn : Int) (list : List Pdu) :
    pduSizes (consume UmEntity.freePdu sn list) = pduSizes list - consumedSize sn list := by
  induction list with
  | nil => rfl
  | cons pdu rest ih =>
    unfold consume consumedSize
    split
    · rw [sub_zero]
    have freed : ((UmEntity.freePdu pdu).size : Int) = 0 := rfl
    unfold pduSizes at ih ⊢
    rw [total_cons, total_cons]
    omega

namespace UmEntity

variable {entity next : UmEntity}

structure Balanced (entity : UmEntity) : Prop where
  tx : entity.txSize = segmentSizes entity.txList
  status : entity.bstatusTxSize = entity.announced entity.txList
  rx : entity.rxSize = pduSizes entity.rxList
  sduRefused : ∀ buffer : List Byte, entity.txMaxsize < entity.txSize + buffer.length →
    entity.txMaxsize < segmentSizes entity.txList + buffer.length
  pduRefused : ∀ pdu : DataPdu, entity.rxMaxsize < entity.rxSize + pdu.data.length →
    entity.rxMaxsize < pduSizes entity.rxList + pdu.data.length

theorem balanced_iff : entity.Balanced ↔ entity.txSize = segmentSizes entity.txList ∧
    entity.bstatusTxSize = entity.announced entity.txList ∧ entity.rxSize = pduSizes entity.rxList := by
  constructor
  · exact fun balanced => ⟨balanced.tx, balanced.status, balanced.rx⟩
  · intro sizes
    obtain ⟨tx, status, rx⟩ := sizes
    exact ⟨tx, status, rx, fun _ full => tx ▸ full, fun _ full => rx ▸ full⟩

theorem SameTx.announced (same : entity.SameTx next) : next.announced next.txList = entity.announced entity.txList := by
  rw [same.list, announced_congr same.length]

theorem balanced_of_sameTx (balanced : entity.Balanced) (same : entity.SameTx next) :
    next.Balanced ↔ next.rxSize = pduSizes next.rxList := by
  rw [balanced_iff]
  constructor
  · exact fun sizes => sizes.2.2
  · intro rx
    refine ⟨?_, ?_, rx⟩
    · rw [same.size, same.list, balanced.tx]
    · rw [same.status, same.announced, balanced.status]

theorem balanced_of_sameRx (balanced : entity.Balanced) (same : entity.SameRx next) :
    next.Balanced ↔ next.txSize = segmentSizes next.txList ∧ next.bstatusTxSize = next.announced next.txList := by
  rw [balanced_iff]
  constructor
  · exact fun sizes => ⟨sizes.1, sizes.2.1⟩
  · intro sizes
    refine ⟨sizes.1, sizes.2, ?_⟩
    rw [same.size, same.list, balanced.rx]

theorem recvSdu_balanced {buffer : List Byte} {sduId : Int} (balanced : entity.Balanced)
    (taken : entity.recvSdu buffer sduId = some next) : next.Balanced := by
  rw [balanced_of_sameRx balanced (SameRx.recvSdu taken)]
  unfold recvSdu at taken
  split at taken
  · cases taken
  split at taken
  · cases taken
    exact ⟨balanced.tx, balanced.status⟩
  cases taken
  constructor
  · simp [segmentSizes, balanced.tx, nrRlcNewSdu]
  · simp [announced, balanced.status, computePduHeaderSize]

theorem generatePdu_balanced_iff (balanced : entity.Balanced) (size : Nat) :
    (entity.generatePdu size).2.Balanced ↔ ¬ entity.StrandsHead size := by
  rw [balanced_of_sameRx balanced (SameRx.generatePdu entity size)]
  constructor
  · intro sizes strands
    obtain ⟨segment, rest, head, data, made⟩ := generatePdu_strands strands
    have before := balanced.tx
    rw [head, segmentSizes, total_cons] at before
    rw [made] at sizes
    have after : entity.txSize = total (fun segment => (segment.size : Int)) rest := sizes.1
    omega
  · intro kept
    have made := entity.generates size
    generalize entity.generatePdu size = result at made
    cases made with
    | nothing => exact ⟨balanced.tx, balanced.status⟩
    | strand segment rest head strands => exact absurd strands kept
    | send segment rest head sent left cut =>
      obtain ⟨length, list, status, txSize⟩ := sendSegment_tx (entity.takeOff segment left rest) sent
      have sizes := cut.sizes
      have before := balanced.tx
      have announcedBefore := balanced.status
      rw [head, segmentSizes, total_cons] at before
      rw [head, announced, total_cons] at announcedBefore
      constructor
      · rw [list, txSize]
        change entity.txSize - sent.size = segmentSizes (left ++ rest)
        unfold segmentSizes at sizes ⊢
        rw [total_append]
        omega
      · rw [list, status, announced_congr length]
        change entity.bstatusTxSize - _ + entity.announced left = entity.announced (left ++ rest)
        unfold announced
        rw [total_append]
        omega

theorem discardSdu_balanced_iff (balanced : entity.Balanced) (sduId : Int) :
    (entity.discardSdu sduId).Balanced ↔
      ∀ segment ∈ entity.txList.find? (fun segment => segment.sdu.upperLayerId == sduId),
        segment.isFirst = true → segment.isLast = true → segment.size = 0 := by
  rw [balanced_of_sameRx balanced (SameRx.discardSdu entity sduId)]
  unfold discardSdu
  split
  · rename_i absent
    simp only [absent, Option.mem_def, reduceCtorEq, false_implies, implies_true, iff_true]
    exact ⟨balanced.tx, balanced.status⟩
  rename_i segment found
  simp only [found, Option.mem_def, Option.some.injEq, forall_eq']
  split_ifs with whole
  · rw [Bool.and_eq_true] at whole
    have before := balanced.tx
    have announcedBefore := balanced.status
    rw [segmentSizes, total_eraseP found] at before
    rw [announced, total_eraseP found] at announcedBefore
    constructor
    · intro sizes _ _
      have after := sizes.1
      unfold segmentSizes at after
      dsimp only at after
      omega
    · intro empty
      have none_ := empty whole.1 whole.2
      refine ⟨?_, ?_⟩
      · unfold segmentSizes
        dsimp only
        omega
      · change entity.bstatusTxSize - _ = entity.announced _
        unfold announced
        push_cast at announcedBefore ⊢
        omega
  · refine ⟨fun _ isFirst isLast => ?_, fun _ => ⟨balanced.tx, balanced.status⟩⟩
    rw [isFirst, isLast] at whole
    exact absurd rfl whole

theorem RxMoves.sizes (sizes : entity.rxSize = pduSizes entity.rxList) (moves : entity.RxMoves next) :
    next.rxSize = pduSizes next.rxList := by
  induction moves with
  | refl => exact sizes
  | @tail middle _ _ move sizes =>
    cases move with
    | store _ =>
      unfold withPdu pduSizes nrRlcPduListAdd at *
      rw [total_perm (List.perm_orderedInsert _ _ _), sizes]
      exact add_comm _ _
    | deliver x =>
      have parts : pduSizes middle.rxList = pduSizes (middle.rxList.takeWhile (fun l => l.sn != x)) +
          pduSizes (fromSn x middle.rxList) := total_parts _ _
      have delivered := pduSizes_consume x (fromSn x middle.rxList)
      unfold reassembleAndDeliver pduSizes at *
      dsimp only
      rw [total_append]
      omega
    | discard =>
      unfold discardOutside
      rw [sizes, pduSizes, total_parts]
      exact add_sub_cancel_left _ _
    | _ => exact sizes

theorem recvPdu_balanced (balanced : entity.Balanced) (buffer : List Byte) :
    (entity.recvPdu buffer).1.Balanced := by
  have moves := recvPdu_rxMoves entity buffer
  rw [balanced_of_sameTx balanced (SameTx.moves moves)]
  exact moves.sizes balanced.rx

def discardedAtExpiry (entity : UmEntity) : List Pdu :=
  entity.rxList.takeWhile (fun pdu => decide (entity.snCompareRx pdu.sn entity.firstUndelivered < 0))

theorem setTime_balanced_iff (balanced : entity.Balanced) (now : Nat) :
    (entity.setTime now).Balanced ↔ (timerExpired now entity.tReassemblyStart entity.tReassembly = true →
      ∀ pdu ∈ entity.discardedAtExpiry, pdu.size = 0) := by
  rw [balanced_of_sameTx balanced (SameTx.setTime entity now)]
  cases expired : timerExpired now entity.tReassemblyStart entity.tReassembly with
  | false =>
    rw [setTime_running expired]
    exact iff_of_true balanced.rx (fun never => absurd never (by decide))
  | true =>
    have parts : pduSizes entity.rxList =
        pduSizes entity.discardedAtExpiry + pduSizes (entity.afterExpiry now).rxList := total_parts _ _
    have after : (entity.setTime now).rxSize = entity.rxSize ∧
        (entity.setTime now).rxList = (entity.afterExpiry now).rxList := by
      rw [setTime_expired expired]
      split <;> exact ⟨rfl, rfl⟩
    have before := balanced.rx
    rw [after.2, ← pduSizes_eq_zero_iff]
    constructor
    · omega
    · intro empty
      have nothing := empty rfl
      omega

end UmEntity

/-- What is removed without being taken off a size: a discarded SDU, an SDU stranded by a grant of two
bytes, and PDUs discarded at the expiry of `t_reassembly`. -/
def UmOp.Settles (entity : UmEntity) : UmOp → Prop
  | .discardSdu sduId =>
    ∀ segment ∈ entity.txList.find? (fun segment => segment.sdu.upperLayerId == sduId),
      segment.isFirst = true → segment.isLast = true → segment.size = 0
  | .generatePdu size => ¬ entity.StrandsHead size
  | .setTime now => timerExpired now entity.tReassemblyStart entity.tReassembly = true →
      ∀ pdu ∈ entity.discardedAtExpiry, pdu.size = 0
  | _ => True

def UmOp.OfTraffic : UmOp → Prop
  | .reconfigure _ _ => False
  | _ => True

theorem UmEntity.step_balanced_iff {entity next : UmEntity} {op : UmOp} (balanced : entity.Balanced)
    (traffic : op.OfTraffic) (taken : entity.step op = some next) : next.Balanced ↔ op.Settles entity := by
  cases op with
  | recvSdu buffer sduId => exact iff_of_true (recvSdu_balanced balanced taken) trivial
  | discardSdu sduId =>
    cases taken
    exact discardSdu_balanced_iff balanced sduId
  | generatePdu size =>
    cases taken
    exact generatePdu_balanced_iff balanced size
  | recvPdu buffer =>
    cases taken
    exact iff_of_true (recvPdu_balanced balanced buffer) trivial
  | setTime now =>
    cases taken
    exact setTime_balanced_iff balanced now
  | reestablishment =>
    cases taken
    exact iff_of_true (balanced_iff.mpr ⟨rfl, rfl, rfl⟩) trivial
  | reconfigure tReassembly snFieldLength => exact traffic.elim

/-- The sizes are those of the lists in all states of a run exactly when each step takes what it removes
off them. -/
theorem um_accounts_exact_iff {rxMaxsize txMaxsize : Int} {tReassembly snFieldLength : Nat} {entity : UmEntity}
    (created : newNrRlcEntityUm rxMaxsize txMaxsize tReassembly snFieldLength = some entity) (ops : List UmOp)
    (traffic : ∀ op ∈ ops, op.OfTraffic) :
    Along UmEntity.step UmEntity.Balanced entity ops ↔
      Steps UmEntity.step (fun entity op => op.Settles entity) entity ops := by
  have start : entity.Balanced := by
    unfold newNrRlcEntityUm at created
    split at created
    · cases created
      exact UmEntity.balanced_iff.mpr ⟨rfl, rfl, rfl⟩
    · cases created
  have legal : Steps UmEntity.step (fun _ op => op.OfTraffic) entity ops := by
    intro front op inside middle next reached taken
    exact traffic op (inside.subset (List.mem_append_right front List.mem_cons_self))
  exact along_iff_steps_within (fun _ _ _ _ _ _ => trivial)
    (fun _ _ _ _ balanced traffic taken => UmEntity.step_balanced_iff balanced traffic taken)
    entity ops trivial start legal

instance (entity : UmEntity) (size : Nat) : Decidable (entity.StrandsHead size) :=
  inferInstanceAs (Decidable (_ ∧ _ ∧ ∃ segment ∈ entity.txList.head?, _))

instance (entity : UmEntity) (op : UmOp) : Decidable (op.Settles entity) :=
  match op with
  | .discardSdu sduId => inferInstanceAs (Decidable
      (∀ segment ∈ entity.txList.find? (fun segment => segment.sdu.upperLayerId == sduId),
        segment.isFirst = true → segment.isLast = true → segment.size = 0))
  | .generatePdu size => inferInstanceAs (Decidable (¬ entity.StrandsHead size))
  | .setTime now => inferInstanceAs (Decidable (timerExpired now entity.tReassemblyStart entity.tReassembly = true →
      ∀ pdu ∈ entity.discardedAtExpiry, pdu.size = 0))
  | .recvPdu _ | .recvSdu _ _ | .reestablishment | .reconfigure _ _ => isTrue trivial

instance (op : UmOp) : Decidable op.OfTraffic :=
  match op with
  | .reconfigure _ _ => isFalse id
  | .recvPdu _ | .recvSdu _ _ | .discardSdu _ | .generatePdu _ | .setTime _ | .reestablishment => isTrue trivial

def settledOps : List UmOp :=
  [.recvSdu [1, 2, 3] 7, .generatePdu 4, .discardSdu 7, .generatePdu 5, .setTime 1, .recvPdu [0x40, 0, 8],
    .recvPdu [0x80, 0, 0, 1, 9]]

theorem um_accounts_settled :
    ∃ entity, newNrRlcEntityUm 10000000 10000000 10 12 = some entity ∧
      Along UmEntity.step UmEntity.Balanced entity settledOps :=
  ⟨_, rfl, (@um_accounts_exact_iff 10000000 10000000 10 12 _ rfl settledOps (by decide)).mpr
    (steps_of_check (by decide +kernel))⟩

def UmLeak (ops : List UmOp) (txSize rxSize : Int) : Prop :=
  ∃ start entity, newNrRlcEntityUm 10000000 10000000 10 12 = some start ∧
    run UmEntity.step start ops = some entity ∧ entity.txList = [] ∧ entity.rxList = [] ∧
    entity.txSize = txSize ∧ entity.rxSize = rxSize ∧ ¬ entity.Balanced

private theorem umLeak_of_check {ops : List UmOp} {txSize rxSize : Int} (leaks : txSize ≠ 0 ∨ rxSize ≠ 0)
    (reached : (newNrRlcEntityUm 10000000 10000000 10 12).bind (fun start =>
      (run UmEntity.step start ops).map (fun entity => decide (entity.txList = [] ∧ entity.rxList = [] ∧
        entity.txSize = txSize ∧ entity.rxSize = rxSize))) = some true) : UmLeak ops txSize rxSize := by
  refine reached_of_check _ reached ?_
  intro entity ⟨tx, rx, txSize_eq, rxSize_eq⟩
  refine ⟨tx, rx, txSize_eq, rxSize_eq, ?_⟩
  intro balanced
  have txBalance := balanced.tx
  have rxBalance := balanced.rx
  rw [tx, txSize_eq] at txBalance
  rw [rx, rxSize_eq] at rxBalance
  exact leaks.elim (fun other => other txBalance) (fun other => other rxBalance)

/-- An SDU is discarded; an SDU is stranded by a grant of two bytes; the first segment of SDU 0 is discarded
at the expiry of `t_reassembly`. -/
theorem um_accounts_leak :
    UmLeak [.recvSdu [1, 2, 3] 7, .discardSdu 7] 3 0 ∧ UmLeak [.recvSdu [1, 2, 3] 7, .generatePdu 2] 3 0 ∧
      UmLeak [.setTime 1, .recvPdu [0x40, 0, 8], .recvPdu [0xC0, 0, 0, 5, 9], .setTime 12] 0 2 :=
  ⟨umLeak_of_check (by decide) (by decide), umLeak_of_check (by decide) (by decide),
    umLeak_of_check (by decide) (by decide)⟩

end OranSlice.Rlc
