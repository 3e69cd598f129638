import OranSlice.Rlc.AmRun
import OranSlice.Rlc.PduCodec

/-! What an operation does to the two sides of an AM entity. -/

namespace OranSlice.Rlc

open BitCodec Window Relation

namespace AmRx

variable {cfg : AmConfig} {rx next : AmRx}

inductive Move (cfg : AmConfig) (rx : AmRx) : AmRx → Prop
  | raise (x : Int) : Move cfg rx { rx with rxNextHighest := (x + 1) % cfg.snModulus }
  | deliver (x : Int) (full : rx.sduFull x = true) : Move cfg rx (rx.reassembleAndDeliver x).1
  | skip (fuel : Nat) {sn : Int} (start : sn = rx.rxHighestStatus ∨ sn = rx.rxNextStatusTrigger) :
      Move cfg rx { rx with rxHighestStatus := rx.skipDelivered cfg fuel sn }
  | advance (fuel : Nat) : Move cfg rx { rx with
      rxNext := (Rlc.advance cfg fuel rx.rxNext rx.rxList).1
      rxList := (Rlc.advance cfg fuel rx.rxNext rx.rxList).2 }
  | trigger : Move cfg rx { rx with rxNextStatusTrigger := rx.rxNextHighest }
  | flags (triggered : Bool) (reassembly prohibit : Nat) : Move cfg rx { rx with
      statusTriggered := triggered, tReassemblyStart := reassembly, tStatusProhibitStart := prohibit }

abbrev Moves (cfg : AmConfig) : AmRx → AmRx → Prop := ReflTransGen (Move cfg)

theorem Moves.when (c : Prop) [Decidable c] (moves : Moves cfg rx next) : Moves cfg rx (if c then next else rx) := by
  split
  · exact moves
  · exact .refl

section

variable (rx : AmRx)

theorem start_moves (tCurrent : Nat) : Moves cfg rx
    { rx with tReassemblyStart := tCurrent, rxNextStatusTrigger := rx.rxNextHighest } :=
  (ReflTransGen.single (.flags rx.statusTriggered tCurrent rx.tStatusProhibitStart)).tail .trigger

theorem raiseNextHighest_moves (x : Int) : Moves cfg rx (rx.raiseNextHighest cfg x) :=
  .when _ (.single (.raise x))

theorem raiseHighestStatus_moves (x : Int) : Moves cfg rx (rx.raiseHighestStatus cfg x) :=
  .when _ (.single (.skip _ (.inl rfl)))

theorem raiseNext_moves (x : Int) : Moves cfg rx (rx.raiseNext cfg x) :=
  .when _ (.single (Move.advance (rx.rxList.length + 1)))

theorem updateTimer_moves (tCurrent : Nat) :
    Moves cfg rx ((rx.stopReassemblyTimer cfg).startReassemblyTimer cfg tCurrent) :=
  ReflTransGen.trans (Moves.when _ (.single (.flags rx.statusTriggered 0 rx.tStatusProhibitStart)))
    (Moves.when _ (start_moves _ tCurrent))

theorem receptionActions_moves (tCurrent : Nat) (x : Int) :
    Moves cfg rx (rx.receptionActions cfg tCurrent x).1 := by
  unfold receptionActions
  apply (raiseNextHighest_moves rx x).trans
  apply ReflTransGen.trans _ (updateTimer_moves _ tCurrent)
  split_ifs with full
  · exact (ReflTransGen.head (.deliver x full) (raiseHighestStatus_moves _ x)).trans (raiseNext_moves _ x)
  · exact .refl

theorem recvDataPdu_moves (tCurrent : Nat) (buffer : List Byte) :
    Moves cfg rx (rx.recvDataPdu cfg tCurrent buffer).1 ∨
      ∃ pdu, decodeDataPdu cfg buffer = some pdu ∧ rx.accepts cfg pdu = true ∧
        Moves cfg (rx.store cfg pdu) (rx.recvDataPdu cfg tCurrent buffer).1 := by
  have polled (after : AmRx) :
      Move cfg after { after with statusTriggered := after.statusTriggered || decodePoll buffer } :=
    .flags _ after.tReassemblyStart after.tStatusProhibitStart
  unfold recvDataPdu recvData
  dsimp only
  split
  · exact .inl (.single (polled rx))
  rename_i pdu read
  split_ifs with accepted
  · exact .inr ⟨pdu, read, accepted, (receptionActions_moves _ tCurrent pdu.sn).tail (polled _)⟩
  · exact .inl (.single (polled rx))

theorem checkTReassembly_moves (tCurrent : Nat) : Moves cfg rx (rx.checkTReassembly cfg tCurrent) := by
  unfold checkTReassembly
  split
  · exact .refl
  have expired : Moves cfg rx { rx with
      tReassemblyStart := 0
      rxHighestStatus := rx.skipDelivered cfg (rx.rxList.length + 1) rx.rxNextStatusTrigger
      statusTriggered := true } :=
    (ReflTransGen.single (.skip (rx.rxList.length + 1) (.inr rfl))).tail (.flags true 0 rx.tStatusProhibitStart)
  exact expired.trans (Moves.when _ (start_moves _ tCurrent))

theorem reportStatus_moves (tCurrent size : Nat) : Moves cfg rx (rx.reportStatus cfg tCurrent size).2 := by
  unfold reportStatus generateStatus
  split
  · split
    · exact .refl
    · exact .single (.flags false rx.tReassemblyStart tCurrent)
  · exact .refl

end

end AmRx

def isDataPdu (buffer : List Byte) : Bool :=
  match take? 1 (bytesToBits buffer) with
  | none => false
  | some (dc, _) => dc != 0

def receivedStatus (cfg : AmConfig) (buffer : List Byte) : Option StatusPdu :=
  match take? 1 (bytesToBits buffer) with
  | some (0, _) => decodeStatusPdu cfg buffer
  | _ => none

theorem receivedStatus_ackSn {cfg : AmConfig} {buffer : List Byte} {status : StatusPdu}
    (modulus : cfg.snModulus = 2 ^ cfg.snFieldLength) (received : status ∈ receivedStatus cfg buffer) :
    Within cfg.snModulus status.ackSn := by
  unfold receivedStatus at received
  split at received
  · rw [modulus]
    exact (decodeStatusPdu_spec received).1
  · cases received

namespace AmEntity

inductive RxMove (entity : AmEntity) : DataOp → AmRx → Prop
  | keep (op : DataOp) : entity.RxMove op entity.rx
  | data (buffer : List Byte) (isData : isDataPdu buffer = true) :
      entity.RxMove (.recvPdu buffer) (entity.rx.recvDataPdu entity.cfg entity.tCurrent buffer).1
  | status (size : Nat) :
      entity.RxMove (.generatePdu size) (entity.rx.reportStatus entity.cfg entity.tCurrent size).2
  | time (now : Nat) : entity.RxMove (.setTime now) (entity.rx.checkTReassembly entity.cfg now)

theorem RxMove.moves {entity : AmEntity} {op : DataOp} {after : AmRx} (move : entity.RxMove op after) :
    entity.rx.Moves entity.cfg after ∨ ∃ buffer pdu, op = .recvPdu buffer ∧ isDataPdu buffer = true ∧
      decodeDataPdu entity.cfg buffer = some pdu ∧ entity.rx.accepts entity.cfg pdu = true ∧
      (entity.rx.store entity.cfg pdu).Moves entity.cfg after := by
  cases move with
  | keep => exact .inl .refl
  | data buffer isData =>
    rcases entity.rx.recvDataPdu_moves entity.tCurrent buffer with moves | ⟨pdu, read, accepted, moves⟩
    · exact .inl moves
    · exact .inr ⟨buffer, pdu, rfl, isData, read, accepted, moves⟩
  | status size => exact .inl (entity.rx.reportStatus_moves entity.tCurrent size)
  | time now => exact .inl (entity.rx.checkTReassembly_moves now)

inductive TxMove (entity : AmEntity) : DataOp → AmTx → Prop
  | keep (op : DataOp) : entity.TxMove op entity.tx
  | enqueue (buffer : List Byte) (sduId : Int) :
      entity.TxMove (.recvSdu buffer sduId) { entity.tx with
        txSize := entity.tx.txSize + buffer.length
        txList := entity.tx.txList ++ [nrRlcNewSdu entity.tx.created buffer sduId]
        bstatusTxSize := entity.tx.bstatusTxSize +
          (computePduHeaderSize entity.cfg (nrRlcNewSdu entity.tx.created buffer sduId) +
            (nrRlcNewSdu entity.tx.created buffer sduId).size)
        counts := Function.update entity.tx.counts entity.tx.created {}
        created := entity.tx.created + 1 }
  | discard (sduId : Int) (segment : SduSegment)
      (found : entity.tx.txList.find? (fun segment => segment.sdu.upperLayerId == sduId) = some segment)
      (first : segment.isFirst = true) (last : segment.isLast = true) :
      entity.TxMove (.discardSdu sduId) { entity.tx with
        txList := entity.tx.txList.eraseP (fun segment => segment.sdu.upperLayerId == sduId)
        bstatusTxSize := entity.tx.bstatusTxSize - (computePduHeaderSize entity.cfg segment + segment.size)
        txSize := entity.tx.txSize - segment.sdu.data.length }
  | send (size : Nat) :
      entity.TxMove (.generatePdu size) (entity.tx.generateDataPdu entity.cfg entity.tCurrent size).2
  | report (buffer : List Byte) (status : StatusPdu) (received : status ∈ receivedStatus entity.cfg buffer)
      (admitted : entity.tx.admits entity.cfg status = true) :
      entity.TxMove (.recvPdu buffer) (entity.tx.processStatus entity.cfg status).1
  | time (now : Nat) (result : AmTx × List AmEvent)
      (polled : entity.tx.checkTPollRetransmit entity.cfg now = some result) : entity.TxMove (.setTime now) result.1

variable {entity next : AmEntity} {op : DataOp}

theorem recvPdu_moves (buffer : List Byte) : (entity.recvPdu buffer).1.cfg = entity.cfg ∧
    entity.RxMove (.recvPdu buffer) (entity.recvPdu buffer).1.rx ∧
    entity.TxMove (.recvPdu buffer) (entity.recvPdu buffer).1.tx := by
  unfold recvPdu
  split
  · exact ⟨rfl, .keep _, .keep _⟩
  rename_i dc stream read
  split_ifs with control
  · subst control
    refine ⟨rfl, .keep _, ?_⟩
    dsimp only
    unfold AmTx.processControlPdu
    split
    · exact .keep _
    rename_i status decoded
    split_ifs with admitted
    · refine .report buffer status ?_ admitted
      rw [receivedStatus, read]
      exact decoded
    · exact .keep _
  · refine ⟨rfl, .data buffer ?_, .keep _⟩
    simp [isDataPdu, read, control]

theorem generatePdu_moves (size : Nat) : (entity.generatePdu size).2.cfg = entity.cfg ∧
    entity.RxMove (.generatePdu size) (entity.generatePdu size).2.rx ∧
    entity.TxMove (.generatePdu size) (entity.generatePdu size).2.tx := by
  unfold generatePdu
  dsimp only
  split
  · exact ⟨rfl, .status size, .keep _⟩
  · exact ⟨rfl, .status size, .send size⟩

theorem dataStep_moves (taken : entity.dataStep op = some next) :
    next.cfg = entity.cfg ∧ entity.RxMove op next.rx ∧ entity.TxMove op next.tx := by
  obtain ⟨⟨after, output⟩, performed, rfl⟩ := Option.map_eq_some_iff.mp taken
  cases op with
  | recvSdu buffer sduId =>
    obtain ⟨received, accepted, same⟩ := Option.map_eq_some_iff.mp performed
    cases same
    unfold recvSdu at accepted
    split at accepted
    · cases accepted
    split at accepted
    · cases accepted
      exact ⟨rfl, .keep _, .keep _⟩
    · cases accepted
      exact ⟨rfl, .keep _, .enqueue buffer sduId⟩
  | discardSdu sduId =>
    cases performed
    unfold discardSdu
    split
    · exact ⟨rfl, .keep _, .keep _⟩
    rename_i segment found
    split_ifs with unsent
    · rw [Bool.and_eq_true] at unsent
      exact ⟨rfl, .keep _, .discard sduId segment found unsent.1 unsent.2⟩
    · exact ⟨rfl, .keep _, .keep _⟩
  | generatePdu size =>
    cases performed
    exact generatePdu_moves size
  | recvPdu buffer =>
    cases performed
    exact recvPdu_moves buffer
  | setTime now =>
    obtain ⟨result, timed, same⟩ := Option.map_eq_some_iff.mp performed
    cases same
    unfold setTime at timed
    split at timed
    · cases timed
    · rename_i polled
      cases timed
      exact ⟨rfl, .time now, .time now _ polled⟩

end AmEntity

end OranSlice.Rlc
