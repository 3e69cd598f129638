import OranSlice.Rlc.UmTransmit

/-! The two sides of a UM entity, reception and transmission, each of which leaves the other alone. -/

namespace OranSlice.Rlc

open BitCodec Relation

namespace UmEntity

variable {entity next : UmEntity}

abbrev withPdu (entity : UmEntity) (pdu : DataPdu) : UmEntity :=
  { entity with
    rxSize := entity.rxSize + pdu.data.length
    rxList := nrRlcPduListAdd entity.snCompareRx entity.rxList
      ⟨pdu.sn, pdu.so, pdu.data.length, pdu.isFirst, pdu.isLast, some pdu.data⟩ }

inductive RxMove (entity : UmEntity) : UmEntity → Prop
  | store {buffer : List Byte} {pdu : DataPdu} (read : entity.decodeSegment buffer = some pdu) :
      RxMove entity (entity.withPdu pdu)
  | deliver (x : Int) : RxMove entity (entity.reassembleAndDeliver x).1
  | raise (x : Int) : RxMove entity { entity with rxNextHighest := (x + 1) % entity.snModulus }
  | discard : RxMove entity entity.discardOutside
  | skip (fuel : Nat) {sn : Int} (start : sn = entity.rxNextReassembly ∨ ∃ y, sn = y % entity.snModulus) :
      RxMove entity { entity with rxNextReassembly := entity.skipDelivered fuel sn }
  | stop : RxMove entity { entity with tReassemblyStart := 0 }
  | start : RxMove entity
      { entity with tReassemblyStart := entity.tCurrent, rxTimerTrigger := entity.rxNextHighest }

abbrev RxMoves : UmEntity → UmEntity → Prop := ReflTransGen RxMove

theorem RxMove.when (c : Prop) [Decidable c] (move : entity.RxMove next) :
    entity.RxMoves (if c then next else entity) := by
  split
  · exact .single move
  · exact .refl

section

variable (entity : UmEntity)

theorem raiseNextReassembly_moves : entity.RxMoves entity.raiseNextReassembly :=
  (RxMove.skip _ (.inr ⟨_, rfl⟩)).when _

theorem deliver_moves (x : Int) : entity.RxMoves ((entity.reassembleAndDeliver x).1.afterDelivery x) :=
  (ReflTransGen.single (RxMove.deliver x)).trans ((RxMove.skip _ (.inl rfl)).when _)

theorem updateTimer_moves : entity.RxMoves entity.stopReassemblyTimer.startReassemblyTimer :=
  (RxMove.stop.when _).trans (RxMove.start.when _)

theorem recvPdu_moves (buffer : List Byte) : (entity.recvPdu buffer).1 = entity ∨
    ∃ stored, entity.RxMoves stored ∧
      (entity.recvPdu buffer).1 = stored.stopReassemblyTimer.startReassemblyTimer := by
  unfold recvPdu
  split
  · exact .inl rfl
  split
  · split <;> exact .inl rfl
  split
  · exact .inl rfl
  rename_i pdu read
  unfold recvSegment
  split
  · exact .inl rfl
  split
  · exact .inl rfl
  right
  unfold receptionActions
  refine ⟨_, .head (.store read) ?_, rfl⟩
  split
  · exact deliver_moves _ pdu.sn
  · unfold moveWindow
    split
    · exact ((ReflTransGen.single (RxMove.raise pdu.sn)).tail RxMove.discard).trans (raiseNextReassembly_moves _)
    · exact .refl

theorem recvPdu_rxMoves (buffer : List Byte) : entity.RxMoves (entity.recvPdu buffer).1 := by
  rcases recvPdu_moves entity buffer with same | ⟨stored, moves, made⟩
  · rw [same]
  · rw [made]
    exact moves.trans (updateTimer_moves stored)

end

def firstUndelivered (entity : UmEntity) : Int :=
  entity.skipDelivered (entity.rxList.length + 1) entity.rxTimerTrigger

def afterExpiry (entity : UmEntity) (now : Nat) : UmEntity :=
  { entity with
    tCurrent := now, tReassemblyStart := 0, rxNextReassembly := entity.firstUndelivered
    rxList := entity.rxList.dropWhile
      (fun pdu => decide (entity.snCompareRx pdu.sn entity.firstUndelivered < 0)) }

theorem skipDelivered_congr (modulus : next.snModulus = entity.snModulus) (list : next.rxList = entity.rxList)
    (fuel : Nat) (sn : Int) : next.skipDelivered fuel sn = entity.skipDelivered fuel sn := by
  induction fuel generalizing sn with
  | zero => rfl
  | succ fuel ih => rw [skipDelivered, skipDelivered, sduDelivered, sduDelivered, list, modulus, ih]

theorem setTime_running {now : Nat} (runs : timerExpired now entity.tReassemblyStart entity.tReassembly = false) :
    entity.setTime now = { entity with tCurrent := now } := by
  rw [setTime, checkTReassembly, runs]
  rfl

theorem setTime_expired {now : Nat} (expired : timerExpired now entity.tReassemblyStart entity.tReassembly = true) :
    entity.setTime now =
      if entity.snCompareRx entity.rxNextHighest ((entity.firstUndelivered + 1) % entity.snModulus) > 0 ∨
          (entity.rxNextHighest = entity.firstUndelivered + 1 ∧
            (entity.afterExpiry now).sduHasMissingBytes entity.firstUndelivered = true) then
        { entity.afterExpiry now with tReassemblyStart := now, rxTimerTrigger := entity.rxNextHighest }
      else entity.afterExpiry now := by
  have same : { entity with tCurrent := now }.skipDelivered (entity.rxList.length + 1) entity.rxTimerTrigger =
      entity.firstUndelivered := @skipDelivered_congr entity { entity with tCurrent := now } rfl rfl _ _
  rw [setTime, checkTReassembly]
  rw [expired, same]
  rfl

structure SameTx (entity next : UmEntity) : Prop where
  length : next.snFieldLength = entity.snFieldLength
  maxsize : next.txMaxsize = entity.txMaxsize
  list : next.txList = entity.txList
  size : next.txSize = entity.txSize
  status : next.bstatusTxSize = entity.bstatusTxSize

structure SameRx (entity next : UmEntity) : Prop where
  modulus : next.snModulus = entity.snModulus
  window : next.windowSize = entity.windowSize
  maxsize : next.rxMaxsize = entity.rxMaxsize
  highest : next.rxNextHighest = entity.rxNextHighest
  reassembly : next.rxNextReassembly = entity.rxNextReassembly
  trigger : next.rxTimerTrigger = entity.rxTimerTrigger
  start : next.tReassemblyStart = entity.tReassemblyStart
  list : next.rxList = entity.rxList
  size : next.rxSize = entity.rxSize

namespace SameTx

theorem refl (entity : UmEntity) : entity.SameTx entity := ⟨rfl, rfl, rfl, rfl, rfl⟩

theorem moves (moves : entity.RxMoves next) : entity.SameTx next := by
  induction moves with
  | refl => exact refl entity
  | tail _ move same =>
    cases move <;> exact { same with }

theorem setTime (entity : UmEntity) (now : Nat) : entity.SameTx (entity.setTime now) := by
  cases expired : timerExpired now entity.tReassemblyStart entity.tReassembly with
  | false =>
    rw [setTime_running expired]
    exact ⟨rfl, rfl, rfl, rfl, rfl⟩
  | true =>
    rw [setTime_expired expired]
    split <;> exact ⟨rfl, rfl, rfl, rfl, rfl⟩

end SameTx

namespace SameRx

theorem refl (entity : UmEntity) : entity.SameRx entity := ⟨rfl, rfl, rfl, rfl, rfl, rfl, rfl, rfl, rfl⟩

theorem recvSdu {buffer : List Byte} {sduId : Int} (taken : entity.recvSdu buffer sduId = some next) :
    entity.SameRx next := by
  unfold UmEntity.recvSdu at taken
  split at taken
  · cases taken
  · split at taken <;> cases taken <;> exact ⟨rfl, rfl, rfl, rfl, rfl, rfl, rfl, rfl, rfl⟩

theorem discardSdu (entity : UmEntity) (sduId : Int) : entity.SameRx (entity.discardSdu sduId) := by
  unfold UmEntity.discardSdu
  split
  · exact refl entity
  · split <;> exact ⟨rfl, rfl, rfl, rfl, rfl, rfl, rfl, rfl, rfl⟩

theorem sendSegment (entity : UmEntity) (segment : SduSegment) : entity.SameRx (entity.sendSegment segment).2 := by
  unfold UmEntity.sendSegment
  split <;> exact ⟨rfl, rfl, rfl, rfl, rfl, rfl, rfl, rfl, rfl⟩

theorem generatePdu (entity : UmEntity) (size : Nat) : entity.SameRx (entity.generatePdu size).2 := by
  have made := entity.generates size
  generalize entity.generatePdu size = result at made
  cases made with
  | nothing => exact refl entity
  | strand segment rest head strands => exact ⟨rfl, rfl, rfl, rfl, rfl, rfl, rfl, rfl, rfl⟩
  | send segment rest head sent left cut =>
    have sends := sendSegment (entity.takeOff segment left rest) sent
    exact { sends with }

end SameRx

end UmEntity

end OranSlice.Rlc
