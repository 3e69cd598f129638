import OranSlice.Rlc.AmControl

/-! The transmitting side of an AM entity, and the entity as a whole. -/

namespace OranSlice.Rlc

open BitCodec

variable (cfg : AmConfig) (entity : AmEntity) (tCurrent : Nat) (buffer : List Byte) (tx : AmTx) (sduId : Int)
  (segment : SduSegment) (p : Bool) (rest : List SduSegment) (size : Nat)

def AmTx.isWindowStalling : Bool :=
  !(decide (tx.snCompareTx cfg tx.txNextAck tx.txNext ≤ 0) &&
    decide (tx.snCompareTx cfg tx.txNext ((tx.txNextAck + cfg.windowSize) % cfg.snModulus) < 0))

def AmTx.checkPollAfterPduAssembly : Bool :=
  (tx.txList.isEmpty && tx.retransmitList.isEmpty) || tx.isWindowStalling cfg

def AmTx.includePoll : AmTx :=
  { tx with
    pduWithoutPoll := 0
    byteWithoutPoll := 0
    pollSn := (tx.txNext - 1 + cfg.snModulus) % cfg.snModulus
    tPollRetransmitStart := tCurrent }

def pduHeader : List Bool :=
  [true, p, !segment.isFirst, !segment.isLast] ++ bits (if cfg.snFieldLength = 18 then 2 else 0) 0 ++
    bits cfg.snFieldLength segment.sn.toNat ++ bits (if segment.isFirst then 0 else 16) segment.so

def serializeSdu : List Byte :=
  bitsToBytes (pduHeader cfg segment p) ++ segment.bytes

def resegment (pduSize : Nat) : SduSegment × SduSegment :=
  let overSize := computePduHeaderSize cfg segment + segment.size - pduSize
  ({ segment with size := segment.size - overSize, isLast := false }, { segment with
      size := overSize, so := segment.so + (segment.size - overSize), isFirst := false })

def AmTx.countSegment : AmTx :=
  let counts := tx.counts segment.sdu.ident
  let counted := { counts with refCount := counts.refCount + 1 }
  { tx with counts := Function.update tx.counts segment.sdu.ident counted }

def AmTx.fitsAtEnd : Bool :=
  match tx.waitList.getLast? with
  | none => true
  | some last =>
    decide (tx.snCompareTx cfg segment.sn last.sn > 0) ||
      (decide (tx.snCompareTx cfg segment.sn last.sn = 0) && decide (segment.so > last.so))

/-- A sent segment goes into the wait list, with a look at its end first. -/
def AmTx.putInWaitList : AmTx :=
  { tx with
    waitList :=
      if tx.fitsAtEnd cfg segment then tx.waitList ++ [segment]
      else nrRlcSduSegmentListAdd (tx.snCompareTx cfg) tx.waitList segment }

def AmTx.sendWithPoll :
    List Byte × AmTx :=
  let p := p || tx.forcePoll
  let tx := { tx with forcePoll := false }
  (serializeSdu cfg segment p, if p then tx.includePoll cfg tCurrent else tx)

def AmTx.takeRetx : SduSegment × AmTx :=
  let pduSize := computePduHeaderSize cfg segment + segment.size
  let tx := { tx with retransmitList := rest, bstatusRetxSize := tx.bstatusRetxSize - pduSize }
  if pduSize > size then
    let (sent, left) := resegment cfg segment size
    (sent, { tx.countSegment segment with
      retransmitList := left :: rest
      bstatusRetxSize := tx.bstatusRetxSize + (computePduHeaderSize cfg left + left.size) })
  else (segment, tx)

def AmTx.generateRetxPdu :
    Option (List Byte × AmTx) :=
  match tx.retransmitList with
  | [] => none
  | segment :: rest =>
    if computePduHeaderSize cfg segment + 1 > size then none
    else
      let (segment, tx) := tx.takeRetx cfg segment rest size
      let tx := tx.putInWaitList cfg segment
      some (tx.sendWithPoll cfg tCurrent segment (tx.checkPollAfterPduAssembly cfg))

def AmTx.assignSn : SduSegment × AmTx :=
  if segment.sn = -1 then
    ({ segment with sn := tx.txNext }, { tx with txNext := (tx.txNext + 1) % cfg.snModulus })
  else (segment, tx)

def AmTx.takeTx : SduSegment × AmTx :=
  let pduSize := computePduHeaderSize cfg segment + segment.size
  let tx := { tx with txList := rest, bstatusTxSize := tx.bstatusTxSize - pduSize }
  let (segment, tx) := tx.assignSn cfg segment
  if pduSize > size then
    let (sent, left) := resegment cfg segment size
    (sent, { tx.countSegment segment with
      txList := left :: rest
      bstatusTxSize := tx.bstatusTxSize + (computePduHeaderSize cfg left + left.size) })
  else (segment, tx)

def AmTx.pollDue : Bool :=
  (cfg.pollPdu != -1 && decide (tx.pduWithoutPoll ≥ cfg.pollPdu)) ||
    (cfg.pollByte != -1 && decide (tx.byteWithoutPoll ≥ cfg.pollByte))

def AmTx.generateTxPdu :
    Option (List Byte × AmTx) :=
  if tx.isWindowStalling cfg then none
  else
    match tx.txList with
    | [] => none
    | segment :: rest =>
      if computePduHeaderSize cfg segment + 1 > size then none
      else
        let (segment, tx) := tx.takeTx cfg segment rest size
        let tx := tx.putInWaitList cfg segment
        let tx := { tx with
          pduWithoutPoll := tx.pduWithoutPoll + 1
          byteWithoutPoll := tx.byteWithoutPoll + segment.size }
        some (tx.sendWithPoll cfg tCurrent segment (tx.pollDue cfg || tx.checkPollAfterPduAssembly cfg))

/-- The next data PDU: a retransmission or new data; empty if there is none that fits. -/
def AmTx.generateDataPdu : List Byte × AmTx :=
  match tx.generateRetxPdu cfg tCurrent size with
  | some result => result
  | none =>
    match tx.generateTxPdu cfg tCurrent size with
    | some result => result
    | none => ([], tx)

def AmEntity.generatePdu : List Byte × AmEntity :=
  let (status, rx) := entity.rx.reportStatus entity.cfg entity.tCurrent size
  if !status.isEmpty then (status, { entity with rx := rx })
  else
    let (pdu, tx) := entity.tx.generateDataPdu entity.cfg entity.tCurrent size
    (pdu, { entity with rx := rx, tx := tx })

/-- An SDU that is too big ends the program; one that does not fit the buffer is rejected. -/
def AmEntity.recvSdu : Option AmEntity :=
  if buffer.length > nrSduMax then none
  else if entity.tx.txSize + buffer.length > entity.cfg.txMaxsize then some entity
  else
    let segment := nrRlcNewSdu entity.tx.created buffer sduId
    some { entity with tx := { entity.tx with
      txSize := entity.tx.txSize + buffer.length
      txList := entity.tx.txList ++ [segment]
      bstatusTxSize := entity.tx.bstatusTxSize +
        (computePduHeaderSize entity.cfg segment + segment.size)
      counts := Function.update entity.tx.counts entity.tx.created {}
      created := entity.tx.created + 1 } }

def AmEntity.recvPdu : AmEntity × List AmEvent :=
  match take? 1 (bytesToBits buffer) with
  | none => (entity, [])
  | some (dc, _) =>
    if dc = 0 then
      let (tx, events) := entity.tx.processControlPdu entity.cfg buffer
      ({ entity with tx := tx }, events)
    else
      let (rx, events) := entity.rx.recvDataPdu entity.cfg entity.tCurrent buffer
      ({ entity with rx := rx }, events)

/-- Expiry of `t_poll_retransmit`: all segments of the SDU at the head of the wait list are
retransmitted. The head is read without a check (`none`). -/
def AmTx.checkTPollRetransmit :
    Option (AmTx × List AmEvent) :=
  if !timerExpired tCurrent tx.tPollRetransmitStart cfg.tPollRetransmit then some (tx, [])
  else
    let tx := { tx with tPollRetransmitStart := 0, forcePoll := true }
    if !tx.checkPollAfterPduAssembly cfg then some (tx, [])
    else
      match tx.waitList with
      | [] => none
      | head :: _ =>
        let counts := tx.counts head.sdu.ident
        let counted := { counts with retxCount := counts.retxCount + 1 }
        let moved := tx.waitList.takeWhile (fun segment => segment.sn == head.sn)
        let tx := { tx with
          counts := Function.update tx.counts head.sdu.ident counted
          waitList := tx.waitList.dropWhile (fun segment => segment.sn == head.sn)
          bstatusRetxSize := tx.bstatusRetxSize +
            (moved.map (fun segment => ((computePduHeaderSize cfg segment + segment.size : Nat) : Int))).sum
          retransmitList := moved.foldl (nrRlcSduSegmentListAdd (tx.snCompareTx cfg)) tx.retransmitList }
        some (tx, if counted.retxCount ≥ cfg.maxRetxThreshold then [.maxRetxReached] else [])

def AmEntity.setTime (now : Nat) : Option (AmEntity × List AmEvent) :=
  match entity.tx.checkTPollRetransmit entity.cfg now with
  | none => none
  | some (tx, events) =>
    some ({ entity with
      tCurrent := now, tx := tx, rx := entity.rx.checkTReassembly entity.cfg now }, events)

def AmEntity.discardSdu : AmEntity :=
  match entity.tx.txList.find? (fun segment => segment.sdu.upperLayerId == sduId) with
  | none => entity
  | some segment =>
    if segment.isFirst && segment.isLast then
      { entity with tx := { entity.tx with
        txList := entity.tx.txList.eraseP (fun segment => segment.sdu.upperLayerId == sduId)
        bstatusTxSize := entity.tx.bstatusTxSize -
          (computePduHeaderSize entity.cfg segment + segment.size)
        txSize := entity.tx.txSize - segment.sdu.data.length } }
    else entity

end OranSlice.Rlc
