import OranSlice.Rlc.AmReceive

/-! UM entities. The tests for full, delivered and incomplete SDUs are those of AM. -/

namespace OranSlice.Rlc

open BitCodec Window

structure UmEntity where
  (tReassembly snFieldLength : Nat)
  (snModulus windowSize rxMaxsize txMaxsize : Int)
  (rxNextHighest rxNextReassembly rxTimerTrigger txNext : Int := 0)
  (tCurrent tReassemblyStart : Nat := 0)
  rxList : List Pdu := []
  rxSize : Int := 0
  txList : List SduSegment := []
  (txSize bstatusTxSize : Int := 0)
  created : Nat := 0
deriving DecidableEq, Repr

def newNrRlcEntityUm (rxMaxsize txMaxsize : Int) (tReassembly snFieldLength : Nat) :
    Option UmEntity :=
  if snFieldLength = 6 ∨ snFieldLength = 12 then
    some {
      tReassembly := tReassembly
      snFieldLength := snFieldLength
      snModulus := 2 ^ snFieldLength
      windowSize := 2 ^ snFieldLength / 2
      rxMaxsize := rxMaxsize
      txMaxsize := txMaxsize }
  else none

namespace UmEntity

variable (entity : UmEntity) (segment : SduSegment) (a sn x : Int) (buffer : List Byte) (sduId : Int)

def reconfigure (tReassembly : Nat) (snFieldLength : Option Nat) : UmEntity :=
  { entity with
    tReassembly := tReassembly, snFieldLength := snFieldLength.getD entity.snFieldLength }

def reestablishment : UmEntity :=
  { entity with
    rxNextHighest := 0, rxNextReassembly := 0, rxTimerTrigger := 0, txNext := 0, tCurrent := 0
    tReassemblyStart := 0, rxList := [], rxSize := 0, txList := [], txSize := 0
    bstatusTxSize := 0 }

/-- A full SDU has no SN in its header. -/
def computePduHeaderSize : Nat :=
  1 + (if !(segment.isFirst && segment.isLast) && entity.snFieldLength == 12 then 1 else 0) +
    if segment.isFirst then 0 else 2

def modulusRx : Int :=
  distance entity.snModulus (entity.rxNextHighest - entity.windowSize) a % entity.snModulus

def snCompareRx (b : Int) : Int := entity.modulusRx a - entity.modulusRx b

def sduFull : Bool :=
  !isConsumed (fromSn sn entity.rxList) && fullFrom sn (fromSn sn entity.rxList) (-1)

def sduDelivered : Bool := isConsumed (fromSn sn entity.rxList)

def sduHasMissingBytes : Bool :=
  !isConsumed (fromSn sn entity.rxList) && missingFrom sn (fromSn sn entity.rxList) (-1)

def freePdu (pdu : Pdu) : Pdu := { pdu with data := none, size := 0 }

def reassembleAndDeliver : UmEntity × List AmEvent :=
  let before := entity.rxList.takeWhile (fun l => l.sn != sn)
  let list := fromSn sn entity.rxList
  let events :=
    match reassemble sn list (some []) with
    | none => []
    | some sdu => [.deliverSdu sdu]
  ({ entity with
      rxList := before ++ consume freePdu sn list
      rxSize := entity.rxSize - consumedSize sn list }, events)

def skipDelivered (entity : UmEntity) : Nat → Int → Int
  | 0, sn => sn
  | fuel + 1, sn =>
    if entity.sduDelivered sn then entity.skipDelivered fuel ((sn + 1) % entity.snModulus) else sn

def discardOutside : UmEntity :=
  let outside (pdu : Pdu) : Bool := decide (entity.snCompareRx pdu.sn entity.rxNextHighest ≥ 0)
  let discarded := (entity.rxList.takeWhile outside).map (fun pdu => (pdu.size : Int))
  { entity with
    rxList := entity.rxList.dropWhile outside, rxSize := entity.rxSize - discarded.sum }

def raiseNextReassembly : UmEntity :=
  let lowest := (entity.rxNextHighest - entity.windowSize + entity.snModulus) % entity.snModulus
  if entity.snCompareRx entity.rxNextReassembly entity.rxNextHighest ≥ 0 then
    { entity with rxNextReassembly := entity.skipDelivered (entity.rxList.length + 1) lowest }
  else entity

def moveWindow : UmEntity :=
  if entity.snCompareRx x entity.rxNextHighest ≥ 0 then
    { entity with
      rxNextHighest := (x + 1) % entity.snModulus }.discardOutside.raiseNextReassembly
  else entity

def afterDelivery : UmEntity :=
  if x = entity.rxNextReassembly then
    { entity with rxNextReassembly := entity.skipDelivered (entity.rxList.length + 1) entity.rxNextReassembly }
  else entity

def stopReassemblyTimer : UmEntity :=
  if entity.tReassemblyStart ≠ 0 ∧
      (entity.snCompareRx entity.rxTimerTrigger entity.rxNextReassembly ≤ 0 ∨
        entity.snCompareRx entity.rxTimerTrigger entity.rxNextHighest > 0 ∨
        (entity.rxNextHighest = (entity.rxNextReassembly + 1) % entity.snModulus ∧
          !entity.sduHasMissingBytes entity.rxNextReassembly)) then
    { entity with tReassemblyStart := 0 }
  else entity

def startReassemblyTimer : UmEntity :=
  let next := (entity.rxNextReassembly + 1) % entity.snModulus
  if entity.tReassemblyStart = 0 ∧
      (entity.snCompareRx entity.rxNextHighest next > 0 ∨
        (entity.rxNextHighest = next ∧ entity.sduHasMissingBytes entity.rxNextReassembly)) then
    { entity with tReassemblyStart := entity.tCurrent, rxTimerTrigger := entity.rxNextHighest }
  else entity

def receptionActions : UmEntity × List AmEvent :=
  let (entity, events) :=
    if entity.sduFull x then
      let (entity, events) := entity.reassembleAndDeliver x
      (entity.afterDelivery x, events)
    else (entity.moveWindow x, [])
  (entity.stopReassemblyTimer.startReassemblyTimer, events)

def decodeSegment : Option DataPdu := do
  let (si, stream) ← take? 2 (bytesToBits buffer)
  let isFirst := si &&& 2 == 0
  let isLast := si &&& 1 == 0
  let (_, stream) ← take? (if entity.snFieldLength = 12 then 2 else 0) stream
  let (sn, stream) ← take? entity.snFieldLength stream
  let (so, stream) ← take? (if isFirst then 0 else 16) stream
  if !isFirst && so == 0 then none
  else
    let data := buffer.drop ((8 * buffer.length - stream.length) / 8)
    if data.length = 0 then none else some ⟨false, isFirst, isLast, sn, so, data⟩

def recvSegment (pdu : DataPdu) : UmEntity × List AmEvent :=
  if entity.rxSize + pdu.data.length > entity.rxMaxsize then (entity, [])
  else if entity.snCompareRx pdu.sn entity.rxNextReassembly < 0 then (entity, [])
  else
    { entity with
      rxSize := entity.rxSize + pdu.data.length
      rxList := nrRlcPduListAdd entity.snCompareRx entity.rxList
        ⟨pdu.sn, pdu.so, pdu.data.length, pdu.isFirst, pdu.isLast, some pdu.data⟩ }.receptionActions
      pdu.sn

def recvPdu : UmEntity × List AmEvent :=
  match take? 2 (bytesToBits buffer) with
  | none => (entity, [])
  | some (si, _) =>
    if si = 0 then
      if buffer.length < 2 then (entity, []) else (entity, [.deliverSdu (buffer.drop 1)])
    else
      match entity.decodeSegment buffer with
      | none => (entity, [])
      | some pdu => entity.recvSegment pdu

def pduHeader : List Bool :=
  [!segment.isFirst, !segment.isLast] ++ (if segment.isFirst && segment.isLast then bits 6 0
    else bits (if entity.snFieldLength = 12 then 2 else 0) 0 ++
      bits entity.snFieldLength segment.sn.toNat) ++
    bits (if segment.isFirst then 0 else 16) segment.so

def resegment (pduSize : Nat) :
    Option (SduSegment × SduSegment) :=
  let headerSize := entity.computePduHeaderSize { segment with isLast := false }
  if headerSize + 1 > pduSize then none
  else
    let overSize := headerSize + segment.size - pduSize
    some ({ segment with size := segment.size - overSize, isLast := false }, { segment with
        size := overSize, so := segment.so + (segment.size - overSize), isFirst := false })

/-- The end of the construction of a PDU: the SN is used up by the last segment. -/
def sendSegment : List Byte × UmEntity :=
  let entity :=
    if !segment.isFirst && segment.isLast then
      { entity with txNext := (entity.txNext + 1) % entity.snModulus }
    else entity
  (bitsToBytes (entity.pduHeader segment) ++ segment.bytes,
    { entity with txSize := entity.txSize - segment.size })

/-- The next PDU. When there is no room for a segment of the SDU, the code returns nothing
but has already taken the SDU off the list. -/
def generatePdu (size : Nat) : List Byte × UmEntity :=
  match entity.txList with
  | [] => ([], entity)
  | segment :: rest =>
    if entity.computePduHeaderSize segment + 1 > size then ([], entity)
    else
      let pduSize := entity.computePduHeaderSize segment + segment.size
      let segment := { segment with sn := entity.txNext }
      let entity := { entity with
        txList := rest, bstatusTxSize := entity.bstatusTxSize - pduSize }
      if pduSize > size then
        match entity.resegment segment size with
        | none => ([], entity)
        | some (sent, left) =>
          { entity with
            txList := left :: rest
            bstatusTxSize := entity.bstatusTxSize +
              (entity.computePduHeaderSize left + left.size) }.sendSegment sent
      else entity.sendSegment segment

def recvSdu : Option UmEntity :=
  if buffer.length > nrSduMax then none
  else if entity.txSize + buffer.length > entity.txMaxsize then some entity
  else
    let segment := nrRlcNewSdu entity.created buffer sduId
    some { entity with
      txSize := entity.txSize + buffer.length
      txList := entity.txList ++ [segment]
      bstatusTxSize := entity.bstatusTxSize + (entity.computePduHeaderSize segment + segment.size)
      created := entity.created + 1 }

def discardOld : UmEntity :=
  { entity with
    rxList := entity.rxList.dropWhile
      (fun pdu => decide (entity.snCompareRx pdu.sn entity.rxNextReassembly < 0)) }

/-- Expiry of `t_reassembly`. The last test compares without the modulus. -/
def checkTReassembly : UmEntity :=
  if !timerExpired entity.tCurrent entity.tReassemblyStart entity.tReassembly then entity
  else
    let entity := { entity with
      tReassemblyStart := 0
      rxNextReassembly := entity.skipDelivered (entity.rxList.length + 1) entity.rxTimerTrigger }.discardOld
    if entity.snCompareRx entity.rxNextHighest
          ((entity.rxNextReassembly + 1) % entity.snModulus) > 0 ∨
        (entity.rxNextHighest = entity.rxNextReassembly + 1 ∧
          entity.sduHasMissingBytes entity.rxNextReassembly) then
      { entity with tReassemblyStart := entity.tCurrent, rxTimerTrigger := entity.rxNextHighest }
    else entity

def setTime (now : Nat) : UmEntity :=
  { entity with tCurrent := now }.checkTReassembly

def discardSdu : UmEntity :=
  match entity.txList.find? (fun segment => segment.sdu.upperLayerId == sduId) with
  | none => entity
  | some segment =>
    if segment.isFirst && segment.isLast then
      { entity with
        txList := entity.txList.eraseP (fun segment => segment.sdu.upperLayerId == sduId)
        bstatusTxSize := entity.bstatusTxSize -
          (entity.computePduHeaderSize segment + segment.size) }
    else entity

end UmEntity

inductive UmOp where
  | recvSdu (buffer : List Byte) (sduId : Int)
  | discardSdu (sduId : Int)
  | generatePdu (size : Nat)
  | recvPdu (buffer : List Byte)
  | setTime (now : Nat)
  | reestablishment
  | reconfigure (tReassembly : Nat) (snFieldLength : Option Nat)
deriving DecidableEq, Repr

def UmEntity.step (entity : UmEntity) : UmOp → Option UmEntity
  | .recvSdu buffer sduId => entity.recvSdu buffer sduId
  | .discardSdu sduId => some (entity.discardSdu sduId)
  | .generatePdu size => some (entity.generatePdu size).2
  | .recvPdu buffer => some (entity.recvPdu buffer).1
  | .setTime now => some (entity.setTime now)
  | .reestablishment => some entity.reestablishment
  | .reconfigure tReassembly snFieldLength => some (entity.reconfigure tReassembly snFieldLength)

end OranSlice.Rlc
