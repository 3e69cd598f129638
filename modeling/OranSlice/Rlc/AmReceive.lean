import OranSlice.Rlc.AmEntity

/-! The receiving side of an AM entity: storage, reassembly and delivery of data PDUs. -/

namespace OranSlice.Rlc

open BitCodec Window

variable (cfg : AmConfig) (tCurrent : Nat) (rx : AmRx) (buffer : List Byte) (sn a : Int) (pdu : DataPdu)
  (x : Int)

def AmRx.modulusRx : Int := distance cfg.snModulus rx.rxNext a

def AmRx.snInRecvWindow : Bool :=
  decide (rx.modulusRx cfg sn < cfg.windowSize)

def AmRx.snCompareRx (b : Int) : Int :=
  rx.modulusRx cfg a - rx.modulusRx cfg b

/-- How many bytes of a segment are left when all that the listed PDUs cover at one of
its ends is taken off, in the order of the list. -/
def sizeLeft (sn : Int) : List Pdu → Int → Int → Int
  | [], _, size => size
  | l :: rest, so, size =>
    if size ≤ 0 then size
    else if l.sn ≠ sn then sizeLeft sn rest so size
    else if l.so ≤ so ∧ so < l.so + l.size then
      let covered := l.size - (so - l.so)
      sizeLeft sn rest (so + covered) (size - covered)
    else if l.so ≤ so + size - 1 ∧ so + size - 1 < l.so + l.size then
      let covered := size - (l.so - so)
      sizeLeft sn rest so (size - covered)
    else sizeLeft sn rest so size

def AmRx.segmentAlreadyReceived (so size : Nat) : Bool :=
  decide (sizeLeft sn rx.rxList so size ≤ 0)

def fromSn (list : List Pdu) : List Pdu := list.dropWhile (fun l => l.sn != sn)

def isConsumed : List Pdu → Bool
  | [] => false
  | l :: _ => l.data.isNone

def fullFrom (sn : Int) : List Pdu → Int → Bool
  | [], _ => false
  | l :: rest, lastByte =>
    if l.sn ≠ sn then false
    else if l.so > lastByte + 1 then false
    else if l.isLast then true
    else fullFrom sn rest (max lastByte (l.so + l.size - 1))

def AmRx.sduFull : Bool :=
  !isConsumed (fromSn sn rx.rxList) && fullFrom sn (fromSn sn rx.rxList) (-1)

def AmRx.sduDelivered : Bool := isConsumed (fromSn sn rx.rxList)

def missingFrom (sn : Int) : List Pdu → Int → Bool
  | [], _ => false
  | l :: rest, lastByte =>
    if l.sn ≠ sn then false
    else if l.so > lastByte + 1 then true
    else missingFrom sn rest (max lastByte (l.so + l.size - 1))

def AmRx.sduHasMissingBytes : Bool :=
  !isConsumed (fromSn sn rx.rxList) && missingFrom sn (fromSn sn rx.rxList) (-1)

/-- The SDU buffer after the PDUs of an SN, or `none` once it is too big. -/
def reassemble (sn : Int) : List Pdu → Option (List Byte) → Option (List Byte)
  | [], sdu => sdu
  | pdu :: rest, sdu =>
    if pdu.sn ≠ sn then sdu
    else
      let sdu := sdu.bind (fun buffer =>
        let len : Int := pdu.size - (buffer.length - pdu.so)
        if buffer.length + len > nrSduMax then none
        else
          some (buffer ++ ((pdu.data.getD []).drop (buffer.length - pdu.so)).take len.toNat))
      reassemble sn rest sdu

def consume (free : Pdu → Pdu) (sn : Int) : List Pdu → List Pdu
  | [] => []
  | pdu :: rest => if pdu.sn ≠ sn then pdu :: rest else free pdu :: consume free sn rest

def freeData (pdu : Pdu) : Pdu := { pdu with data := none }

def consumedSize (sn : Int) : List Pdu → Int
  | [] => 0
  | pdu :: rest => if pdu.sn ≠ sn then 0 else pdu.size + consumedSize sn rest

def AmRx.reassembleAndDeliver : AmRx × List AmEvent :=
  let before := rx.rxList.takeWhile (fun l => l.sn != sn)
  let list := fromSn sn rx.rxList
  let events :=
    match reassemble sn list (some []) with
    | none => []
    | some sdu => [.deliverSdu sdu]
  ({ rx with
      rxList := before ++ consume freeData sn list, rxSize := rx.rxSize - consumedSize sn list }, events)

/-- The first SN from `sn` on that has not been delivered; `fuel` bounds the steps. -/
def AmRx.skipDelivered (cfg : AmConfig) (rx : AmRx) : Nat → Int → Int
  | 0, sn => sn
  | fuel + 1, sn =>
    if rx.sduDelivered sn then rx.skipDelivered cfg fuel ((sn + 1) % cfg.snModulus) else sn

def advance (cfg : AmConfig) : Nat → Int → List Pdu → Int × List Pdu
  | 0, rxNext, list => (rxNext, list)
  | fuel + 1, rxNext, list =>
    match list with
    | [] => (rxNext, list)
    | pdu :: _ =>
      if pdu.data.isNone ∧ pdu.sn = rxNext then
        advance cfg fuel ((rxNext + 1) % cfg.snModulus) (list.dropWhile (fun l => l.sn == rxNext))
      else (rxNext, list)

def AmRx.raiseHighestStatus (cfg : AmConfig) (rx : AmRx) (x : Int) : AmRx :=
  if x = rx.rxHighestStatus then
    { rx with rxHighestStatus := rx.skipDelivered cfg (rx.rxList.length + 1) rx.rxHighestStatus }
  else rx

def AmRx.raiseNext : AmRx :=
  if x = rx.rxNext then
    let (rxNext, rxList) := advance cfg (rx.rxList.length + 1) rx.rxNext rx.rxList
    { rx with rxNext := rxNext, rxList := rxList }
  else rx

def AmRx.stopReassemblyTimer : AmRx :=
  let next := (rx.rxNext + 1) % cfg.snModulus
  if rx.tReassemblyStart ≠ 0 ∧
      (rx.rxNextStatusTrigger = rx.rxNext ∨ (rx.rxNextStatusTrigger = next ∧ !rx.sduHasMissingBytes rx.rxNext) ∨
        (!rx.snInRecvWindow cfg rx.rxNextStatusTrigger ∧
          rx.rxNextStatusTrigger ≠ (rx.rxNext + cfg.windowSize) % cfg.snModulus)) then
    { rx with tReassemblyStart := 0 }
  else rx

def AmRx.startReassemblyTimer : AmRx :=
  let next := (rx.rxNext + 1) % cfg.snModulus
  if rx.tReassemblyStart = 0 ∧
      (rx.snCompareRx cfg rx.rxNextHighest next > 0 ∨
        (rx.rxNextHighest = next ∧ rx.sduHasMissingBytes rx.rxNext)) then
    { rx with tReassemblyStart := tCurrent, rxNextStatusTrigger := rx.rxNextHighest }
  else rx

def AmRx.raiseNextHighest : AmRx :=
  if rx.snCompareRx cfg x rx.rxNextHighest ≥ 0 then
    { rx with rxNextHighest := (x + 1) % cfg.snModulus }
  else rx

def AmRx.receptionActions (cfg : AmConfig) (tCurrent : Nat) (rx : AmRx) (x : Int) :
    AmRx × List AmEvent :=
  let rx := rx.raiseNextHighest cfg x
  let (rx, events) :=
    if rx.sduFull x then
      let (rx, events) := rx.reassembleAndDeliver x
      ((rx.raiseHighestStatus cfg x).raiseNext cfg x, events)
    else (rx, [])
  ((rx.stopReassemblyTimer cfg).startReassemblyTimer cfg tCurrent, events)

structure DataPdu where
  (p isFirst isLast : Bool)
  sn : Int
  so : Nat
  data : List Byte
deriving DecidableEq, Repr

/-- Decoding a data PDU after its D/C bit. The poll bit is known as soon as it is read,
also when the rest of the header cannot be decoded. -/
def decodePoll : Bool :=
  match take? 1 ((bytesToBits buffer).drop 1) with
  | some (p, _) => p == 1
  | none => false

def decodeDataPdu : Option DataPdu := do
  let (_, stream) ← take? 1 (bytesToBits buffer)
  let (p, stream) ← take? 1 stream
  let (si, stream) ← take? 2 stream
  let isFirst := si &&& 2 == 0
  let isLast := si &&& 1 == 0
  let (_, stream) ← take? (if cfg.snFieldLength = 18 then 2 else 0) stream
  let (sn, stream) ← take? cfg.snFieldLength stream
  let (so, stream) ← take? (if isFirst then 0 else 16) stream
  if !isFirst && so == 0 then none
  else
    let data := buffer.drop ((8 * buffer.length - stream.length) / 8)
    if data.length = 0 then none else some ⟨p == 1, isFirst, isLast, sn, so, data⟩

/-- A data PDU is stored unless the buffer is full, its SN is out of the window or all its
bytes are there. -/
def AmRx.accepts : Bool :=
  !decide (rx.rxSize + pdu.data.length > cfg.rxMaxsize) && rx.snInRecvWindow cfg pdu.sn &&
    !rx.segmentAlreadyReceived pdu.sn pdu.so pdu.data.length

def AmRx.store : AmRx :=
  { rx with
    rxSize := rx.rxSize + pdu.data.length
    rxList := nrRlcPduListAdd (rx.snCompareRx cfg) rx.rxList
      ⟨pdu.sn, pdu.so, pdu.data.length, pdu.isFirst, pdu.isLast, some pdu.data⟩ }

def AmRx.recvData :
    AmRx × List AmEvent :=
  match decodeDataPdu cfg buffer with
  | none => (rx, [])
  | some pdu =>
    if rx.accepts cfg pdu then (rx.store cfg pdu).receptionActions cfg tCurrent pdu.sn
    else (rx, [])

/-- A PDU with the poll bit triggers a status report also when it is discarded. -/
def AmRx.recvDataPdu :
    AmRx × List AmEvent :=
  let (rx, events) := rx.recvData cfg tCurrent buffer
  ({ rx with statusTriggered := rx.statusTriggered || decodePoll buffer }, events)

def AmRx.checkTReassembly (cfg : AmConfig) (tCurrent : Nat) (rx : AmRx) : AmRx :=
  if !timerExpired tCurrent rx.tReassemblyStart cfg.tReassembly then rx
  else
    let rx := { rx with
      tReassemblyStart := 0
      rxHighestStatus := rx.skipDelivered cfg (rx.rxList.length + 1) rx.rxNextStatusTrigger
      statusTriggered := true }
    let next := (rx.rxHighestStatus + 1) % cfg.snModulus
    if rx.snCompareRx cfg rx.rxNextHighest next > 0 ∨
        (rx.rxNextHighest = next ∧ rx.sduHasMissingBytes rx.rxHighestStatus) then
      { rx with tReassemblyStart := tCurrent, rxNextStatusTrigger := rx.rxNextHighest }
    else rx

end OranSlice.Rlc
