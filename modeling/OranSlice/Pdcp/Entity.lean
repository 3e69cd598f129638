import OranSlice.Core.BitCodec

/-! A PDCP entity: security, transmission, reception with reordering, suspension and re-establishment,
with the overflow of COUNT values and times. -/

namespace OranSlice.Pdcp

open BitCodec

def shortSnSize : Nat := 12
def longSnSize : Nat := 18
def shortPdcpHeaderSize : Nat := 2
def longPdcpHeaderSize : Nat := 3
def pdcpIntegritySize : Nat := 4

def countSpace : Nat := 2 ^ 32

theorem countSpace_pos : 0 < countSpace := by decide

inductive EntityType where
  | drbAm
  | drbUm
  | srb
deriving DecidableEq, Repr

inductive IntegrityAlgorithm where
  | nia1
  | nia2
deriving DecidableEq, Repr

/-- An algorithm of -1 keeps the current algorithm and key. -/
structure SecurityKeysAndAlgos where
  (integrityAlgorithm cipheringAlgorithm : Int)
  (integrityKey cipheringKey : List Byte)
deriving DecidableEq, Repr

/-- The algorithms, as functions of a key, a buffer, the bearer, COUNT and the direction. Ciphering
is done in place. What they assert of their arguments is in `AssertsHold`. -/
structure Crypto where
  nea2 : List Byte → List Byte → Int → Nat → Nat → List Byte
  nea2_length : ∀ key buffer bearer count direction,
    (nea2 key buffer bearer count direction).length = buffer.length
  integrity : IntegrityAlgorithm → List Byte → List Byte → Int → Nat → Nat → List Byte
  integrity_length : ∀ algorithm key buffer bearer count direction,
    (integrity algorithm key buffer bearer count direction).length = pdcpIntegritySize

structure IntegrityData where
  count : Nat := 0
  (mac header : List Byte := [])
deriving DecidableEq, Repr

structure PdcpSdu where
  count : Nat
  buffer : List Byte
  msgIntegrity : IntegrityData
deriving DecidableEq, Repr

structure PdcpEntity where
  type : EntityType
  isGnb : Bool
  rbId : Int
  (hasSdapRx hasSdapTx : Bool)
  snSize : Nat
  /-- A value of -1 means infinity. -/
  tReordering : Int
  (snMax windowSize : Nat)
  (txNext rxNext rxDeliv rxReord tCurrent : Nat := 0)
  /-- The time of its start, or 0 when the timer is stopped. -/
  tReorderingStart : Nat := 0
  (hasCiphering hasIntegrity : Bool := false)
  securityKeysAndAlgos : SecurityKeysAndAlgos := ⟨0, 0, [], []⟩
  securityContext : List Byte := []
  integrityContext : IntegrityAlgorithm × List Byte := (.nia1, [])
  rxList : List PdcpSdu := []
  rxSize : Int := 0
  entitySuspended : Bool := false
deriving DecidableEq, Repr

namespace PdcpEntity

variable (crypto : Crypto) (entity : PdcpEntity) (parameters : SecurityKeysAndAlgos) (algorithm : Int)
  (pdu buffer : List Byte) (count direction : Nat)

def storeSecurity : PdcpEntity :=
  let stored := entity.securityKeysAndAlgos
  let stored :=
    if parameters.integrityAlgorithm ≠ -1 then
      { stored with
        integrityAlgorithm := parameters.integrityAlgorithm, integrityKey := parameters.integrityKey }
    else stored
  let stored :=
    if parameters.cipheringAlgorithm ≠ -1 then
      { stored with
        cipheringAlgorithm := parameters.cipheringAlgorithm, cipheringKey := parameters.cipheringKey }
    else stored
  { entity with securityKeysAndAlgos := stored }

/-- Only the first two integrity algorithms are supported: the program ends for others. -/
def setIntegrity : Option PdcpEntity :=
  if algorithm = -1 then some entity
  else if algorithm = 0 then some { entity with hasIntegrity := false }
  else if algorithm = 2 then
    some { entity with
      hasIntegrity := true
      integrityContext := (.nia2, entity.securityKeysAndAlgos.integrityKey) }
  else if algorithm = 1 then
    some { entity with
      hasIntegrity := true
      integrityContext := (.nia1, entity.securityKeysAndAlgos.integrityKey) }
  else none

/-- Only the second ciphering algorithm is supported: the program ends for others. -/
def setCiphering : Option PdcpEntity :=
  if algorithm = -1 then some entity
  else if algorithm = 0 then some { entity with hasCiphering := false }
  else if algorithm = 2 then
    some { entity with
      hasCiphering := true, securityContext := entity.securityKeysAndAlgos.cipheringKey }
  else none

def setSecurity : Option PdcpEntity :=
  ((entity.storeSecurity parameters).setIntegrity parameters.integrityAlgorithm).bind
    (fun entity => entity.setCiphering parameters.cipheringAlgorithm)

def headerSize : Nat :=
  if entity.snSize = shortSnSize then shortPdcpHeaderSize else longPdcpHeaderSize

/-- SRBs always have a MAC-I, even if integrity is not active. -/
def integritySize : Nat :=
  if entity.hasIntegrity || entity.type = .srb then pdcpIntegritySize else 0

/-- The buffer with all behind its first `start` bytes ciphered or deciphered. -/
def cipher (start count direction : Nat) :
    List Byte :=
  buffer.take start ++ crypto.nea2 entity.securityContext (buffer.drop start) entity.rbId count direction

def mac : List Byte :=
  crypto.integrity entity.integrityContext.1 entity.integrityContext.2 buffer entity.rbId count direction

/-- The assertions of `nr_pdcp_security_nea2_cipher`, to which COUNT is a signed number. -/
def nea2Asserts (length : Int) : Prop :=
  length > 0 ∧ (entity.rbId > -1 ∧ entity.rbId < 32) ∧ count < 2 ^ 31

/-- The assertions of `nr_pdcp_integrity_nia2_integrity`. The function of NIA1 has none. -/
def nia2Asserts : Prop :=
  (entity.rbId > 0 ∧ entity.rbId < 33) ∧ count < 2 ^ 31

/-- The program ends unless the functions in use accept the COUNT, the bearer and the number of bytes
to cipher. -/
def AssertsHold (length : Int) : Prop :=
  (entity.hasIntegrity = true → entity.integrityContext.1 = .nia2 → entity.nia2Asserts count) ∧
    (entity.hasCiphering = true → entity.nea2Asserts count length)

instance (length : Int) : Decidable (entity.AssertsHold count length) :=
  inferInstanceAs (Decidable ((_ → _ → (_ ∧ _) ∧ _) ∧ (_ → _ ∧ (_ ∧ _) ∧ _)))

def pduHeader (sn : Nat) : List Byte :=
  let dcBit := if entity.type = .srb then 0 else 0x80
  if entity.snSize = shortSnSize then
    [BitVec.ofNat 8 (dcBit ||| sn >>> 8 &&& 0xf), BitVec.ofNat 8 (sn &&& 0xff)]
  else
    [BitVec.ofNat 8 (dcBit ||| sn >>> 16 &&& 0x3), BitVec.ofNat 8 (sn >>> 8 &&& 0xff),
      BitVec.ofNat 8 (sn &&& 0xff)]

def nrMaxPdcpPduSize (sduSize : Nat) : Nat := sduSize + longPdcpHeaderSize + pdcpIntegritySize

def SendAsserts : Prop :=
  entity.AssertsHold entity.txNext (buffer.length + entity.integritySize - if entity.hasSdapTx then 1 else 0)

instance : Decidable (entity.SendAsserts buffer) := inferInstanceAs (Decidable (AssertsHold _ _ _))

/-- The PDU of an SDU, or no PDU while the entity is suspended. The program ends if the PDU
buffer is too small or an assertion of the algorithms fails. -/
def processSdu (pduMaxSize : Nat) :
    Option (PdcpEntity × Option (List Byte)) :=
  if nrMaxPdcpPduSize buffer.length > pduMaxSize then none
  else if entity.entitySuspended then some (entity, none)
  else if ¬ entity.SendAsserts buffer then none
  else
    let count := entity.txNext
    let direction := if entity.isGnb then 1 else 0
    let pdu := entity.pduHeader (entity.txNext &&& entity.snMax) ++ buffer
    let pdu :=
      if entity.hasIntegrity then pdu ++ entity.mac crypto pdu count direction
      else pdu ++ List.replicate entity.integritySize 0
    let pdu :=
      if entity.hasCiphering then
        entity.cipher crypto pdu (entity.headerSize + if entity.hasSdapTx then 1 else 0) count direction
      else pdu
    some ({ entity with txNext := (entity.txNext + 1) % countSpace }, some pdu)

def markData : List Byte :=
  if entity.type = .srb then pdu
  else
    match pdu with
    | [] => []
    | first :: rest => (first ||| 0x80) :: rest

def rcvdSn : Nat :=
  let byte := fun i => (buffer.getD i 0).toNat
  if entity.snSize = shortSnSize then (byte 0 &&& 0xf) <<< 8 ||| byte 1
  else (byte 0 &&& 0x3) <<< 16 ||| byte 1 <<< 8 ||| byte 2

def rcvdCount (rcvdSn : Nat) : Nat :=
  let rxDelivSn := entity.rxDeliv &&& entity.snMax
  let rxDelivHfn := entity.rxDeliv >>> entity.snSize
  let rcvdHfn :=
    if (rcvdSn : Int) < rxDelivSn - entity.windowSize then (rxDelivHfn + 1) % countSpace
    else if rcvdSn ≥ rxDelivSn + entity.windowSize then (rxDelivHfn + countSpace - 1) % countSpace
    else rxDelivHfn
  rcvdHfn <<< entity.snSize % countSpace ||| rcvdSn

def frontSize : Nat := entity.headerSize + if entity.hasSdapRx then 1 else 0

def decipher : List Byte :=
  if entity.hasCiphering then
    entity.cipher crypto buffer entity.frontSize count (if entity.isGnb then 0 else 1)
  else buffer

def integrityOk (clear : List Byte) (count : Nat) : Bool :=
  !entity.hasIntegrity || entity.mac crypto (clear.take (clear.length - entity.integritySize)) count
      (if entity.isGnb then 0 else 1) == clear.drop (clear.length - entity.integritySize)

def readPdu : Option PdcpSdu :=
  if entity.entitySuspended || pdu.length < 1 then none
  else
    let buffer := entity.markData pdu
    if buffer.length < entity.frontSize + entity.integritySize + 1 then none
    else
      let count := entity.rcvdCount (entity.rcvdSn buffer)
      let msgIntegrity : IntegrityData :=
        if entity.hasIntegrity || entity.type = .srb then
          ⟨count, buffer.drop (buffer.length - 4), buffer.take entity.headerSize⟩
        else {}
      let clear := entity.decipher crypto buffer count
      if entity.integrityOk crypto clear count then
        some ⟨count, (clear.drop entity.headerSize).take
          (clear.length - entity.headerSize - entity.integritySize), msgIntegrity⟩
      else none

end PdcpEntity

def nrPdcpSduListAdd (list : List PdcpSdu) (sdu : PdcpSdu) : List PdcpSdu :=
  list.orderedInsert (fun sdu cur => sdu.count < cur.count) sdu

def nrPdcpSduInList (list : List PdcpSdu) (count : Nat) : Bool := list.any (fun sdu => sdu.count == count)

/-- The SDUs from `count` on up to a discontinuity: those delivered, the COUNT after them and the
rest of the list. -/
def deliverConsecutive : Nat → List PdcpSdu → List PdcpSdu × Nat × List PdcpSdu
  | count, [] => ([], count, [])
  | count, sdu :: rest =>
    if count = sdu.count then
      let (delivered, next, left) := deliverConsecutive ((count + 1) % countSpace) rest
      (sdu :: delivered, next, left)
    else ([], count, sdu :: rest)

def deliveredSize (delivered : List PdcpSdu) : Int := (delivered.map (fun sdu => (sdu.buffer.length : Int))).sum

namespace PdcpEntity

variable (entity : PdcpEntity)

def afterDelivery (delivered left : List PdcpSdu) : PdcpEntity :=
  { entity with rxList := left, rxSize := entity.rxSize - deliveredSize delivered }

def deliverFrom (count : Nat) : PdcpEntity × List PdcpSdu :=
  if count = entity.rxDeliv then
    let (delivered, next, left) := deliverConsecutive entity.rxDeliv entity.rxList
    ({ entity.afterDelivery delivered left with rxDeliv := next }, delivered)
  else (entity, [])

def stopReordering : PdcpEntity :=
  if entity.tReorderingStart ≠ 0 ∧ entity.rxDeliv ≥ entity.rxReord then { entity with tReorderingStart := 0 }
  else entity

def startReordering : PdcpEntity :=
  if entity.tReorderingStart = 0 ∧ entity.rxDeliv < entity.rxNext then
    { entity with rxReord := entity.rxNext, tReorderingStart := entity.tCurrent }
  else entity

def addSdu (sdu : PdcpSdu) : PdcpEntity :=
  { entity with
    rxList := nrPdcpSduListAdd entity.rxList sdu
    rxSize := entity.rxSize + (sdu.buffer.length + entity.integritySize)
    rxNext := if sdu.count ≥ entity.rxNext then (sdu.count + 1) % countSpace else entity.rxNext }

def storeSdu (sdu : PdcpSdu) : PdcpEntity × List PdcpSdu :=
  let (entity, delivered) := (entity.addSdu sdu).deliverFrom sdu.count
  (entity.stopReordering.startReordering, delivered)

def isDuplicate (count : Nat) : Bool :=
  decide (count < entity.rxDeliv) || nrPdcpSduInList entity.rxList count

/-- What follows when no assertion fails. -/
def takePdu (crypto : Crypto) (entity : PdcpEntity) (pdu : List Byte) : PdcpEntity × List PdcpSdu :=
  match entity.readPdu crypto pdu with
  | none => (entity, [])
  | some sdu => if entity.isDuplicate sdu.count then (entity, []) else entity.storeSdu sdu

/-- The algorithms are called if the entity is not suspended and the PDU is not too short. -/
def RecvAsserts (pdu : List Byte) : Prop :=
  entity.entitySuspended = false → entity.frontSize + entity.integritySize + 1 ≤ pdu.length →
    entity.AssertsHold (entity.rcvdCount (entity.rcvdSn (entity.markData pdu))) (pdu.length - entity.frontSize)

instance (pdu : List Byte) : Decidable (entity.RecvAsserts pdu) :=
  inferInstanceAs (Decidable (_ → _ → PdcpEntity.AssertsHold _ _ _))

/-- The entity and the SDUs delivered, unless an assertion of the algorithms ends the program. -/
def recvPdu (crypto : Crypto) (entity : PdcpEntity) (pdu : List Byte) : Option (PdcpEntity × List PdcpSdu) :=
  if entity.RecvAsserts pdu then some (entity.takePdu crypto pdu) else none

def tReorderingExpired : Bool :=
  decide (entity.tReordering ≠ -1 ∧ entity.tReorderingStart ≠ 0 ∧
    ¬ (entity.tCurrent : Int) ≤ (entity.tReorderingStart + entity.tReordering) % 2 ^ 64)

/-- Expiry of `t_reordering`: all SDUs before RX_REORD are delivered, and those that follow them. -/
def checkTReordering : PdcpEntity × List PdcpSdu :=
  if !entity.tReorderingExpired then (entity, [])
  else
    let before := entity.rxList.takeWhile (fun sdu => sdu.count < entity.rxReord)
    let after := entity.rxList.dropWhile (fun sdu => sdu.count < entity.rxReord)
    let (following, next, left) := deliverConsecutive entity.rxReord after
    let delivered := before ++ following
    ({ entity.afterDelivery delivered left with tReorderingStart := 0, rxDeliv := next }.startReordering,
      delivered)

def setTime (now : Nat) : PdcpEntity × List PdcpSdu :=
  { entity with tCurrent := now }.checkTReordering

def deliverAllSdus : PdcpEntity × List PdcpSdu :=
  (entity.afterDelivery entity.rxList [], entity.rxList)

def flushReordering : PdcpEntity × List PdcpSdu :=
  if entity.tReorderingStart ≠ 0 then { entity with tReorderingStart := 0 }.deliverAllSdus else (entity, [])

def resetCounts : PdcpEntity := { entity with txNext := 0, rxNext := 0, rxDeliv := 0 }

def suspend : PdcpEntity × List PdcpSdu :=
  let (entity, delivered) := entity.flushReordering
  ({ entity.resetCounts with entitySuspended := true }, delivered)

def freeRxList : PdcpEntity := { entity with rxList := [], rxSize := 0 }

def reestablishState : PdcpEntity × List PdcpSdu :=
  match entity.type with
  | .drbAm => (entity, [])
  | .drbUm =>
    let (entity, delivered) := entity.flushReordering
    (entity.resetCounts, delivered)
  | .srb => ({ entity.freeRxList.resetCounts with tReorderingStart := 0 }, [])

def reestablish (parameters : SecurityKeysAndAlgos) :
    Option (PdcpEntity × List PdcpSdu) :=
  let (entity, delivered) := entity.reestablishState
  (entity.setSecurity parameters).map (fun entity => ({ entity with entitySuspended := false }, delivered))

end PdcpEntity

def newNrPdcpEntity (type : EntityType) (isGnb : Bool) (rbId : Int) (hasSdapRx hasSdapTx : Bool)
    (snSize : Nat) (tReordering : Int) (parameters : SecurityKeysAndAlgos) : Option PdcpEntity :=
  PdcpEntity.setSecurity
    { type := type
      isGnb := isGnb
      rbId := rbId
      hasSdapRx := hasSdapRx
      hasSdapTx := hasSdapTx
      snSize := snSize
      tReordering := tReordering
      snMax := 2 ^ snSize - 1
      windowSize := 2 ^ (snSize - 1) }
    parameters

end OranSlice.Pdcp
