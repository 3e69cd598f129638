import OranSlice.Rlc.AmReceive

/-! Status reports of an AM entity. -/

namespace OranSlice.Rlc

open BitCodec

/-- A missing part: from byte `soStart` of `snStart` to byte `soEnd` of `snEnd`, where 0xffff is the end
of the SDU. `next` is the list to go on with. -/
structure MissingData where
  snStart : Int
  soStart : Nat
  snEnd : Int
  soEnd : Nat
  next : List Pdu
deriving DecidableEq, Repr

def soEndOfSdu : Nat := 0xffff

variable (cfg : AmConfig) (m : MissingData) (encoder : StatusEncoder) (tCurrent : Nat) (nack : NackEntry)
  (rx : AmRx) (snStart : Int) (size : Nat) (cur : Pdu)

def AmRx.lastReported : Int :=
  (rx.rxHighestStatus - 1 + cfg.snModulus) % cfg.snModulus

def AmRx.setEndDifferentSdu (soStart : Nat) (cur : Pdu)
    (rest : List Pdu) : MissingData :=
  let snEnd := if cur.isFirst then (cur.sn - 1 + cfg.snModulus) % cfg.snModulus else cur.sn
  let soEnd := if cur.isFirst then soEndOfSdu else cur.so - 1
  if rx.snCompareRx cfg rx.rxHighestStatus snEnd ≤ 0 then
    ⟨snStart, soStart, rx.lastReported cfg, soEndOfSdu, []⟩
  else ⟨snStart, soStart, snEnd, soEnd, cur :: rest⟩

def AmRx.reportable : Bool :=
  !decide (rx.snCompareRx cfg rx.rxHighestStatus snStart ≤ 0)

/-- Where the missing part after the PDUs up to `cur` starts: after the SDU, if its last
segment was reached, else after its highest byte. -/
def missingStart (maxSo : Nat) (lastReached : Bool) : Int × Nat :=
  if lastReached then ((cur.sn + 1) % cfg.snModulus, 0) else (cur.sn, maxSo + 1)

/-- The first missing part from `cur` on, given the highest byte `maxSo` of its SDU before
it and whether the last segment was among them. -/
def AmRx.missingAfter (cfg : AmConfig) (rx : AmRx) (maxSo : Nat) (lastReached : Bool) (cur : Pdu) :
    List Pdu → Option MissingData
  | [] =>
    let maxSo := max maxSo (cur.so + cur.size - 1)
    let (snStart, soStart) := missingStart cfg cur maxSo (lastReached || cur.isLast || cur.data.isNone)
    if rx.reportable cfg snStart then
      some ⟨snStart, soStart, rx.lastReported cfg, soEndOfSdu, []⟩
    else none
  | next :: rest =>
    let maxSo := max maxSo (cur.so + cur.size - 1)
    let lastReached := lastReached || cur.isLast
    if next.sn = cur.sn ∧ next.so ≤ maxSo + 1 then rx.missingAfter cfg maxSo lastReached next rest
    else if next.sn = (cur.sn + 1) % cfg.snModulus ∧ lastReached ∧ next.isFirst then
      rx.missingAfter cfg 0 false next rest
    else if next.sn = cur.sn then
      if rx.reportable cfg cur.sn then
        some ⟨cur.sn, maxSo + 1, cur.sn, next.so - 1, next :: rest⟩
      else none
    else
      let (snStart, soStart) := missingStart cfg cur maxSo lastReached
      if rx.reportable cfg snStart then
        some (rx.setEndDifferentSdu cfg snStart soStart next rest)
      else none

/-- The next missing part to report, or `none`. At the head of the list a part may be
missing before it. -/
def AmRx.nextMissing (rest : List Pdu) (checkHead : Bool) :
    Option MissingData :=
  if checkHead ∧ (cur.sn ≠ rx.rxNext ∨ !cur.isFirst) then
    if rx.reportable cfg rx.rxNext then some (rx.setEndDifferentSdu cfg rx.rxNext 0 cur rest)
    else none
  else rx.missingAfter cfg 0 false cur rest

structure NackEntry where
  snStart : Int
  soStart : Nat
  snEnd : Int
  (soEnd count : Nat)
deriving DecidableEq, Repr

def NackEntry.wholeSdus : Bool := nack.soStart == 0 && nack.soEnd == soEndOfSdu

def NackEntry.single : Bool := nack.snStart == nack.snEnd

def nackLength : Nat := 2 + if cfg.snFieldLength = 18 then 1 else 0

def nackSize : Nat :=
  nackLength cfg + (if nack.wholeSdus then 0 else 4) + if nack.single then 0 else 1

/-- The encoder of a report: the bits written, the room in bytes, and the positions of the
last E1 bit and of the last SOend field. -/
structure StatusEncoder where
  stream : List Bool
  (size e1 : Nat)
  soEndAddress : Option Nat
deriving DecidableEq, Repr

def StatusEncoder.byte : Nat := encoder.stream.length / 8

def nackRBits : Nat := if cfg.snFieldLength = 18 then 3 else 1

def nackBits : List Bool :=
  bits cfg.snFieldLength nack.snStart.toNat ++ [false, !nack.wholeSdus, !nack.single] ++
    bits (nackRBits cfg) 0 ++
    (if nack.wholeSdus then [] else bits 16 nack.soStart ++ bits 16 nack.soEnd) ++
    if nack.single then [] else bits 8 nack.count

def StatusEncoder.put : StatusEncoder :=
  let start := encoder.stream.length
  { encoder with
    stream := encoder.stream.set encoder.e1 true ++ nackBits cfg nack
    e1 := start + cfg.snFieldLength
    soEndAddress := if nack.wholeSdus then none
      else some (start + cfg.snFieldLength + 3 + nackRBits cfg + 16) }

/-- The next range of at most 255 SNs of a missing part, of which `snCount` are left. -/
def rangeOf (snCount : Nat) : NackEntry :=
  let count := min snCount 255
  { snStart := snStart
    soStart := if snStart = m.snStart then m.soStart else 0
    snEnd := if count = snCount then m.snEnd else (snStart + 254) % cfg.snModulus
    soEnd := if count = snCount then m.soEnd else soEndOfSdu
    count := count }

structure Generated where
  encoder : StatusEncoder
  lastNack : Option Int
  truncated : Bool
deriving DecidableEq, Repr

def generateRanges (cfg : AmConfig) (m : MissingData) :
    Nat → Nat → Int → StatusEncoder → Option Int → Generated
  | 0, _, _, encoder, lastNack => ⟨encoder, lastNack, false⟩
  | _ + 1, 0, _, encoder, lastNack => ⟨encoder, lastNack, false⟩
  | fuel + 1, snCount + 1, snStart, encoder, lastNack =>
    let nack := rangeOf cfg m snStart (snCount + 1)
    if encoder.byte + nackSize cfg nack > encoder.size then ⟨encoder, lastNack, true⟩
    else
      generateRanges cfg m fuel (snCount + 1 - nack.count) ((snStart + nack.count) % cfg.snModulus)
        (encoder.put cfg nack)
        (some (if nack.single then snStart else snStart + nack.count - 1))

def MissingData.snCount : Nat :=
  ((m.snEnd - m.snStart + cfg.snModulus) % cfg.snModulus + 1).toNat

def generateMissing : Generated :=
  generateRanges cfg m (m.snCount cfg) (m.snCount cfg) m.snStart encoder none

/-- A report that was cut nacks the SDU of its last NACK to the end. -/
def StatusEncoder.cutAtSoEnd : StatusEncoder :=
  match encoder.soEndAddress with
  | none => encoder
  | some address =>
    { encoder with
      stream := encoder.stream.take address ++ bits 16 soEndOfSdu ++ encoder.stream.drop (address + 16) }

def AmRx.generateNacks (cfg : AmConfig) (rx : AmRx) :
    Nat → List Pdu → Bool → StatusEncoder → Int → StatusEncoder × Int
  | 0, _, _, encoder, lastNack => (encoder, lastNack)
  | _ + 1, [], _, encoder, lastNack => (encoder, lastNack)
  | fuel + 1, cur :: rest, checkHead, encoder, lastNack =>
    match rx.nextMissing cfg cur rest checkHead with
    | none => (encoder, lastNack)
    | some m =>
      let generated := generateMissing cfg m encoder
      let lastNack := generated.lastNack.getD lastNack
      if generated.truncated then (generated.encoder.cutAtSoEnd, lastNack)
      else rx.generateNacks cfg fuel m.next false generated.encoder lastNack

def putAckSn (ackSn : Nat) (stream : List Bool) : List Bool :=
  if cfg.snFieldLength = 12 then
    bits 8 (ackSn >>> 8) ++ bits 8 (ackSn &&& 255) ++ stream.drop 16
  else
    bits 8 (ackSn >>> 14) ++ bits 8 (ackSn >>> 6 &&& 255) ++
      List.zipWith or ((stream.drop 16).take 8) (bits 8 ((ackSn &&& 0x3f) <<< 2)) ++ stream.drop 24

def AmRx.statusReport : List Byte :=
  let encoder : StatusEncoder := ⟨bits 24 0, size, if cfg.snFieldLength = 18 then 22 else 16, none⟩
  let (encoder, lastNack) := rx.generateNacks cfg (rx.rxList.length + 1) rx.rxList true encoder
    ((rx.rxNext - 1 + cfg.snModulus) % cfg.snModulus)
  bitsToBytes (putAckSn cfg ((lastNack + 1) % cfg.snModulus).toNat encoder.stream)

/-- A report needs three bytes; it resets the trigger and starts `t_status_prohibit`. -/
def AmRx.generateStatus :
    List Byte × AmRx :=
  if size < 3 then ([], rx)
  else
    (rx.statusReport cfg size,
      { rx with statusTriggered := false, tStatusProhibitStart := tCurrent })

def AmRx.statusToReport : Bool :=
  rx.statusTriggered && (rx.tStatusProhibitStart == 0 ||
    decide ((tCurrent + 2 ^ 64 - rx.tStatusProhibitStart) % 2 ^ 64 > cfg.tStatusProhibit))

def AmRx.reportStatus : List Byte × AmRx :=
  if rx.statusToReport cfg tCurrent then rx.generateStatus cfg tCurrent size else ([], rx)

end OranSlice.Rlc
