import OranSlice.Mac.UlPdu

/-! The parser of downlink MAC PDUs and the walk over the sub-PDUs of a random access response, in the
UE, with every access explicit. -/

namespace OranSlice.Mac.DlPdu

open BitCodec UlPdu

inductive DlLcid where
  | ccch
  | channel (id : Nat)
  | recommendedBitrate
  | spZpCsiRsResSetAct
  | pucchSpatialRelationAct
  | spSrsActivation
  | spCsiRepPucchAct
  | tciStateIndUeSpecPdcch
  | tciStateActUeSpecPdsch
  | aperiodicCsiTriStateSubsel
  | spCsiRsCsiImResSetAct
  | duplicationAct
  | sCellAct4Oct
  | sCellAct1Oct
  | lDrx
  | drx
  | taCommand
  | conResId
  | padding
  | unknown (id : Nat)
deriving DecidableEq, Repr

def DlLcid.ofByte (byte : Byte) : DlLcid :=
  match byte.toNat % 64 with
  | 0x00 => .ccch
  | 0x2f => .recommendedBitrate
  | 0x30 => .spZpCsiRsResSetAct
  | 0x31 => .pucchSpatialRelationAct
  | 0x32 => .spSrsActivation
  | 0x33 => .spCsiRepPucchAct
  | 0x34 => .tciStateIndUeSpecPdcch
  | 0x35 => .tciStateActUeSpecPdsch
  | 0x36 => .aperiodicCsiTriStateSubsel
  | 0x37 => .spCsiRsCsiImResSetAct
  | 0x38 => .duplicationAct
  | 0x39 => .sCellAct4Oct
  | 0x3a => .sCellAct1Oct
  | 0x3b => .lDrx
  | 0x3c => .drx
  | 0x3d => .taCommand
  | 0x3e => .conResId
  | 0x3f => .padding
  | id => if id ≤ 32 then .channel id else .unknown id

inductive RaState where
  | ueIdle
  | generatePreamble
  | waitRar
  | waitContentionResolution
  | succeeded
  | failed
deriving DecidableEq, Repr

structure RaConfig where
  raState : RaState := .ueIdle
  (raActive cfra msg3CRnti : Bool := false)
  tCrnti : Nat := 0
  contResId : Vector Byte 6 := Vector.replicate 6 0
  (raWindowCnt raPreambleIndex : Int := 0)
  (raRapidFound raBiFound : Bool := false)
  raBackoffIndicator : Nat := 0
deriving DecidableEq, Repr

inductive TaType where
  | noTa
  | adjustmentTa
  | rarTa
deriving DecidableEq, Repr

structure UlTimeAlignment where
  taApply : TaType := .noTa
  (taCommand tagId frame slot : Nat := 0)
deriving DecidableEq, Repr

/-- What the parser changes; `indicated` holds the SDUs given to RLC. -/
structure UeDl where
  ulTimeAlignment : UlTimeAlignment := {}
  ra : RaConfig := {}
  crnti : Nat := 0
  connected : Bool := false
  indicated : List (Nat × List Byte) := []
deriving DecidableEq, Repr

/-- The time of the PDU, the offset and the slots per frame of the uplink, and whether recorded samples are
played. -/
structure DlContext where
  (frame slot ntnUeKoffset nSlotsFrame : Nat)
  iqPlayer : Bool

inductive DlNext where
  | ret
  | advance (macSubheaderLen macLen : Nat) (done : Bool)
deriving DecidableEq, Repr

variable (ctx : DlContext) (ra : RaConfig) (header : Byte) (ue : UeDl) (lcid : Nat)
  (pduP identity pdu : List Byte) (pduLen : Nat)

def indicateDl (sdu : List Byte) : UeDl :=
  { ue with indicated := ue.indicated ++ [(lcid, sdu)] }

/-- Whether `count` bytes from an offset are all zero; it is read up to the first one that is not. -/
def allZero (pduP : List Byte) : Nat → Nat → Except Fault Bool
  | _, 0 => .ok true
  | i, count + 1 => do
      let byte ← readByte pduP i
      if byte ≠ 0 then return false
      allZero pduP (i + 1) count

def processCcchDl : Except Fault (UeDl × DlNext) := do
  match ← getMacLen pduP pduLen with
  | none => throw .assertion
  | some (macLen, macSubheaderLen) =>
    if ← allZero pduP 0 (macSubheaderLen + macLen) then return (ue, .advance macSubheaderLen macLen true)
    if macLen > 0 then
      let sdu ← readSdu pduP macSubheaderLen macLen
      return (indicateDl ue 0 sdu, .advance macSubheaderLen macLen false)
    return (ue, .advance macSubheaderLen macLen false)

/-- A control element with a length field, which is skipped; without a complete subheader only its first
byte is. -/
def skipWithLength : Except Fault (UeDl × DlNext) := do
  match ← getMacLen pduP pduLen with
  | none => return (ue, .advance 1 0 false)
  | some (macLen, macSubheaderLen) => return (ue, .advance macSubheaderLen macLen false)

def takeTa (ce : Byte) : UeDl :=
  { ue with
    ulTimeAlignment :=
      { taApply := .adjustmentTa
        taCommand := ce.toNat % 64
        tagId := ce.toNat / 64
        frame := (ctx.frame + (ctx.slot + ctx.ntnUeKoffset) / ctx.nSlotsFrame) % 1024
        slot := (ctx.slot + ctx.ntnUeKoffset) % ctx.nSlotsFrame } }

def processTaCommand : Except Fault (UeDl × DlNext) := do
  let ce ← readByte pduP 1
  return (takeTa ctx ue ce, .advance 1 1 false)

def RaConfig.succeeded : RaConfig :=
  { ra with
    raState := .succeeded
    raActive := false
    msg3CRnti := false
    raWindowCnt := if ra.cfra then -1 else ra.raWindowCnt
    tCrnti := if ra.cfra then ra.tCrnti else 0 }

def nrRaSucceeded : UeDl :=
  { ue with
    ra := ue.ra.succeeded
    crnti := if ue.ra.cfra then ue.crnti else ue.ra.tCrnti
    connected := true }

/-- The identity is not checked when recorded samples are played. -/
def DlContext.raSuccess : Bool :=
  ctx.iqPlayer || identity = ra.contResId.toList

def contentionResolution : UeDl :=
  if ue.ra.raActive && ctx.raSuccess ue.ra identity then nrRaSucceeded ue
  else if ctx.raSuccess ue.ra identity = false then
    { ue with ra := { ue.ra with raState := .ueIdle, raActive := false } }
  else ue

/-- The six bytes of the identity are read for a message of the log before they are compared. -/
def processConResId : Except Fault (UeDl × DlNext) := do
  if ue.ra.raState = .waitContentionResolution then
    let identity ← readSdu pduP 1 6
    return (contentionResolution ctx ue identity, .advance 1 6 false)
  return (ue, .advance 1 6 false)

/-- The SDU of a logical channel; its length is not compared with that of the PDU. -/
def processChannel : Except Fault (UeDl × DlNext) := do
  match ← getMacLen pduP pduLen with
  | none => return (ue, .ret)
  | some (macLen, macSubheaderLen) =>
    let sdu ← readSdu pduP macSubheaderLen macLen
    return (indicateDl ue lcid sdu, .advance macSubheaderLen macLen false)

def processLcidDl :
    DlLcid → Except Fault (UeDl × DlNext)
  | .ccch => processCcchDl ue pduP pduLen
  | .tciStateActUeSpecPdsch | .aperiodicCsiTriStateSubsel | .spCsiRsCsiImResSetAct | .spSrsActivation =>
    skipWithLength ue pduP pduLen
  | .recommendedBitrate | .spZpCsiRsResSetAct | .spCsiRepPucchAct | .tciStateIndUeSpecPdcch =>
    .ok (ue, .advance 1 2 false)
  | .pucchSpatialRelationAct => .ok (ue, .advance 1 3 false)
  | .duplicationAct | .sCellAct1Oct => .ok (ue, .advance 1 1 false)
  | .sCellAct4Oct => .ok (ue, .advance 1 4 false)
  | .lDrx | .drx => .ok (ue, .advance 1 0 false)
  | .taCommand => processTaCommand ctx ue pduP
  | .conResId => processConResId ctx ue pduP
  | .padding => .ok (ue, .advance 1 0 true)
  | .channel lcid => processChannel ue lcid pduP pduLen
  | .unknown _ => .ok (ue, .advance 1 0 false)

def processSubPduDl :
    Except Fault (UeDl × DlNext) := do
  let first ← readByte pduP 0
  processLcidDl ctx ue pduP pduLen (DlLcid.ofByte first)

/-- The loop over sub-PDUs; the remaining length is signed, so that a sub-PDU that is too long ends it. -/
def subPdusDl (ctx : DlContext) : Nat → UeDl → List Byte → Int → Except Fault UeDl
  | 0, _, _, _ => .error .outOfFuel
  | fuel + 1, ue, pduP, pduLen =>
    if pduLen ≤ 0 then .ok ue
    else do
      let (ue, next) ← processSubPduDl ctx ue pduP pduLen.toNat
      match next with
      | .ret => return ue
      | .advance macSubheaderLen macLen done =>
        if done then return ue
        let size := macSubheaderLen + macLen
        subPdusDl ctx fuel ue (pduP.drop size) (pduLen - size)

/-- A PDU that is there; its length is converted to `int32_t`. -/
def nrUeProcessMacPdu : Except Fault UeDl :=
  subPdusDl ctx (pdu.length + 1) ue pdu (toInt pdu.length)

def backoffTable : List Nat := [5, 10, 20, 30, 40, 60, 80, 120, 160, 240, 320, 480, 960, 1920]

def rarSize : Nat := 7

def carriesRapid : Bool := header.getLsbD 6

def isExtended : Bool := header.getLsbD 7

def takeBackoff : RaConfig :=
  { ra with raBackoffIndicator := backoffTable.getD (header.toNat % 16) 0, raBiFound := true }

def RaConfig.preambleIndex : Nat := (ra.raPreambleIndex % 256).toNat

/-- The loop over the subheaders of a RAR, with the counters of 8 bits; it gives the offset of `rar`. -/
def rarSubPdus : Nat → RaConfig → Nat → Nat → List Byte → Except Fault (RaConfig × Int)
  | 0, _, _, _, _ => .error .outOfFuel
  | fuel + 1, ra, nSubheaders, nSubPdus, rarh => do
      let header ← readByte rarh 0
      let nSubheaders := (nSubheaders + 1) % 256
      if carriesRapid header then
        let nSubPdus := (nSubPdus + 1) % 256
        if header.toNat % 64 = ra.preambleIndex then
          return ({ ra with raRapidFound := true }, nSubheaders + ((nSubPdus : Int) - 1) * rarSize)
        if isExtended header = false then return (ra, 1)
        rarSubPdus fuel ra nSubheaders nSubPdus (rarh.drop (rarSize + 1))
      else
        let ra := takeBackoff ra header
        if isExtended header then rarSubPdus fuel ra nSubheaders nSubPdus (rarh.drop 1)
        else return (ra, 1)

/-- The walk of `nr_ue_process_rar`, which is made only for a PDU that was decoded. The length of the PDU is not
looked at. -/
def nrUeProcessRar (ackNack : Bool) (ra : RaConfig) (pdu : List Byte) : Except Fault (RaConfig × Int) :=
  if ackNack then rarSubPdus (pdu.length + 1) ra 0 0 pdu else .ok (ra, 1)

end OranSlice.Mac.DlPdu
