import OranSlice.Core.Runs
import OranSlice.Rlc.AmTransmit

/-! The operations of an AM entity, and its reconfiguration by the upper layer. -/

namespace OranSlice.Rlc

open BitCodec

inductive DataOp where
  | recvSdu (buffer : List Byte) (sduId : Int)
  | discardSdu (sduId : Int)
  | generatePdu (size : Nat)
  | recvPdu (buffer : List Byte)
  | setTime (now : Nat)
deriving DecidableEq, Repr

structure AmOutput where
  pdu : List Byte := []
  events : List AmEvent := []
deriving DecidableEq, Repr

def AmEntity.perform (entity : AmEntity) : DataOp → Option (AmEntity × AmOutput)
  | .recvSdu buffer sduId => (entity.recvSdu buffer sduId).map (fun entity => (entity, {}))
  | .discardSdu sduId => some (entity.discardSdu sduId, {})
  | .generatePdu size =>
    let (pdu, entity) := entity.generatePdu size
    some (entity, { pdu := pdu })
  | .recvPdu buffer =>
    let (entity, events) := entity.recvPdu buffer
    some (entity, { events := events })
  | .setTime now =>
    (entity.setTime now).map (fun result => (result.1, { events := result.2 }))

def AmEntity.dataStep (entity : AmEntity) (op : DataOp) : Option AmEntity :=
  (entity.perform op).map Prod.fst

inductive AmOp where
  | data (op : DataOp)
  | reestablishment
  | reconfigure (params : AmParams) (snFieldLength : Option Nat)
deriving DecidableEq, Repr

def AmEntity.step (entity : AmEntity) : AmOp → Option AmEntity
  | .data op => entity.dataStep op
  | .reestablishment => some entity.reestablishment
  | .reconfigure params snFieldLength => some (entity.reconfigure params snFieldLength)

inductive SnFieldLengthAm where
  | size12
  | size18
deriving DecidableEq, Repr

def decodeSnFieldLengthAm : SnFieldLengthAm → Nat
  | .size12 => 12
  | .size18 => 18

structure AmRlcConfig where
  params : AmParams
  (dlSnFieldLength ulSnFieldLength : Option SnFieldLengthAm)
deriving DecidableEq, Repr

def defaultAmParams : AmParams where
  tPollRetransmit := 45
  tReassembly := 35
  tStatusProhibit := 0
  pollPdu := -1
  pollByte := -1
  maxRetxThreshold := 8

/-- Reconfiguration asserts equal lengths for both directions. Without a configuration the
default one is used, which sets a length of 12. -/
def nrRlcReconfigureEntity (entity : AmEntity) : Option AmRlcConfig → Option AmEntity
  | none => some (entity.reconfigure defaultAmParams (some 12))
  | some config =>
    if config.dlSnFieldLength = config.ulSnFieldLength then
      some (entity.reconfigure config.params (config.dlSnFieldLength.map decodeSnFieldLengthAm))
    else none

end OranSlice.Rlc
