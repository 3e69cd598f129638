import OranSlice.Core.Walk
import OranSlice.Gtpu.Tunnels

/-! Reception of G-PDUs: the checks of `gtpv1uReceiver`, and the walk over the extension headers,
with every access to the datagram explicit. -/

namespace OranSlice.Gtpu

open BitCodec Walk

structure Datagram where
  bytes : List Byte
  fits : bytes.length ≤ 65536

variable (msgBuf : List Byte) (fuel : Nat) (globGtp : GtpEndPoints) (s : ExtState) (h : Int)

def octet (i : Nat) : Except Fault Nat := (readAt msgBuf i).map BitVec.toNat

def msgHeader : Except Fault MsgHeader :=
  if msgBuf.length < 8 then .error .outOfBounds else .ok (headerOf msgBuf)

structure ExtState where
  (offset nextExtensionHeaderType : Nat)
  qfi : Int := -1
  rqi : Bool := false
  nrPdcpPduSn : Nat := 0
deriving DecidableEq, Repr

def pduSessionContainer : Nat := 0x85

def nrRanContainer : Nat := 0x84

def noMoreExtHdrs : Nat := 0

/-- A PDU session container; `none` if the packet is malformed. -/
def readPduSessionContainer : Except Fault (Option ExtState) :=
  if s.offset + 2 > msgBuf.length then .ok none
  else do
    let flags ← octet msgBuf (s.offset + 2)
    return some { s with qfi := (flags % 64 : Nat), rqi := flags / 64 % 2 == 1 }

def additionalOffset (flags : Nat) : Nat :=
  6 + (if flags / 4 % 2 = 1 then 9 else 0) + if flags / 2 % 2 = 1 then 3 else 0

def readNrRanContainer : Except Fault (Option ExtState) :=
  if s.offset + 1 > msgBuf.length then .ok none
  else do
    let flags ← octet msgBuf (s.offset + 1)
    if flags / 16 % 16 = 0 then
      let report ← octet msgBuf (s.offset + 2)
      if report / 8 % 2 = 1 then
        let sn1 ← octet msgBuf (s.offset + additionalOffset flags)
        let sn2 ← octet msgBuf (s.offset + additionalOffset flags + 1)
        let sn3 ← octet msgBuf (s.offset + additionalOffset flags + 2)
        return some { s with nrPdcpPduSn := (sn1 * 256 + sn2) * 256 + sn3 }
      else return some s
    else return some s

def readExtension : Except Fault (Option ExtState) :=
  if s.nextExtensionHeaderType = pduSessionContainer then readPduSessionContainer msgBuf s
  else if s.nextExtensionHeaderType = nrRanContainer then readNrRanContainer msgBuf s
  else .ok (some s)

/-- A turn of the walk, which stops with `none` at a malformed packet. -/
def extensionHeader : Except Fault (Turn ExtState (Option ExtState)) :=
  if s.nextExtensionHeaderType = noMoreExtHdrs then .ok (.stop (some s))
  else do
    let extensionHeaderLength ← octet msgBuf s.offset
    match ← readExtension msgBuf s with
    | none => return .stop none
    | some s =>
      let offset := s.offset + extensionHeaderLength * 4
      if offset > msgBuf.length then return .stop none
      else
        let nextExtensionHeaderType ← octet msgBuf (offset - 1)
        return .again { s with offset, nextExtensionHeaderType }

/-- The payload given to a callback, with the QFI and the RQI if it is that of SDAP. A call of a null
callback ends the program. -/
structure Handed where
  owner : UeidData
  callBack : Option Nat
  sdap : Option (Int × Bool)
  (sduBuffer sduBufferSize : Nat)
deriving DecidableEq, Repr

structure Received where
  returned : Int
  handed : Option Handed := none
  /-- The PDCP SN that a delivery status is sent for. -/
  deliveryStatus : Option Nat := none
  /-- Whether the lock on the tunnels is still held. -/
  gtpLock : Bool := false
deriving DecidableEq, Repr

/-- The payload goes to the callback of SDAP when there is a QFI and one is set. -/
def handOver (msgBufLen : Nat) (owner : UeidData) (s : ExtState) : Received where
  returned := 0
  handed :=
    -- the difference is negative for a header that is not complete
    if s.offset < msgBufLen then
      some {
        owner := owner
        callBack := if s.qfi ≠ -1 ∧ owner.callBackSdap.isSome then owner.callBackSdap else owner.callBack
        sdap := if s.qfi ≠ -1 ∧ owner.callBackSdap.isSome then some (s.qfi, s.rqi) else none
        sduBuffer := s.offset
        sduBufferSize := msgBufLen - s.offset }
    else none
  deliveryStatus := if 0 < s.nrPdcpPduSn ∧ s.nrPdcpPduSn % 5 = 0 then some s.nrPdcpPduSn else none

def handleTunnel (owner : UeidData) (msgBuf : List Byte) (header : MsgHeader) : Except Fault Received :=
  let offset := 8 + if header.e || header.s || header.pn then 4 else 0
  if header.e then do
    let nextExtensionHeaderType ← octet msgBuf (offset - 1)
    match ← walk (extensionHeader msgBuf) fuel { offset, nextExtensionHeaderType } with
    | none => return { returned := gtpNok, gtpLock := true }
    | some s => return handOver msgBuf.length owner s
  else .ok (handOver msgBuf.length owner { offset, nextExtensionHeaderType := noMoreExtHdrs })

def gtpv1uHandleGpdu (msgBuf : List Byte) : Except Fault Received := do
  let header ← msgHeader msgBuf
  if header.version ≠ 1 ∨ header.pt ≠ 1 then return { returned := gtpNok }
  else if globGtp.instanceKey h ∉ globGtp.instances then return { returned := gtpNok }
  else
    match globGtp.te2ueMapping.lookup header.teid with
    | none => return { returned := gtpNok }
    | some owner => handleTunnel fuel owner msgBuf header

def gtpGpdu : Nat := 255

/-- A datagram that is a G-PDU is handled; `none` stands for one that is dropped or of another type. -/
def gtpv1uReceiver (udpData : Datagram) :
    Except Fault (Option Received) :=
  if udpData.bytes.length < 8 then .ok none
  else do
    let msg ← msgHeader udpData.bytes
    if msg.msgLength + 8 ≠ udpData.bytes.length then return none
    else if msg.msgType ≠ gtpGpdu then return none
    else
      let received ← gtpv1uHandleGpdu fuel globGtp h udpData.bytes
      return some received

end OranSlice.Gtpu
