import OranSlice.Gtpu.GpduSafety

/-! Sending of G-PDUs with the extension headers of the callers, and their way through the receiver of
the peer. -/

namespace OranSlice.Gtpu

open BitCodec Walk List

def bigEndian : Nat → Nat → List Byte
  | 0, _ => []
  | width + 1, value => BitVec.ofNat 8 (value / 256 ^ width) :: bigEndian width value

structure GtpMessage where
  teid : BitVec 32
  msg : List Byte
  (seqNumFlag npduNumFlag : Bool)
  (seqNum npduNum : Int)

variable (m : GtpMessage) (msgType extHdrType fuel : Nat) (extensionHeaderBuffer : List Byte)

def hdrMax : Nat := 256

/-- A round of the loop over the extension headers, which copies the one buffer in each of them. -/
def addExtension (room : Nat) (s : Nat × List Byte) : Except Fault (Turn (Nat × List Byte) (List Byte)) :=
  if s.1 = noMoreExtHdrs then .ok (.stop s.2)
  else if 0 < extensionHeaderBuffer.length then
    if room < s.2.length + extensionHeaderBuffer.length then .error .outOfBounds
    else do
      let extHdrType ← octet extensionHeaderBuffer (extensionHeaderBuffer.length - 1)
      return .again (extHdrType, s.2 ++ extensionHeaderBuffer)
  else .ok (.again s)

def GtpMessage.msgHdr (msgLength : Nat) : List Byte :=
  [BitVec.ofNat 8 (m.npduNumFlag.toNat + 2 * m.seqNumFlag.toNat + (if extHdrType ≠ noMoreExtHdrs then 4 else 0) +
    16 + 32), BitVec.ofNat 8 msgType] ++ bigEndian 2 msgLength ++ bigEndian 4 m.teid.toNat

/-- The sequence number is in the byte order of the host. -/
def GtpMessage.optionalFields : List Byte :=
  if m.seqNumFlag || extHdrType ≠ noMoreExtHdrs || m.npduNumFlag then
    let seqNum := if m.seqNumFlag then m.seqNum else 0
    [BitVec.ofInt 8 seqNum, BitVec.ofInt 8 (seqNum / 256), BitVec.ofInt 8 (if m.npduNumFlag then m.npduNum else 0),
      BitVec.ofNat 8 extHdrType]
  else []

/-- The datagram that is sent; `none` if the headers do not fit into the room for them. -/
def gtpv1uCreateAndSendMsg : Except Fault (Option (List Byte)) := do
  let headers ← walk (addExtension extensionHeaderBuffer (m.msg.length + hdrMax - 8)) fuel
    (extHdrType, m.optionalFields extHdrType)
  let behind := headers ++ m.msg
  if 8 + headers.length < hdrMax then return some (m.msgHdr msgType extHdrType behind.length ++ behind)
  else return none

def pduSessionHeader (outgoingQfi : Fin 64) : List Byte := [1, 0x10, BitVec.ofNat 8 outgoingQfi.val, 0]

/-- The bits of the flags that are not set have the values of the uninitialised variable. -/
def fillDlDeliveryStatusReport (uninitialised : Nat × Byte) (rlcBufferAvailability nrPdcpPduSn : BitVec 32) : List Byte :=
  let sn := nrPdcpPduSn.toNat
  [BitVec.ofNat 8 ((1 + 6 + (if 0 < sn then 3 else 0) + (if 0 < sn then 1 else 0) + 1) / 4),
    BitVec.ofNat 8 (uninitialised.1 % 4 + (if 0 < sn then 8 else 0) + 16), uninitialised.2] ++
  bigEndian 4 rlcBufferAvailability.toNat ++ (if 0 < sn then bigEndian 3 sn ++ [0] else []) ++ [0]

inductive Extension where
  | none
  | pduSession (outgoingQfi : Fin 64)
  | nrRan (uninitialised : Nat × Byte) (rlcBufferAvailability nrPdcpPduSn : BitVec 32)

namespace Extension

def hdrType : Extension → Nat
  | none => noMoreExtHdrs
  | pduSession _ => pduSessionContainer
  | nrRan _ _ _ => nrRanContainer

def buffer : Extension → List Byte
  | none => []
  | pduSession outgoingQfi => pduSessionHeader outgoingQfi
  | nrRan uninitialised rlcBufferAvailability nrPdcpPduSn =>
    fillDlDeliveryStatusReport uninitialised rlcBufferAvailability nrPdcpPduSn

def qfi : Extension → Option (Fin 64)
  | pduSession outgoingQfi => some outgoingQfi
  | _ => Option.none

variable (extension : Extension) {front msg : List Byte}

theorem hdrType_ne (sent : extension ≠ none) : extension.hdrType ≠ noMoreExtHdrs := by
  cases extension with
  | none => exact absurd rfl sent
  | pduSession | nrRan => exact Nat.succ_ne_zero _

theorem buffer_shape (sent : extension ≠ none) :
    extension.buffer.length = byteAt extension.buffer 0 * 4 ∧ 4 ≤ extension.buffer.length ∧
      extension.buffer.length ≤ 12 ∧ byteAt extension.buffer (extension.buffer.length - 1) = noMoreExtHdrs := by
  cases extension with
  | none => exact absurd rfl sent
  | pduSession => simp [buffer, pduSessionHeader, byteAt, noMoreExtHdrs]
  | nrRan uninitialised room sn =>
    simp only [buffer, fillDlDeliveryStatusReport]
    split <;> simp [bigEndian, byteAt, noMoreExtHdrs]

theorem byteAt_append {i : Nat} (inside : i < extension.buffer.length) :
    byteAt (front ++ (extension.buffer ++ msg)) (front.length + i) = byteAt extension.buffer i := by
  rw [byteAt, getD_append_right _ _ _ _ (Nat.le_add_right _ _), Nat.add_sub_cancel_left,
    getD_append _ _ _ _ inside]
  rfl

def behind (start : Nat) : ExtState where
  offset := start + extension.buffer.length
  nextExtensionHeaderType := noMoreExtHdrs
  qfi := extension.qfi.elim (-1) (fun qfi => (qfi.val : Int))

theorem readExtension_sent (sent : extension ≠ none) :
    readExtension (front ++ (extension.buffer ++ msg)) ⟨front.length, extension.hdrType, -1, false, 0⟩ =
      .ok (some { extension.behind front.length with
        offset := front.length, nextExtensionHeaderType := extension.hdrType }) := by
  have long := (extension.buffer_shape sent).2.1
  have octets {i : Nat} (inside : i < extension.buffer.length) :
      octet (front ++ (extension.buffer ++ msg)) (front.length + i) = .ok (byteAt extension.buffer i) := by
    rw [octet_inside (by simp only [length_append]; omega), byteAt_append extension inside]
  have enough : front.length + 4 ≤ (front ++ (extension.buffer ++ msg)).length := by
    simp only [length_append]
    omega
  cases extension with
  | none => exact absurd rfl sent
  | pduSession outgoingQfi =>
    have flags : byteAt (pduSession outgoingQfi).buffer 2 = outgoingQfi.val :=
      Nat.mod_eq_of_lt (lt_trans outgoingQfi.isLt (by decide))
    have small := outgoingQfi.isLt
    change readPduSessionContainer _ _ = _
    rw [readPduSessionContainer, if_neg (by dsimp only; omega), octets (by omega), flags]
    simp [bind, Except.bind, pure, Except.pure, behind, qfi, Nat.mod_eq_of_lt small, Nat.div_eq_of_lt small]
  | nrRan uninitialised room sn =>
    have flags : byteAt (nrRan uninitialised room sn).buffer 1 / 16 % 16 = 1 := by
      simp only [buffer, fillDlDeliveryStatusReport, byteAt, cons_append, getD_cons_succ,
        getD_cons_zero, BitVec.toNat_ofNat]
      split <;> omega
    change readNrRanContainer _ _ = _
    rw [readNrRanContainer, if_neg (by dsimp only; omega), octets (by omega)]
    simp [bind, Except.bind, pure, Except.pure, behind, qfi, flags]

theorem extensionHeader_sent (sent : extension ≠ none) (some_ : 0 < front.length) :
    extensionHeader (front ++ (extension.buffer ++ msg)) ⟨front.length, extension.hdrType, -1, false, 0⟩ =
      .ok (.again (extension.behind front.length)) := by
  obtain ⟨length, low, high, last⟩ := extension.buffer_shape sent
  have inside : front.length + extension.buffer.length ≤ (front ++ (extension.buffer ++ msg)).length := by
    simp only [length_append]
    omega
  have first := @byteAt_append extension front msg 0 (by omega)
  have final := @byteAt_append extension front msg (extension.buffer.length - 1) (by omega)
  rw [extensionHeader, if_neg (extension.hdrType_ne sent), octet_inside (by dsimp only; omega)]
  simp only [bind, Except.bind, readExtension_sent extension sent]
  rw [add_zero] at first
  rw [first, ← length, if_neg (by omega), octet_inside (by omega), Nat.add_sub_assoc (by omega), final, last]
  rfl

theorem addExtension_sent (sent : extension ≠ none) {room : Nat} {written : List Byte}
    (enough : written.length + 12 ≤ room) : addExtension extension.buffer room (extension.hdrType, written) =
      .ok (.again (noMoreExtHdrs, written ++ extension.buffer)) := by
  obtain ⟨_, low, high, last⟩ := extension.buffer_shape sent
  rw [addExtension, if_neg (extension.hdrType_ne sent), if_pos (by omega), if_neg (by dsimp only; omega),
    octet_inside (by omega), last]
  rfl

end Extension

variable (extension : Extension)

def GtpMessage.headers : List Byte :=
  m.msgHdr gtpGpdu extension.hdrType (m.optionalFields extension.hdrType ++ extension.buffer ++ m.msg).length ++
    m.optionalFields extension.hdrType

def GtpMessage.datagram : List Byte := m.headers extension ++ (extension.buffer ++ m.msg)

theorem optionalFields_length : (m.optionalFields extHdrType).length =
    if m.seqNumFlag || extHdrType ≠ noMoreExtHdrs || m.npduNumFlag then 4 else 0 := by
  unfold GtpMessage.optionalFields
  split <;> rfl

theorem headers_length : (m.headers extension).length = 8 + (m.optionalFields extension.hdrType).length := by
  rw [GtpMessage.headers, length_append]
  rfl

theorem gtpv1uCreateAndSendMsg_eq :
    gtpv1uCreateAndSendMsg m gtpGpdu extension.hdrType (fuel + 2) extension.buffer = .ok (some (m.datagram extension)) := by
  have short : (m.optionalFields extension.hdrType).length ≤ 4 := by
    rw [optionalFields_length]
    split <;> decide
  have copied : walk (addExtension extension.buffer (m.msg.length + hdrMax - 8)) (fuel + 2)
      (extension.hdrType, m.optionalFields extension.hdrType) =
        .ok (m.optionalFields extension.hdrType ++ extension.buffer) := by
    by_cases sent : extension = .none
    · subst sent
      rw [Extension.buffer, append_nil]
      rfl
    · rw [walk, extension.addExtension_sent sent (by unfold hdrMax; omega)]
      rfl
  have length : extension.buffer.length ≤ 12 := by
    by_cases sent : extension = .none
    · subst sent
      exact Nat.zero_le _
    · exact (extension.buffer_shape sent).2.2.1
  rw [gtpv1uCreateAndSendMsg, copied]
  simp only [bind, Except.bind]
  rw [if_pos (by rw [length_append]; unfold hdrMax; omega)]
  simp only [GtpMessage.datagram, GtpMessage.headers, append_assoc]
  rfl

theorem headerOf_datagram (fits : (m.datagram extension).length ≤ 65536) :
    headerOf (m.datagram extension) = ⟨m.npduNumFlag, m.seqNumFlag, decide (extension.hdrType ≠ noMoreExtHdrs), 1, 1,
      gtpGpdu, (m.datagram extension).length - 8, m.teid.toNat⟩ := by
  simp only [GtpMessage.datagram, length_append, headers_length] at fits ⊢
  simp only [headerOf, GtpMessage.headers, GtpMessage.msgHdr, byteAt, bigEndian, length_append]
  generalize (m.optionalFields extension.hdrType).length = optional at fits ⊢
  cases m.npduNumFlag <;> cases m.seqNumFlag <;> by_cases extended : extension.hdrType = noMoreExtHdrs <;>
    simp [extended, gtpGpdu] <;> omega

theorem handleTunnel_datagram (owner : UeidData) (fits : (m.datagram extension).length ≤ 65536) :
    handleTunnel (fuel + 2) owner (m.datagram extension) (headerOf (m.datagram extension)) =
      .ok (handOver (m.datagram extension).length owner (extension.behind (m.headers extension).length)) := by
  rw [headerOf_datagram m extension fits, headers_length, optionalFields_length, handleTunnel]
  by_cases sent : extension = .none
  · subst sent
    cases m.npduNumFlag <;> cases m.seqNumFlag <;> rfl
  have extended := extension.hdrType_ne sent
  have twelve : (m.headers extension).length = 12 := by
    rw [headers_length, optionalFields_length]
    simp [extended]
  have type : octet (m.datagram extension) 11 = .ok extension.hdrType := by
    have small : extension.hdrType < 256 := by
      cases extension <;> exact Nat.lt_of_sub_eq_succ rfl
    rw [octet_inside (by rw [GtpMessage.datagram, length_append]; omega)]
    simp [byteAt, GtpMessage.datagram, GtpMessage.headers, GtpMessage.msgHdr, GtpMessage.optionalFields, bigEndian,
      extended, Nat.mod_eq_of_lt small]
  have turn := @Extension.extensionHeader_sent extension (m.headers extension) m.msg sent (by omega)
  rw [twelve] at turn
  simp only [extended, ne_eq, not_false_eq_true, decide_true, Bool.true_or, Bool.or_true, if_true, type, bind,
    Except.bind]
  rw [walk, GtpMessage.datagram, turn]
  rfl

def Received.payload (received : Received) (msgBuf : List Byte) : List Byte :=
  match received.handed with
  | none => []
  | some handed => (msgBuf.drop handed.sduBuffer).take handed.sduBufferSize

theorem payload_handOver (msgBuf : List Byte) (owner : UeidData) (s : ExtState) :
    (handOver msgBuf.length owner s).payload msgBuf = msgBuf.drop s.offset := by
  unfold Received.payload handOver
  by_cases inside : s.offset < msgBuf.length
  · rw [if_pos inside]
    exact take_of_length_le (by rw [length_drop])
  · rw [if_neg inside]
    exact (drop_eq_nil_of_le (Nat.le_of_not_lt inside)).symm

theorem sdap_handOver (msgBufLen start : Nat) (owner : UeidData) :
    ∀ handed ∈ (handOver msgBufLen owner (extension.behind start)).handed, handed.owner = owner ∧ handed.sdap =
        if owner.callBackSdap.isSome then extension.qfi.map (fun qfi => ((qfi.val : Int), false)) else none := by
  intro handed member
  unfold handOver at member
  split at member
  · cases member
    cases extension with
    | none | nrRan => simp [Extension.behind, Extension.qfi]
    | pduSession outgoingQfi =>
      simp [Extension.behind, Extension.qfi]
  · cases member

/-- The sender makes a datagram of a G-PDU, and unless it is too long, the peer hands on the same
payload, with the QFI where one was sent and the tunnel is one of SDAP. -/
def RoundTrips (globGtp : GtpEndPoints) (h : Int) (owner : UeidData) : Prop :=
  ∃ bytes, gtpv1uCreateAndSendMsg m gtpGpdu extension.hdrType fuel extension.buffer = .ok (some bytes) ∧
    ∀ fits : bytes.length ≤ 65536, ∃ received,
      gtpv1uReceiver fuel globGtp h ⟨bytes, fits⟩ = .ok (some received) ∧ received.returned = 0 ∧
      received.payload bytes = m.msg ∧ ∀ handed ∈ received.handed, handed.owner = owner ∧ handed.sdap =
          if owner.callBackSdap.isSome then extension.qfi.map (fun qfi => ((qfi.val : Int), false)) else none

end OranSlice.Gtpu
