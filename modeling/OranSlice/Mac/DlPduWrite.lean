import OranSlice.Core.BitCodec
import OranSlice.Mac.TransportBlock

/-! How the gNB writes the transport block of a new transmission: the pending MAC control elements, the data that RLC
gives, and padding. -/

namespace OranSlice.Mac

open BitCodec

structure PdcchStateInd where
  isScheduled : Bool := false
  (servingCellId coresetId tciStateId : Nat := 0)

/-- The states activated by a control element with a bit per state: TCI states of the PDSCH, or trigger
states of aperiodic CSI, at most 128. -/
structure StatesActDeact where
  isScheduled : Bool := false
  (servingCellId bwpId : Nat := 0)
  highest : Fin 128 := 0
  active : Nat → Bool := fun _ => false

structure SpCsiReportingPucch where
  isScheduled : Bool := false
  (servingCellId bwpId : Nat := 0)
  s0tos3ActDeact : Nat → Bool := fun _ => false

structure SpZpCsiRs where
  (isScheduled actDeact : Bool := false)
  (servCellId bwpId rscId : Nat := 0)

structure CsiRsIm where
  (isScheduled actDeact : Bool := false)
  (servCellId bwpId : Nat := 0)
  im : Bool := false
  (csiImRscId nzpCsiRscId : Nat := 0)
  tciStateIds : List Nat := []

structure MacCeCtrl where
  taApply : Bool := false
  taUpdate : Int := 31
  pdcchStateInd : PdcchStateInd := {}
  spCsiReportingPucch : SpCsiReportingPucch := {}
  (pdschTciStatesActDeact aperiCsiTrigger : StatesActDeact := {})
  spZpCsiRs : SpZpCsiRs := {}
  csiIm : CsiRsIm := {}

def packed (fields : List (Nat × Nat)) : Byte :=
  BitVec.ofNat 8 (fields.foldl (fun acc (width, value) => acc * 2 ^ width + value % 2 ^ width) 0)

variable (lcid : Nat) (ce : StatesActDeact) (tagId : Nat)

def fixedSubheader : Byte := packed [(2, 0), (6, lcid)]

def taByte (taUpdate : Int) : Byte := packed [(2, tagId), (6, (taUpdate % 64).toNat)]

def pdcchTciCe (ce : PdcchStateInd) : List Byte :=
  [fixedSubheader 0x34, packed [(5, ce.servingCellId), (3, ce.coresetId % 16 / 2)],
    packed [(1, ce.coresetId), (7, ce.tciStateId)]]

/-- The code leaves the reserved bit of the first octet as it finds it; it is 0 here. -/
def spCsiReportingCe (ce : SpCsiReportingPucch) : List Byte :=
  [fixedSubheader 0x33, packed [(1, 0), (5, ce.servingCellId), (2, ce.bwpId)],
    packed [(4, 0), (1, (ce.s0tos3ActDeact 3).toNat), (1, (ce.s0tos3ActDeact 2).toNat),
      (1, (ce.s0tos3ActDeact 1).toNat), (1, (ce.s0tos3ActDeact 0).toNat)]]

def StatesActDeact.numOctets : Nat := ce.highest.val / 8 + 1

def StatesActDeact.octet (k : Nat) : Byte :=
  BitVec.ofNat 8 ((List.range 8).foldl (fun acc i => if ce.active (8 * k + i) then acc ||| 2 ^ i else acc) 0)

def statesCe : List Byte :=
  [packed [(1, 0), (1, 0), (6, lcid)], packed [(8, 1 + ce.numOctets)],
    packed [(1, 0), (5, ce.servingCellId), (2, ce.bwpId)]] ++ (List.range ce.numOctets).map ce.octet

theorem statesCe_length : (statesCe lcid ce).length = 3 + ce.numOctets := by
  simp [statesCe]
  omega

theorem StatesActDeact.numOctets_le : ce.numOctets ≤ 16 := by
  rw [StatesActDeact.numOctets]
  omega

def pdschTciCe : List Byte := statesCe 0x35 ce

def aperiodicCsiCe : List Byte := statesCe 0x36 ce

def spZpCsiRsCe (ce : SpZpCsiRs) : List Byte :=
  [fixedSubheader 0x30, packed [(1, ce.actDeact.toNat), (5, ce.servCellId), (2, ce.bwpId)],
    packed [(4, 0), (4, ce.rscId)]]

/-- The TCI states are sent only with an activation; there is no length field. -/
def csiImCe (ce : CsiRsIm) : List Byte :=
  [fixedSubheader 0x37, packed [(1, ce.actDeact.toNat), (5, ce.servCellId), (2, ce.bwpId)],
    packed [(1, 0), (1, ce.im.toNat), (6, ce.nzpCsiRscId)]] ++
  (if ce.im then [packed [(2, 0), (6, ce.csiImRscId)]] else []) ++
  (if ce.actDeact then ce.tciStateIds.map (fun tciStateId => packed [(2, 0), (6, tciStateId)]) else [])

def scheduledCe (isScheduled : Bool) (ce : List Byte) : List Byte := if isScheduled then ce else []

/-- All MAC CEs with their subheaders; `none` is the fatal assertion on the timing advance command. -/
def nrWriteCeDlschPdu (ctrl : MacCeCtrl) (drxCmd : Nat) (ueContResId : Option (Vector Byte 6)) :
    Option (List Byte) :=
  if ctrl.taApply && decide (64 ≤ ctrl.taUpdate) then none
  else some (scheduledCe (drxCmd != 255) [fixedSubheader 0x3c] ++
      scheduledCe ctrl.taApply [fixedSubheader 0x3d, taByte tagId ctrl.taUpdate] ++
      (ueContResId.map (fun identity => fixedSubheader 0x3e :: identity.toList)).getD [] ++
      scheduledCe ctrl.pdcchStateInd.isScheduled (pdcchTciCe ctrl.pdcchStateInd) ++
      scheduledCe ctrl.spCsiReportingPucch.isScheduled (spCsiReportingCe ctrl.spCsiReportingPucch) ++
      scheduledCe ctrl.pdschTciStatesActDeact.isScheduled (pdschTciCe ctrl.pdschTciStatesActDeact) ++
      scheduledCe ctrl.aperiCsiTrigger.isScheduled (aperiodicCsiCe ctrl.aperiCsiTrigger) ++
      scheduledCe ctrl.spZpCsiRs.isScheduled (spZpCsiRsCe ctrl.spZpCsiRs) ++
      scheduledCe ctrl.csiIm.isScheduled (csiImCe ctrl.csiIm))

abbrev Sdu := Nat × List Byte

def longSubheader (len : Nat) : List Byte :=
  [packed [(1, 0), (1, 1), (6, lcid)], packed [(8, len / 256)], packed [(8, len)]]

def sduSubPdu (sdu : Sdu) : List Byte := longSubheader sdu.1 sdu.2.length ++ sdu.2

variable {ρ : Type} (macRlcDataReq : ρ → Nat → Nat → List Byte × ρ)

def writeFromLc (lcid : Nat) (bytesInBuffer : BitVec 32) : Nat → Nat → ρ → List Sdu × Nat × ρ
  | 0, room, rlc => ([], room, rlc)
  | fuel + 1, room, rlc =>
    if longSubheaderSize + 1 < room then
      let (data, rlc) := macRlcDataReq rlc lcid (min bytesInBuffer.toNat (room - longSubheaderSize))
      if data.length = 0 then ([], room, rlc)
      else
        let (rest, room, rlc) := writeFromLc lcid bytesInBuffer fuel (room - (data.length + longSubheaderSize)) rlc
        ((lcid, data) :: rest, room, rlc)
    else ([], room, rlc)

def writeFromLcs (ue : UeInfo) : List LcConfig → Nat → ρ → List Sdu × ρ
  | [], _, rlc => ([], rlc)
  | lc :: rest, room, rlc =>
    if ue.admitsLc lc.lcid then
      let (sdus, room, rlc) :=
        writeFromLc macRlcDataReq lc.lcid (ue.rlcStatus lc.lcid).bytesInBuffer room room rlc
      let (more, rlc) := writeFromLcs ue rest room rlc
      (sdus ++ more, rlc)
    else writeFromLcs ue rest room rlc

def rlcData (ue : UeInfo) (room : Nat) (rlc : ρ) : List Sdu × ρ :=
  if ue.numTotalBytes = 0 then ([], rlc) else writeFromLcs macRlcDataReq ue ue.lcConfig room rlc

/-- The timing advance group, the test modes in which a UE without data is sent random bytes, and these bytes. -/
structure DlMode where
  tagId : Nat := 0
  (phyTest doRa : Bool := false)
  random : Nat → Byte := fun _ => 0

/-- Random bytes are written up to a multiple of 4, then in words and then up to the end. The block starts at a
multiple of 4. -/
def randomEnd (buf bufEnd : Nat) : Nat := max ((buf + 3) / 4 * 4) bufEnd

def randomSubPdu (mode : DlMode) (written tbs : Nat) : List Byte :=
  if longSubheaderSize < tbs - written then
    let buf := written + longSubheaderSize
    longSubheader 0x3f (tbs - buf) ++ (List.range (randomEnd buf tbs - buf)).map mode.random
  else []

def testData (mode : DlMode) (ue : UeInfo) (written tbs : Nat) : List Byte :=
  if ue.numTotalBytes = 0 ∧ (mode.phyTest ∨ mode.doRa) then randomSubPdu mode written tbs else []

def paddingFor : Nat → List Byte
  | 0 => []
  | room + 1 => fixedSubheader 0x3f :: List.replicate room 0

structure WrittenBlock (ρ : Type) where
  bytes : List Byte
  given : List Sdu
  rlc : ρ

/-- The transport block of an initial transmission; `none` is an assertion, on the timing advance
command or on the room behind the control elements. -/
def writeTransportBlock (mode : DlMode) (ctrl : MacCeCtrl) (ue : UeInfo) (tbs : Nat) (rlc : ρ) :
    Option (WrittenBlock ρ) :=
  (nrWriteCeDlschPdu mode.tagId ctrl 255 none).bind fun ces =>
    if ces.length < tbs then
      let (given, rlc) := rlcData macRlcDataReq ue (tbs - ces.length) rlc
      let body := ces ++ (given.flatMap sduSubPdu ++ testData mode ue ces.length tbs)
      some ⟨body ++ paddingFor (tbs - body.length), given, rlc⟩
    else none

end OranSlice.Mac
