import OranSlice.Core.BitCodec

/-! The parser of uplink MAC PDUs, with every access to the bytes of a PDU explicit. -/

namespace OranSlice.Mac.UlPdu

open BitCodec

def shortBsrTable : List Nat :=
  [0, 10, 14, 20, 28, 38, 53, 74, 102, 142, 198, 276, 384, 535, 745, 1038, 1446, 2014, 2806, 3909, 5446, 7587,
    10570, 14726, 20516, 28581, 39818, 55474, 77284, 107669, 150000, 300000]

def longBsrTable : List Nat :=
  [0, 10, 11, 12, 13, 14, 15, 16, 17, 18, 19, 20, 22, 23, 25, 26, 28, 30, 32, 34, 36, 38, 40, 43, 46,
    49, 52, 55, 59, 62, 66, 71, 75, 80, 85, 91, 97, 103, 110, 117, 124, 132, 141, 150, 160, 170, 181,
    193, 205, 218, 233, 248, 264, 281, 299, 318, 339, 361, 384, 409, 436, 464, 494, 526, 560, 597, 635,
    677, 720, 767, 817, 870, 926, 987, 1051, 1119, 1191, 1269, 1351, 1439, 1532, 1631, 1737, 1850, 1970,
    2098, 2234, 2379, 2533, 2698, 2873, 3059, 3258, 3469, 3694, 3934, 4189, 4461, 4751, 5059, 5387,
    5737, 6109, 6506, 6928, 7378, 7857, 8367, 8910, 9488, 10104, 10760, 11458, 12202, 12994, 13838,
    14736, 15692, 16711, 17795, 18951, 20181, 21491, 22885, 24371, 25953, 27638, 29431, 31342, 33376,
    35543, 37850, 40307, 42923, 45709, 48676, 51836, 55200, 58784, 62599, 66663, 70990, 75598, 80505,
    85730, 91295, 97221, 103532, 110252, 117409, 125030, 133146, 141789, 150992, 160793, 171231, 182345,
    194182, 206786, 220209, 234503, 249725, 265935, 283197, 301579, 321155, 342002, 364202, 387842,
    413018, 439827, 468377, 498780, 531156, 565634, 602350, 641449, 683087, 727427, 774645, 824928,
    878475, 935498, 996222, 1060888, 1129752, 1203085, 1281179, 1364342, 1452903, 1547213, 1647644,
    1754595, 1868488, 1989774, 2118933, 2256475, 2402946, 2558924, 2725027, 2901912, 3090279, 3290873,
    3504487, 3731968, 3974215, 4232186, 4506902, 4799451, 5110989, 5442750, 5796046, 6172275, 6572925,
    6999582, 7453933, 7937777, 8453028, 9001725, 9586039, 10208280, 10870913, 11576557, 12328006,
    13128233, 13980403, 14887889, 15854280, 16883401, 17979324, 19146385, 20389201, 21712690, 23122088,
    24622972, 26221280, 27923336, 29735875, 31666069, 33721553, 35910462, 38241455, 40723756, 43367187,
    46182206, 49179951, 52372284, 55771835, 59392055, 63247269, 67352729, 71724679, 76380419, 81338368,
    162676736, 4294967295]

inductive UlLcid where
  | ccch1
  | srb1
  | srb2
  | dtch (id : Nat)
  | ccch
  | recommendedBitrateQuery
  | multiEntryPhr4Oct
  | configuredGrantConfirmation
  | multiEntryPhr1Oct
  | singleEntryPhr
  | cRnti
  | sTruncatedBsr
  | lTruncatedBsr
  | sBsr
  | lBsr
  | padding
  | unknown (id : Nat)
deriving DecidableEq, Repr

variable (byte : Byte) (ctx : UlContext) (ue : UeUl) (first : Byte) (lcid : Nat) (pduP : List Byte)
  (ce i macLen pduLen : Nat)

/-- The LCID is in the low 6 bits of a subheader; those of data channels are 4 to 32. -/
def UlLcid.ofByte : UlLcid :=
  match byte.toNat % 64 with
  | 0x00 => .ccch1
  | 0x01 => .srb1
  | 0x02 => .srb2
  | 0x34 => .ccch
  | 0x35 => .recommendedBitrateQuery
  | 0x36 => .multiEntryPhr4Oct
  | 0x37 => .configuredGrantConfirmation
  | 0x38 => .multiEntryPhr1Oct
  | 0x39 => .singleEntryPhr
  | 0x3a => .cRnti
  | 0x3b => .sTruncatedBsr
  | 0x3c => .lTruncatedBsr
  | 0x3d => .sBsr
  | 0x3e => .lBsr
  | 0x3f => .padding
  | id => if 4 ≤ id ∧ id ≤ 32 then .dtch id else .unknown id

structure UlContext where
  harqPid : Int
  rnti : Nat
  ra : List (Bool × Nat)
  /-- The result of `compute_ph_factor` for the PUSCH of the HARQ process. -/
  phFactor : Int

/-- What the parser changes; `indicated` holds the SDUs given to RLC, and `initialUlRrc` how often an initial
RRC message was prepared. -/
structure UeUl where
  hasCellGroup : Bool
  (estimatedUlBuffer ph ph0 pcmax : Int := 0)
  indicated : List (Nat × List Byte) := []
  initialUlRrc : Nat := 0
deriving DecidableEq, Repr

inductive Fault where
  | outOfBounds
  | assertion
  | outOfFuel
deriving DecidableEq, Repr

/-- The byte at an offset from a pointer; a pointer is modelled by the bytes from it to the end
of the PDU. -/
def readByte : Except Fault Byte :=
  match pduP[i]? with
  | some byte => .ok byte
  | none => .error .outOfBounds

def readSdu (length : Nat) : Except Fault (List Byte) :=
  if i + length ≤ pduP.length then .ok ((pduP.drop i).take length) else .error .outOfBounds

def toInt (value : Int) : Int := (value + 2 ^ 31) % 2 ^ 32 - 2 ^ 31

def overestimBsrIndex (realIndex : Nat) : Nat := if realIndex > 0 then realIndex + 1 else realIndex

def estimate (table : List Nat) (index : Nat) : Int :=
  let idx := min (overestimBsrIndex index) (table.length - 1)
  table.getD idx 0

def estimateUlBufferShortBsr : Except Fault Int := do
  let bsr ← readByte pduP ce
  return toInt (estimate shortBsrTable (bsr.toNat % 32))

def longBsrSum (pduP : List Byte) : Nat → Nat → Int → Except Fault Int
  | _, 0, size => .ok size
  | i, active + 1, size => do
      let index ← readByte pduP i
      longBsrSum pduP (i + 1) active (toInt (size + estimate longBsrTable index.toNat))

def activeGroups : Nat := (byteBits byte).count true

/-- The length field is not looked at: a buffer size is read for each group in the first byte. -/
def estimateUlBufferLongBsr : Except Fault Int := do
  let groups ← readByte pduP ce
  longBsrSum pduP (ce + 1) (activeGroups groups) 0

def hasLongLength : Bool := first.getLsbD 6

/-- The length of a sub-PDU and of its subheader, or `none` if the subheader is not complete. -/
def getMacLen : Except Fault (Option (Nat × Nat)) := do
  if pduLen < 2 then return none
  let first ← readByte pduP 0
  if hasLongLength first then
    if pduLen < 3 then return none
    let high ← readByte pduP 1
    let low ← readByte pduP 2
    return some (high.toNat * 256 + low.toNat, 3)
  let length ← readByte pduP 1
  return some (length.toNat, 2)

inductive Next where
  | ret (code : Int)
  | advance (macSubheaderLen macLen : Nat) (done : Bool)
deriving DecidableEq, Repr

def indicate (sdu : List Byte) : UeUl :=
  { ue with indicated := ue.indicated ++ [(lcid, sdu)] }

def storePhr (second : Byte) : UeUl :=
  let value : Int := (first.toNat % 64 : Nat)
  let ph := if value < 55 then value - 32 else value - 32 + (value - 54)
  { ue with ph := ph + ctx.phFactor, ph0 := ph, pcmax := (second.toNat % 64 : Nat) - 29 }

def lowerBuffer : UeUl :=
  { ue with
    estimatedUlBuffer := if ue.estimatedUlBuffer ≥ macLen then ue.estimatedUlBuffer - macLen else 0 }

def UlContext.hasIdleRa : Bool := ctx.ra.any (fun ra => ra.1 && ra.2 = ctx.rnti)

def processShortBsr : Except Fault (UeUl × Next) := do
  if pduLen < 1 then return (ue, .ret 0)
  let size ← estimateUlBufferShortBsr pduP 1
  return ({ ue with estimatedUlBuffer := size }, .advance 1 1 false)

def processLongBsr : Except Fault (UeUl × Next) := do
  match ← getMacLen pduP pduLen with
  | none => return (ue, .ret 0)
  | some (macLen, macSubheaderLen) =>
    let size ← estimateUlBufferLongBsr pduP macSubheaderLen
    return ({ ue with estimatedUlBuffer := size }, .advance macSubheaderLen macLen false)

/-- The C-RNTI is read only for the message of the assertion. -/
def processCRnti : Except Fault (UeUl × Next) := do
  if ctx.hasIdleRa then
    let _ ← readByte pduP 1
    let _ ← readByte pduP 2
    throw .assertion
  return (ue, .advance 1 2 false)

def processSingleEntryPhr : Except Fault (UeUl × Next) := do
  if ctx.harqPid < 0 then return (ue, .advance 1 0 true)
  let ph ← readByte pduP 1
  let pcmax ← readByte pduP 2
  return (storePhr ctx ue ph pcmax, .advance 1 2 false)

def processMultiEntryPhr : Except Fault (UeUl × Next) := do
  match ← getMacLen pduP pduLen with
  | none => return (ue, .ret 0)
  | some (macLen, macSubheaderLen) => return (ue, .advance macSubheaderLen macLen true)

def processSrb : Except Fault (UeUl × Next) := do
  match ← getMacLen pduP pduLen with
  | none => return (ue, .ret 0)
  | some (macLen, macSubheaderLen) =>
    if ue.hasCellGroup = false then throw .assertion
    let sdu ← readSdu pduP macSubheaderLen macLen
    return (indicate ue lcid sdu, .advance macSubheaderLen macLen false)

/-- An initial RRC message is prepared, which gives the UE its cell group. -/
def processCcch : Except Fault (UeUl × Next) := do
  let sdu ← readSdu pduP 1 macLen
  return (indicate { ue with hasCellGroup := true, initialUlRrc := ue.initialUlRrc + 1 } 0 sdu, .advance 1 macLen false)

def processCcch1 : Except Fault (UeUl × Next) := do
  if pduLen < 1 + 8 then return (ue, .ret 0)
  let bytes ← readSdu pduP 0 (1 + 8)
  if bytes.all (· = 0) then return (ue, .advance 1 8 true)
  processCcch ue pduP 8

def processDtch : Except Fault (UeUl × Next) := do
  match ← getMacLen pduP pduLen with
  | none => return (ue, .ret 0)
  | some (macLen, macSubheaderLen) =>
    let sdu ← readSdu pduP macSubheaderLen macLen
    return (lowerBuffer (indicate ue lcid sdu) macLen, .advance macSubheaderLen macLen false)

def processLcid :
    UlLcid → Except Fault (UeUl × Next)
  | .recommendedBitrateQuery => .ok (ue, .advance 1 2 false)
  | .configuredGrantConfirmation => .ok (ue, .advance 1 0 false)
  | .sBsr | .sTruncatedBsr => processShortBsr ue pduP pduLen
  | .lBsr | .lTruncatedBsr => processLongBsr ue pduP pduLen
  | .cRnti => processCRnti ctx ue pduP
  | .singleEntryPhr => processSingleEntryPhr ctx ue pduP
  | .multiEntryPhr1Oct | .multiEntryPhr4Oct => processMultiEntryPhr ue pduP pduLen
  | .padding => .ok (ue, .advance 1 0 true)
  | .srb1 => processSrb ue 1 pduP pduLen
  | .srb2 => processSrb ue 2 pduP pduLen
  | .ccch => processCcch ue pduP 6
  | .ccch1 => processCcch1 ue pduP pduLen
  | .dtch lcid => processDtch ue lcid pduP pduLen
  | .unknown _ => .ok (ue, .ret (-1))

def processSubPdu : Except Fault (UeUl × Next) := do
  let first ← readByte pduP 0
  processLcid ctx ue pduP pduLen (UlLcid.ofByte first)

/-- The remaining length is unsigned: it is never below 0 and wraps instead. -/
def remainingLen (size : Nat) : Nat := (pduLen + 2 ^ 32 - size) % 2 ^ 32

def subPdus (ctx : UlContext) : Nat → UeUl → List Byte → Nat → Except Fault (UeUl × Int)
  | 0, _, _, _ => .error .outOfFuel
  | fuel + 1, ue, pduP, pduLen =>
    if pduLen = 0 then .ok (ue, 0)
    else do
      let (ue, next) ← processSubPdu ctx ue pduP pduLen
      match next with
      | .ret code => return (ue, code)
      | .advance macSubheaderLen macLen done =>
        if done then return (ue, 0)
        let size := macSubheaderLen + macLen
        subPdus ctx fuel ue (pduP.drop size) (remainingLen pduLen size)

/-- The first byte is looked at before the length. -/
def nrProcessMacPdu (pdu : List Byte) : Except Fault (UeUl × Int) := do
  let _ ← readByte pdu 0
  subPdus ctx (pdu.length + 1) ue pdu pdu.length

end OranSlice.Mac.UlPdu
