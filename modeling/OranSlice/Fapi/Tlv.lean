import OranSlice.Core.Walk
import OranSlice.Core.BitCodec

/-! Reading FAPI messages: bounded pulls and the lists of TLVs of P5 messages, with every access
explicit. A position may lie behind the end of the message. -/

namespace OranSlice.Fapi

open BitCodec Walk

def readBytes (message : List Byte) (position : Nat) : Nat → Except Fault (List Byte)
  | 0 => .ok []
  | count + 1 => do
      let byte ← readAt message position
      let rest ← readBytes message (position + 1) count
      return byte :: rest

def number (bytes : List Byte) : Nat := bytes.foldl (fun value byte => value * 256 + byte.toNat) 0

/-- A value of some bytes if they are all there (`none` is the result 0), and where reading goes on. -/
def pull (width : Nat) (message : List Byte) (position : Nat) : Except Fault (Option Nat × Nat) :=
  if position + width ≤ message.length then do
    let bytes ← readBytes message position width
    return (some (number bytes), position + width)
  else return (none, position)

def pull8 := pull 1

def pull16 := pull 2

def pull32 := pull 4

inductive ValueKind where
  | uint8
  | uint16
  | uint32
  | ipv4Address
  | ipv6Address
deriving DecidableEq, Repr

def ValueKind.width : ValueKind → Nat
  | uint8 => 1
  | uint16 => 2
  | uint32 => 4
  | ipv4Address => 4
  | ipv6Address => 16

structure Tl where
  (tag length : Nat)
deriving DecidableEq, Repr

variable (config : Option VendorCodec) (unpackFns : List (Nat × ParamTlv)) (message : List Byte)
  (length : Nat) (tl : Tl) (s : TlvList) (position numBadTags : Nat)

def unpackTl : Except Fault (Option Tl × Nat) := do
  match ← pull16 message position with
  | (none, position) => return (none, position)
  | (some tag, position) =>
    match ← pull16 message position with
    | (none, position) => return (none, position)
    | (some length, position) => return (some { tag, length }, position)

def getTlvPadding (tlvLength : Nat) : Nat := (4 - tlvLength % 4) % 4

def maxBadTag : Nat := 3

def vendorExtensionMinTagValue : Nat := 0xF000

def vendorExtensionMaxTagValue : Nat := 0xFFFF

/-- The callback for vendor extensions; it reads on from where it is called. -/
structure VendorCodec where
  unpack : Tl → List Byte → Nat → Int × Nat
  forward : ∀ tl message position, position ≤ (unpack tl message position).2

/-- Without a callback vendor extensions are left to be read as further TLVs. -/
def unpackVendorExtensionTlv (message : List Byte) (position : Nat) :
    Int × Nat :=
  match config with
  | some codec => codec.unpack tl message position
  | none => (1, position)

/-- Goes past an unknown TLV; `none` if there are too many of them or it does not end in the message. -/
def skipUnknown : Option (Nat × Nat) :=
  if numBadTags + 1 > maxBadTag then none
  else if position + length ≤ message.length then
    some (position + length + getTlvPadding length, numBadTags + 1)
  else none

/-- Where reading goes on behind the tag and length of a TLV that is not in the table, and the number of bad tags. -/
def skipTlv :
    Option (Nat × Nat) :=
  if vendorExtensionMinTagValue ≤ tl.tag ∧ tl.tag ≤ vendorExtensionMaxTagValue then
    match unpackVendorExtensionTlv config tl message position with
    | (result, position) =>
      if result = 0 then none
      else if result < 0 then skipUnknown message tl.length position numBadTags
      else some (position, numBadTags)
  else skipUnknown message tl.length position numBadTags

def numConfigTlvsToReportTag : Nat := 0x0005

inductive ParamTlv where
  | value (kind : ValueKind)
  | configTlvsToReport
deriving DecidableEq, Repr

structure Report where
  (tag length value : Nat := 0)
deriving DecidableEq, Repr

structure TlvList where
  position : Nat
  numBadTags : Nat := 0
  fields : Nat → Nat := fun _ => 0
  configTlvsToReportList : List Report := []

def sizeofUint8Tlv : Nat := 6

def sizeofPointer : Nat := 8

/-- The entry of a list that was allocated for as many pointers, not entries. -/
def reportAt (count i : Nat) : Except Fault Report :=
  if (i + 1) * sizeofUint8Tlv ≤ count * sizeofPointer then .ok {} else .error .outOfBounds

def unpackReports (message : List Byte) (count : Nat) : Nat → Nat → Except Fault (List Report × Nat)
  | 0, position => .ok ([], position)
  | left + 1, position => do
      let entry ← reportAt count (count - (left + 1))
      let (tag, position) ← pull16 message position
      let (length, position) ← pull8 message position
      let (value, position) ← pull8 message position
      let entry := { tag := tag.getD entry.tag, length := length.getD entry.length, value := value.getD entry.value }
      let (rest, position) ← unpackReports message count left (position + getTlvPadding entry.length)
      return (entry :: rest, position)

def unpackConfigTlvsToReport : Except Fault (Bool × TlvList) := do
  let (value, position) ← pull16 message s.position
  -- without a value the one of an earlier TLV is still there
  let count := value.getD (s.fields numConfigTlvsToReportTag)
  let (reports, position) ← unpackReports message count count (position + getTlvPadding tl.length)
  return (value.isSome, { s with
    position := position
    fields := Function.update s.fields numConfigTlvsToReportTag count
    configTlvsToReportList := reports })

def unpackParamTlv : ParamTlv → Except Fault (Bool × TlvList)
  | .configTlvsToReport => unpackConfigTlvsToReport message tl s
  | .value kind => do
      let (value, position) ← pull kind.width message s.position
      return (value.isSome, { s with
        position := position + getTlvPadding tl.length
        fields := Function.update s.fields tl.tag (value.getD (s.fields tl.tag)) })

def tlvListTurn :
    Except Fault (Turn TlvList (Nat × TlvList)) :=
  if s.position < message.length then do
    match ← unpackTl message s.position with
    | (none, position) => return .stop (0, { s with position })
    | (some tl, position) =>
      match unpackFns.lookup tl.tag with
      | some row =>
        match ← unpackParamTlv message tl { s with position } row with
        | (false, s) => return .stop (0, s)
        | (true, s) => return .again s
      | none =>
        match skipTlv config message tl position s.numBadTags with
        | none => return .stop (0, { s with position })
        | some (position, numBadTags) => return .again { s with position, numBadTags }
  else return .stop (1, s)

def unpackNrTlvList (fuel : Nat)
    (message : List Byte) (position : Nat) : Except Fault (Nat × TlvList) :=
  walk (tlvListTurn config unpackFns message) fuel { position }

structure GenericTlv where
  (tag length : Nat := 0)
  value : List Nat := []
deriving DecidableEq, Repr

def pullArray16 (message : List Byte) : Nat → Nat → Except Fault (List Nat × Nat)
  | 0, position => .ok ([], position)
  | left + 1, position => do
      let (value, position) ← pull16 message position
      let (rest, position) ← pullArray16 message left position
      return (value.getD 0 :: rest, position)

def unpackGenericValue : Except Fault (List Nat × Nat) :=
  match length with
  | 1 => do
      let (value, position) ← pull8 message position
      return ([value.getD 0], position)
  | 2 => do
      let (value, position) ← pull16 message position
      return ([value.getD 0], position)
  | 4 => do
      let (value, position) ← pull32 message position
      return ([value.getD 0], position)
  | 10 => pullArray16 message 5 position
  | _ => return ([], position)

def configDlBandwidthTag : Nat := 0x1001

def configRssiMeasurementTag : Nat := 0x1028

def genericTlvs (message : List Byte) : Nat → List GenericTlv → Nat → Nat → Except Fault (List GenericTlv × Nat)
  | 0, elements, _, position => .ok (elements, position)
  | left + 1, elements, numBadTags, position => do
      let i := elements.length - (left + 1)
      let element ← readAt elements i
      match ← unpackTl message position with
      | (none, position) => return (elements, position)
      | (some tl, position) =>
        let bad := tl.tag < configDlBandwidthTag ∨ tl.tag > configRssiMeasurementTag
        let numBadTags := if bad then numBadTags + 1 else numBadTags
        let elements := elements.set i { element with tag := tl.tag, length := tl.length }
        if bad ∧ numBadTags > maxBadTag then return (elements, position)
        else
          let (value, position) ← unpackGenericValue message tl.length position
          let elements := elements.set i { tag := tl.tag, length := tl.length, value := value }
          genericTlvs message left elements numBadTags (position + getTlvPadding tl.length)

def unpackNrGenericTlvList (tlvCount : Nat) (message : List Byte) (position : Nat) :
    Except Fault (List GenericTlv × Nat) :=
  genericTlvs message tlvCount (List.replicate tlvCount {}) 0 position

end OranSlice.Fapi
