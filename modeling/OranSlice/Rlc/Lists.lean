import OranSlice.Core.BitCodec
import OranSlice.Core.Window

/-! The PDUs and SDU segments that RLC entities keep in ordered lists. -/

namespace OranSlice.Rlc

open BitCodec

def nrSduMax : Nat := 16000

/-- A received PDU. Its data is freed when the SDU is delivered. -/
structure Pdu where
  sn : Int
  (so size : Nat)
  (isFirst isLast : Bool)
  data : Option (List Byte)
deriving DecidableEq, Repr

/-- An SDU of the upper layer; `ident` tells SDUs apart that have the same content. -/
structure Sdu where
  ident : Nat
  upperLayerId : Int
  data : List Byte
deriving DecidableEq, Repr

/-- A segment of an SDU. The SN is -1 until it is assigned; that is before the SDU is
segmented, so all segments of an SDU carry the same SN. -/
structure SduSegment where
  sdu : Sdu
  sn : Int
  (so size : Nat)
  (isFirst isLast : Bool)
deriving DecidableEq, Repr

def nrRlcNewSdu (ident : Nat) (buffer : List Byte) (upperLayerId : Int) : SduSegment where
  sdu := ⟨ident, upperLayerId, buffer⟩
  sn := -1
  so := 0
  size := buffer.length
  isFirst := true
  isLast := true

def SduSegment.bytes (segment : SduSegment) : List Byte :=
  (segment.sdu.data.drop segment.so).take segment.size

/-- The order of the lists: by SN, and by SO for the same SN. An item goes before the
first one that comes after it. -/
def comesAfter (snCompare : Int → Int → Int) (curSn : Int) (curSo : Nat) (sn : Int) (so : Nat) : Bool :=
  decide (0 < snCompare curSn sn) || (curSn == sn && decide (so < curSo))

def nrRlcPduListAdd (snCompare : Int → Int → Int) (list : List Pdu) (pdu : Pdu) : List Pdu :=
  list.orderedInsert (fun pdu cur => comesAfter snCompare cur.sn cur.so pdu.sn pdu.so = true) pdu

def nrRlcSduSegmentListAdd (snCompare : Int → Int → Int) (list : List SduSegment)
    (segment : SduSegment) : List SduSegment :=
  list.orderedInsert (fun segment cur =>
    comesAfter snCompare cur.sn cur.so segment.sn segment.so = true) segment

end OranSlice.Rlc
