import OranSlice.Core.Totals
import OranSlice.Rlc.UmEntity

/-! Transmission by a UM entity: what one PDU takes from the list of SDUs. -/

namespace OranSlice.Rlc

open BitCodec Totals List

def segmentSizes (list : List SduSegment) : Int := total (fun segment => (segment.size : Int)) list

namespace UmEntity

variable {entity : UmEntity} {size : Nat}

def announced (entity : UmEntity) (list : List SduSegment) : Int :=
  total (fun segment => ((entity.computePduHeaderSize segment + segment.size : Nat) : Int)) list

def queued (entity : UmEntity) : List Byte := entity.txList.flatMap SduSegment.bytes

def headerLength (entity : UmEntity) (pdu : List Byte) : Nat :=
  match take? 2 (bytesToBits pdu) with
  | none => 0
  | some (si, _) =>
    if si = 0 then 1
    else (if entity.snFieldLength = 12 then 2 else 1) + if si &&& 2 == 0 then 0 else 2

def payload (entity : UmEntity) (pdu : List Byte) : List Byte := pdu.drop (entity.headerLength pdu)

def Admitted (entity : UmEntity) : Prop := entity.snFieldLength = 6 ∨ entity.snFieldLength = 12

/-- The first SDU is whole and there is room for a byte of it behind the header of a whole SDU, but not
behind that of a first segment, which is longer by a byte. -/
def StrandsHead (entity : UmEntity) (size : Nat) : Prop :=
  entity.snFieldLength = 12 ∧ size = 2 ∧ ∃ segment ∈ entity.txList.head?,
    segment.isFirst = true ∧ segment.isLast = true ∧ 2 ≤ segment.size

theorem pduHeader_length (admitted : entity.Admitted) (segment : SduSegment) :
    (entity.pduHeader segment).length = 8 * entity.computePduHeaderSize segment := by
  unfold pduHeader computePduHeaderSize
  rcases admitted with short | long
  · cases segment.isFirst <;> cases segment.isLast <;> simp [short]
  · cases segment.isFirst <;> cases segment.isLast <;> simp [long]

theorem sendSegment_pdu (entity : UmEntity) (segment : SduSegment) :
    (entity.sendSegment segment).1 = bitsToBytes (entity.pduHeader segment) ++ segment.bytes := by
  unfold sendSegment
  split <;> rfl

variable {next : UmEntity} {segment sent left : SduSegment}

theorem announced_congr (same : next.snFieldLength = entity.snFieldLength)
    (list : List SduSegment) : next.announced list = entity.announced list := by
  unfold announced computePduHeaderSize
  rw [same]

theorem sendSegment_tx (entity : UmEntity) (segment : SduSegment) :
    (entity.sendSegment segment).2.snFieldLength = entity.snFieldLength ∧
      (entity.sendSegment segment).2.txList = entity.txList ∧
      (entity.sendSegment segment).2.bstatusTxSize = entity.bstatusTxSize ∧
      (entity.sendSegment segment).2.txSize = entity.txSize - segment.size := by
  unfold sendSegment
  split <;> exact ⟨rfl, rfl, rfl, rfl⟩

section

variable (admitted : entity.Admitted) (segment : SduSegment)

include admitted

theorem sendSegment_length :
    (entity.sendSegment segment).1.length = entity.computePduHeaderSize segment + segment.bytes.length := by
  rw [sendSegment_pdu, length_append, bitsToBytes_length _ (pduHeader_length admitted segment)]

theorem headerLength_send :
    entity.headerLength (entity.sendSegment segment).1 = entity.computePduHeaderSize segment := by
  have stream : bytesToBits (entity.sendSegment segment).1 =
      entity.pduHeader segment ++ bytesToBits segment.bytes := by
    rw [sendSegment_pdu, bytesToBits_framed (pduHeader_length admitted segment)]
  unfold headerLength
  rw [stream]
  unfold pduHeader computePduHeaderSize
  rcases admitted with short | long
  · cases segment.isFirst <;> cases segment.isLast <;> simp [short]
  · cases segment.isFirst <;> cases segment.isLast <;> simp [long]

theorem payload_send : entity.payload (entity.sendSegment segment).1 = segment.bytes := by
  unfold payload
  rw [headerLength_send admitted, sendSegment_pdu]
  exact drop_left' (bitsToBytes_length _ (pduHeader_length admitted segment))

end

structure Cut (entity : UmEntity) (size : Nat) (segment sent : SduSegment) (left : List SduSegment) : Prop where
  bytes : sent.bytes ++ left.flatMap SduSegment.bytes = segment.bytes
  sizes : sent.size + segmentSizes left = segment.size
  fits : entity.computePduHeaderSize sent + sent.size ≤ size

theorem cut_whole (sn : Int) (fits : ¬ entity.computePduHeaderSize segment + segment.size > size) :
    entity.Cut size segment { segment with sn := sn } [] where
  bytes := append_nil _
  sizes := add_zero _
  fits := Nat.le_of_not_lt fits

theorem computePduHeaderSize_segment (entity : UmEntity) (segment : SduSegment) :
    entity.computePduHeaderSize { segment with isLast := false } =
      entity.computePduHeaderSize segment +
        if segment.isFirst && segment.isLast && entity.snFieldLength == 12 then 1 else 0 := by
  unfold computePduHeaderSize
  cases segment.isFirst <;> cases segment.isLast <;> cases entity.snFieldLength == 12 <;> rfl

theorem resegment_cut (over_ : entity.computePduHeaderSize segment + segment.size > size)
    (made : entity.resegment segment size = some (sent, left)) : entity.Cut size segment sent [left] := by
  have longer := computePduHeaderSize_segment entity segment
  unfold resegment at made
  dsimp only at made
  split_ifs at made with room
  cases made
  have sameHeader (left : Nat) : entity.computePduHeaderSize { segment with size := left, isLast := false } =
      entity.computePduHeaderSize { segment with isLast := false } := rfl
  generalize entity.computePduHeaderSize { segment with isLast := false } = header at longer room sameHeader ⊢
  have bound : header + segment.size - size ≤ segment.size := by omega
  refine ⟨?_, ?_, ?_⟩
  · simp only [SduSegment.bytes, flatMap_cons, flatMap_nil, append_nil]
    rw [← drop_drop, ← take_add, Nat.sub_add_cancel bound]
  · rw [segmentSizes, total_cons, total_nil]
    dsimp only
    omega
  · rw [sameHeader]
    dsimp only
    omega

def takeOff (entity : UmEntity) (segment : SduSegment) (left rest : List SduSegment) : UmEntity :=
  { entity with
    txList := left ++ rest
    bstatusTxSize := entity.bstatusTxSize - (entity.computePduHeaderSize segment + segment.size : Nat) +
      entity.announced left }

inductive Generates (entity : UmEntity) (size : Nat) : List Byte × UmEntity → Prop
  | nothing : Generates entity size ([], entity)
  | strand (segment : SduSegment) (rest : List SduSegment) (head : entity.txList = segment :: rest)
      (strands : entity.StrandsHead size) : Generates entity size ([], entity.takeOff segment [] rest)
  | send (segment : SduSegment) (rest : List SduSegment) (head : entity.txList = segment :: rest)
      (sent : SduSegment) (left : List SduSegment) (cut : entity.Cut size segment sent left) :
      Generates entity size ((entity.takeOff segment left rest).sendSegment sent)

theorem resegment_none (room : ¬ entity.computePduHeaderSize segment + 1 > size)
    (over_ : entity.computePduHeaderSize segment + segment.size > size)
    (refused : entity.resegment segment size = none) :
    entity.snFieldLength = 12 ∧ size = 2 ∧
      segment.isFirst = true ∧ segment.isLast = true ∧ 2 ≤ segment.size := by
  have longer := computePduHeaderSize_segment entity segment
  unfold resegment at refused
  dsimp only at refused
  split at refused
  · rename_i short
    rw [longer] at short
    split_ifs at short with whole
    · simp only [Bool.and_eq_true, beq_iff_eq] at whole
      have header : entity.computePduHeaderSize segment = 1 := by
        simp [computePduHeaderSize, whole.1.1, whole.1.2]
      exact ⟨whole.2, by omega, whole.1.1, whole.1.2, by omega⟩
    · exact absurd short room
  · cases refused

theorem generates (entity : UmEntity) (size : Nat) : entity.Generates size (entity.generatePdu size) := by
  unfold generatePdu
  split
  · exact .nothing
  rename_i segment rest head
  have gone : entity.takeOff segment [] rest = { entity with
      txList := rest
      bstatusTxSize := entity.bstatusTxSize - (entity.computePduHeaderSize segment + segment.size : Nat) } := by
    simp [takeOff, announced]
  split
  · exact .nothing
  rename_i room
  dsimp only
  rw [← gone]
  split_ifs with over_
  · -- neither the SN nor the list has an influence on the header sizes
    split
    · rename_i refused
      have strands := @resegment_none entity size { segment with sn := entity.txNext } room over_ refused
      apply Generates.strand segment rest head
      exact ⟨strands.1, strands.2.1, segment, by rw [head]; rfl, strands.2.2⟩
    · rename_i sent left made
      have cut := @resegment_cut entity size { segment with sn := entity.txNext } sent left over_ made
      have sends := Generates.send segment rest head sent [left] { cut with }
      exact sends
  · exact .send segment rest head _ [] (cut_whole entity.txNext over_)

theorem generatePdu_strands (strands : entity.StrandsHead size) : ∃ segment rest,
    entity.txList = segment :: rest ∧ 2 ≤ segment.size ∧
      entity.generatePdu size = ([], entity.takeOff segment [] rest) := by
  obtain ⟨long, two, segment, first, isFirst, isLast, atLeast⟩ := strands
  obtain ⟨rest, head⟩ := head?_eq_some_iff.mp first
  have header : entity.computePduHeaderSize segment = 1 := by simp [computePduHeaderSize, isFirst, isLast]
  refine ⟨segment, rest, head, atLeast, ?_⟩
  unfold generatePdu
  rw [head]
  dsimp only
  rw [if_neg (by omega), if_pos (by omega)]
  simp [takeOff, announced, resegment, computePduHeaderSize, long, isFirst, two]

structure AllOrNothing (entity : UmEntity) (size : Nat) : Prop where
  nothing : (entity.generatePdu size).1.length = 0 → (entity.generatePdu size).2 = entity
  fits : (entity.generatePdu size).1.length ≤ size
  bytes : (entity.generatePdu size).1.length ≠ 0 →
    entity.payload (entity.generatePdu size).1 ++ (entity.generatePdu size).2.queued = entity.queued

end UmEntity

/-- A PDU takes what it carries off the list, unless the first SDU is stranded. -/
theorem um_generate_pdu_all_or_nothing_iff {entity : UmEntity} (admitted : entity.Admitted) (size : Nat) :
    entity.AllOrNothing size ↔ ¬ entity.StrandsHead size := by
  constructor
  · intro whole strands
    obtain ⟨segment, rest, head, -, result⟩ := UmEntity.generatePdu_strands strands
    have same := whole.nothing
    rw [result] at same
    have shorter : rest = segment :: rest := (congrArg UmEntity.txList (same rfl)).trans head
    exact cons_ne_self segment rest shorter.symm
  · intro kept
    have cases_ := entity.generates size
    generalize made : entity.generatePdu size = result at cases_
    cases cases_ with
    | nothing =>
      refine ⟨?_, ?_, ?_⟩
      all_goals rw [made]
      · exact fun _ => rfl
      · exact Nat.zero_le size
      · exact fun some_ => absurd rfl some_
    | strand segment rest head strands => exact absurd strands kept
    | send segment rest head sent left cut =>
      have length := @UmEntity.sendSegment_length (entity.takeOff segment left rest) admitted sent
      have payload : entity.payload ((entity.takeOff segment left rest).sendSegment sent).1 = sent.bytes :=
        @UmEntity.payload_send (entity.takeOff segment left rest) admitted sent
      have header : (entity.takeOff segment left rest).computePduHeaderSize sent =
        entity.computePduHeaderSize sent := rfl
      have data : sent.bytes.length ≤ sent.size := length_take_le _ _
      have positive : 1 ≤ entity.computePduHeaderSize sent := by
        unfold UmEntity.computePduHeaderSize
        omega
      refine ⟨?_, ?_, ?_⟩
      all_goals rw [made]
      · omega
      · have fits := cut.fits
        omega
      · intro _
        rw [payload, UmEntity.queued, (UmEntity.sendSegment_tx _ sent).2.1, UmEntity.queued, head,
          UmEntity.takeOff, flatMap_append, flatMap_cons, ← append_assoc, cut.bytes]

def umWithSdu (sdu : List Byte) : Option UmEntity := do
  let entity ← newNrRlcEntityUm 10000000 10000000 10 12
  entity.recvSdu sdu 0

theorem um_generate_pdu_three_bytes : ∃ entity, umWithSdu [1, 2, 3] = some entity ∧ entity.AllOrNothing 3 := by
  refine ⟨_, rfl, (um_generate_pdu_all_or_nothing_iff (Or.inr rfl) 3).mpr ?_⟩
  intro strands
  exact absurd strands.2.1 (by decide)

/-- A grant of two bytes takes an SDU of two bytes off the list and sends nothing. -/
theorem um_generate_pdu_two_bytes :
    ∃ entity, umWithSdu [1, 2] = some entity ∧ entity.queued = [1, 2] ∧
      (entity.generatePdu 2).1 = [] ∧ (entity.generatePdu 2).2.queued = [] ∧ ¬ entity.AllOrNothing 2 := by
  refine ⟨_, rfl, by decide, by decide, by decide, ?_⟩
  intro whole
  exact absurd (whole.nothing (by decide)) (by decide)

end OranSlice.Rlc
