import OranSlice.Rlc.StatusRejection
import OranSlice.Rlc.UmReassembly

/-! Segments of an SDU in any order, with overlaps and repetitions: AM and UM receivers deliver the SDU
once, when all of it has arrived. -/

namespace OranSlice.Rlc

open BitCodec Window Cover Runs UmEntity List

namespace UmEntity

variable {length : Nat} {m window x : Int} {entity : UmEntity} {sdu : List Byte}

theorem decodeSegment_congr {other : UmEntity} (same : other.snFieldLength = entity.snFieldLength)
    (buffer : List Byte) : other.decodeSegment buffer = entity.decodeSegment buffer := by
  unfold decodeSegment
  rw [same]

theorem recvPdu_segment {buffer : List Byte} {pdu : DataPdu} (read : entity.decodeSegment buffer = some pdu)
    (segment : ¬ (pdu.isFirst = true ∧ pdu.isLast = true)) : entity.recvPdu buffer = entity.recvSegment pdu := by
  obtain ⟨si, stream, flags, isFirst, isLast, _⟩ := decodeSegment_spec read
  have partly : si ≠ 0 := by
    intro zero
    rw [zero] at isFirst isLast
    exact segment ⟨isFirst, isLast⟩
  rw [recvPdu, flags]
  dsimp only
  rw [if_neg partly, read]

structure Awaits (entity : UmEntity) (x : Int) : Prop where
  space : Within entity.snModulus x
  above : 0 ≤ entity.snCompareRx x entity.rxNextReassembly
  fresh : ∀ pdu ∈ entity.rxList, pdu.sn ≠ x

/-- A PDU with some bytes of the SDU, but not with all: that PDU would have no SN. -/
def Carries (entity : UmEntity) (sdu : List Byte) (x : Int) (buffer : List Byte) : Prop :=
  ∃ pdu, entity.decodeSegment buffer = some pdu ∧ pdu.IsSlice sdu x ∧ ¬ (pdu.isFirst = true ∧ pdu.isLast = true)

theorem Awaits.collects (arith : UmSpace length m window) (awaits : entity.Awaits x)
    (ordered : entity.RxOrdered length m window) (sdu : List Byte) :
    entity.Collects length m window x sdu [] := by
  have x_ok : Within m x := ordered.inside.modulus ▸ awaits.space
  obtain ⟨before, after, split⟩ := Split.of_fresh (ordered.inside.lowest_within arith) x_ok
    ordered.inside.rxList ordered.sorted awaits.fresh
  exact ⟨ordered, awaits.above, before, [], after, split, .empty sdu⟩

theorem stages (arith : UmSpace length m window) (x_ok : Within m x) (same : entity.snFieldLength = length)
    (nonempty : sdu ≠ []) (fits : sdu.length ≤ nrSduMax) :
    Gather.Stages recvPdu (entity.Carries sdu x)
      (fun front other buffer => ∀ pdu, entity.decodeSegment buffer = some pdu →
        (∃ k, pdu.so ≤ k ∧ k < pdu.so + pdu.data.length ∧ ¬ Arrived (front.filterMap entity.decodeSegment) k) →
        pdu.data.length ≤ other.rxMaxsize - other.rxSize)
      (fun pieces => Complete sdu (pieces.filterMap entity.decodeSegment)) (.deliverSdu sdu)
      (fun pieces other => other.Collects length m window x sdu (pieces.filterMap entity.decodeSegment))
      (fun other => other.Marks length m window x) where
  collect pieces other buffer collects incomplete carries room := by
    obtain ⟨pdu, read, slice, segment⟩ := carries
    have again := (decodeSegment_congr (collects.ordered.inside.length.trans same.symm) buffer).trans read
    obtain ⟨_, _, _, _, _, first, data, _⟩ := decodeSegment_spec read
    rw [recvPdu_segment again segment, filterMap_append, filterMap_cons_some read]
    rw [first] at segment
    exact collects.recvSegment arith x_ok slice data segment nonempty fits incomplete (room pdu read)
  finish other buffer marks carries := by
    obtain ⟨pdu, read, slice, segment⟩ := carries
    have again := (decodeSegment_congr (marks.ordered.inside.length.trans same.symm) buffer).trans read
    obtain ⟨_, _, _, _, _, first, _⟩ := decodeSegment_spec read
    rw [recvPdu_segment again segment]
    rw [first] at segment
    exact marks.recvSegment arith x_ok slice.sn segment
  grow pieces buffer complete := by
    intro k inside
    rw [filterMap_append]
    exact covered_append.mpr (.inl (complete k inside))

theorem delivered_once (arith : UmSpace length m window) (ordered : entity.RxOrdered length m window)
    (nonempty : sdu ≠ []) (fits : sdu.length ≤ nrSduMax) (awaits : entity.Awaits x)
    {arrivals : List (List Byte)} (carried : ∀ buffer ∈ arrivals, entity.Carries sdu x buffer)
    (room : FindsRoom recvPdu entity.decodeSegment (fun other => other.rxMaxsize - other.rxSize)
      entity arrivals) : DeliveredOnce recvPdu entity.decodeSegment sdu entity arrivals := by
  intro front inside
  have x_ok : Within m x := ordered.inside.modulus ▸ awaits.space
  refine ((stages arith x_ok ordered.inside.length nonempty fits).receive_once
    (awaits.collects arith ordered sdu) (not_complete_nil nonempty) front
    (fun buffer member => carried buffer (inside.subset member)) ?_).1
  intro earlier buffer before _ pdu read new
  exact room earlier buffer (before.trans inside) pdu read new

end UmEntity

/-- AM and UM receivers in any state reached without a change of the SN field length. Segments of an SDU
arrive under an awaited SN, in any order and with any overlaps; each that brings new bytes finds room.
The SDU is delivered once, when all of it has arrived. -/
theorem sdu_delivered_once {sdu : List Byte} (nonempty : sdu ≠ []) (fits : sdu.length ≤ nrSduMax) (x : Int) :
    (∀ {rxMaxsize txMaxsize : Int} {params : AmParams} {snFieldLength : Nat} {start entity : AmEntity}
        (ops : List AmOp) (arrivals : List (List Byte)),
      newNrRlcEntityAm rxMaxsize txMaxsize params snFieldLength = some start →
      Steps AmEntity.step AmOp.KeepsLength start ops → run AmEntity.step start ops = some entity →
      entity.Awaits x → (∀ buffer ∈ arrivals, entity.Carries sdu x buffer) →
      FindsRoom AmEntity.recvPdu (decodeDataPdu entity.cfg)
        (fun other => other.cfg.rxMaxsize - other.rx.rxSize) entity arrivals →
      DeliveredOnce AmEntity.recvPdu (decodeDataPdu entity.cfg) sdu entity arrivals) ∧
    (∀ {rxMaxsize txMaxsize : Int} {tReassembly snFieldLength : Nat} {start entity : UmEntity}
        (ops : List UmOp) (arrivals : List (List Byte)),
      newNrRlcEntityUm rxMaxsize txMaxsize tReassembly snFieldLength = some start →
      Steps step UmOp.KeepsLength start ops → run step start ops = some entity →
      entity.Awaits x → (∀ buffer ∈ arrivals, entity.Carries sdu x buffer) →
      FindsRoom recvPdu entity.decodeSegment (fun other => other.rxMaxsize - other.rxSize) entity arrivals →
      DeliveredOnce recvPdu entity.decodeSegment sdu entity arrivals) := by
  constructor
  · intro rxMaxsize txMaxsize params snFieldLength start entity ops arrivals created keeps reached awaits carried
      room
    have ok := along_final (invariant_along (fun _ _ _ ok keeps taken => ok.step keeps taken) start ops
      (newNrRlcEntityAm_rxOk created) keeps) reached
    exact AmEntity.delivered_once ok nonempty fits awaits carried room
  · intro rxMaxsize txMaxsize tReassembly snFieldLength start entity ops arrivals created keeps reached awaits
      carried room
    obtain ⟨arith, fresh⟩ := newNrRlcEntityUm_ordered created
    have ordered := along_final (invariant_along (fun _ _ _ ordered keeps taken =>
      UmEntity.RxOrdered.step arith ordered keeps taken) start ops fresh keeps) reached
    exact delivered_once arith ordered nonempty fits awaits carried room

def deployedUm : UmEntity where
  tReassembly := 35
  snFieldLength := 12
  snModulus := 2 ^ 12
  windowSize := 2 ^ 12 / 2
  rxMaxsize := 10000000
  txMaxsize := 10000000

section Witness

def amArrivals : List (List Byte) := [[0xA0, 0, 0, 1, 2, 3], [0x90, 0, 1, 2]]

def umArrivals : List (List Byte) := [[0x80, 0, 0, 1, 2, 3], [0x40, 0, 1, 2]]

theorem FindsRoom.of_pair {σ : Type*} {recv : σ → List Byte → σ × List AmEvent}
    {decode : List Byte → Option DataPdu} {room : σ → Int} {s : σ} {first second : List Byte}
    (firstFits : ∀ pdu ∈ decode first, pdu.data.length ≤ room s)
    (secondFits : ∀ pdu ∈ decode second, pdu.data.length ≤ room (recv s first).1) :
    FindsRoom recv decode room s [first, second] := by
  refine Gather.forall_concat_prefix.mpr ⟨fun pdu read _ => firstFits pdu read,
    Gather.forall_concat_prefix.mpr ⟨fun pdu read _ => secondFits pdu read, ?_⟩⟩
  intro front a inside
  simp at inside

theorem sdu_delivered_in_halves : ∃ am um,
    newNrRlcEntityAm 100000 100000 defaultAmParams 12 = some am ∧
      newNrRlcEntityUm 10000000 10000000 35 12 = some um ∧
      DeliveredOnce AmEntity.recvPdu (decodeDataPdu am.cfg) [1, 2, 3] am amArrivals ∧
      DeliveredOnce recvPdu um.decodeSegment [1, 2, 3] um umArrivals := by
  have amCreated : newNrRlcEntityAm 100000 100000 defaultAmParams 12 = some { cfg := shortSnConfig } := rfl
  have umCreated : newNrRlcEntityUm 10000000 10000000 35 12 = some deployedUm := rfl
  have both := @sdu_delivered_once [1, 2, 3] (by decide) (by decide) 0
  refine ⟨_, _, amCreated, umCreated, ?_, ?_⟩
  · apply both.1 [] amArrivals amCreated steps_nil rfl ⟨by decide, by decide, by simp⟩
    · intro buffer member
      rcases mem_cons.mp member with rfl | member
      · exact ⟨by decide, ⟨false, false, true, 0, 1, [2, 3]⟩, by decide +kernel, rfl, by decide, by decide, rfl⟩
      · rw [mem_singleton.mp member]
        exact ⟨by decide, ⟨false, true, false, 0, 0, [1, 2]⟩, by decide +kernel, rfl, by decide, by decide, rfl⟩
    · exact FindsRoom.of_pair (by decide +kernel) (by decide +kernel)
  · apply both.2 [] umArrivals umCreated steps_nil rfl ⟨by decide, by decide, by simp [deployedUm]⟩
    · intro buffer member
      rcases mem_cons.mp member with rfl | member
      · exact ⟨⟨false, false, true, 0, 1, [2, 3]⟩, by decide +kernel, ⟨rfl, by decide, by decide, rfl⟩, by decide⟩
      · rw [mem_singleton.mp member]
        exact ⟨⟨false, true, false, 0, 0, [1, 2]⟩, by decide +kernel, ⟨rfl, by decide, by decide, rfl⟩, by decide⟩
    · exact FindsRoom.of_pair (by decide +kernel) (by decide +kernel)

end Witness

namespace UmEntity

variable {entity : UmEntity} {segment : SduSegment}

structure Encodable (entity : UmEntity) (segment : SduSegment) : Prop where
  admitted : entity.snFieldLength = 6 ∨ entity.snFieldLength = 12
  snLow : 0 ≤ segment.sn
  snHigh : segment.sn < 2 ^ entity.snFieldLength
  first : segment.isFirst = true ↔ segment.so = 0
  soHigh : segment.so < 2 ^ 16
  segment : ¬ (segment.isFirst = true ∧ segment.isLast = true)

def serialize (entity : UmEntity) (segment : SduSegment) : List Byte :=
  bitsToBytes (entity.pduHeader segment) ++ segment.bytes

theorem decodeSegment_serialize (encodable : entity.Encodable segment) (data : segment.bytes ≠ []) :
    entity.decodeSegment (entity.serialize segment) =
      some ⟨false, segment.isFirst, segment.isLast, segment.sn, segment.so, segment.bytes⟩ := by
  have snFits : segment.sn.toNat < 2 ^ entity.snFieldLength :=
    (Int.toNat_lt encodable.snLow).mpr (by exact_mod_cast encodable.snHigh)
  obtain ⟨soFits, soBad⟩ := SduSegment.so_field encodable.first encodable.soHigh
  obtain ⟨firstBit, lastBit⟩ := SduSegment.si_field segment
  have partly : (segment.isFirst && segment.isLast) = false := by
    simpa using encodable.segment
  have header := pduHeader_length encodable.admitted segment
  unfold decodeSegment
  rw [serialize, bytesToBits_framed header]
  nth_rewrite 1 [pduHeader]
  rw [partly]
  simp only [append_assoc, cons_append, nil_append, take?_two, Bool.false_eq_true, if_false,
    Option.bind_eq_bind, Option.bind_some, firstBit, lastBit, take?_append, Nat.mod_eq_of_lt snFits,
    Nat.mod_eq_of_lt soFits, soBad, drop_framed header]
  simp [data, Int.toNat_of_nonneg encodable.snLow]

end UmEntity

variable {length : Nat} {m window x : Int} {entity : UmEntity} {sdu : List Byte} {pdu : DataPdu}

theorem UmEntity.moveWindow_alone (arith : UmSpace length m window) (inside : entity.InSpace length m window)
    (x_ok : Within m x) (alone : ∀ other ∈ entity.rxList, other.sn = x) :
    (entity.moveWindow x).rxList = entity.rxList ∧ (entity.moveWindow x).rxSize = entity.rxSize ∧
      (entity.moveWindow x).rxMaxsize = entity.rxMaxsize := by
  rcases RxOrdered.moveWindow_cases arith inside x_ok with ⟨beyond, moved⟩ | ⟨_, stays⟩
  · have none : (RxOrdered.raised entity x).discardOutside = RxOrdered.raised entity x := by
      have front : entity.rxList.takeWhile (fun other => decide ((RxOrdered.raised entity x).snCompareRx other.sn
          (RxOrdered.raised entity x).rxNextHighest ≥ 0)) = [] := by
        rw [takeWhile_eq_nil_iff]
        intro some
        exact fun outside => raised_keeps arith inside x_ok beyond (alone _ (getElem_mem some))
          (of_decide_eq_true outside)
      have back := takeWhile_append_dropWhile (l := entity.rxList) (p := fun other =>
        decide ((RxOrdered.raised entity x).snCompareRx other.sn (RxOrdered.raised entity x).rxNextHighest ≥ 0))
      rw [front, nil_append] at back
      unfold discardOutside
      dsimp only
      rw [front, back, map_nil, sum_nil, sub_zero]
    rw [moved, none]
    unfold raiseNextReassembly
    split <;> exact ⟨rfl, rfl, rfl⟩
  · rw [stays]
    exact ⟨rfl, rfl, rfl⟩

structure UmEntity.Crowded (length : Nat) (m window x : Int) (sdu : List Byte) (pdu : DataPdu) (k : Nat)
    (entity : UmEntity) : Prop where
  collects : entity.Collects length m window x sdu (replicate k pdu)
  alone : ∀ other ∈ entity.rxList, other.sn = x
  size : entity.rxSize = k * pdu.data.length

theorem UmEntity.Crowded.recvSegment (arith : UmSpace length m window) (x_ok : Within m x) {k : Nat}
    (crowded : entity.Crowded length m window x sdu pdu k) (slice : pdu.IsSlice sdu x) (data : pdu.data ≠ [])
    (nonempty : sdu ≠ []) (segment : ¬ (pdu.so = 0 ∧ pdu.isLast = true))
    (partly : ∀ k, ¬ Complete sdu (replicate k pdu)) (room : (k + 1) * pdu.data.length ≤ entity.rxMaxsize) :
    (entity.recvSegment pdu).2 = [] ∧ (entity.recvSegment pdu).1.rxMaxsize = entity.rxMaxsize ∧
      (entity.recvSegment pdu).1.Crowded length m window x sdu pdu (k + 1) := by
  have grown : (k : Int) * pdu.data.length + pdu.data.length = (k + 1) * pdu.data.length := by
    rw [add_mul, one_mul]
  have free : entity.rxSize + pdu.data.length ≤ entity.rxMaxsize := by
    rw [crowded.size, grown]
    exact room
  have above := crowded.collects.above
  rw [← slice.sn] at above
  have ordered := crowded.collects.ordered.recvSegment arith (slice.sn ▸ x_ok) segment
  have missing := partly (k + 1)
  rw [replicate_succ'] at missing
  have notFull := mt (crowded.collects.sduFull_iff arith x_ok slice data nonempty).mp missing
  rw [recvSegment_eq free above, slice.sn] at ordered ⊢
  obtain ⟨silent, kept⟩ := crowded.collects.gather arith x_ok slice data nonempty missing ordered
  obtain ⟨start, trigger, state, _⟩ := receptionActions_partly notFull
  have stored : (entity.withPdu pdu).InSpace length m window :=
    { crowded.collects.ordered.inside with
      rxList := crowded.collects.ordered.inside.rxList.add _ (show Within m pdu.sn from slice.sn ▸ x_ok) }
  have alone : ∀ other ∈ (entity.withPdu pdu).rxList, other.sn = x := by
    intro other member
    rcases (mem_orderedInsert _).mp member with new | old
    · rw [new]
      exact slice.sn
    · exact crowded.alone other old
  obtain ⟨list, size, maxsize⟩ := moveWindow_alone arith stored x_ok alone
  refine ⟨silent, ?_, ?_, ?_, ?_⟩
  · rw [state]
    exact maxsize
  · rw [replicate_succ']
    exact kept
  · rw [state]
    rw [list]
    exact alone
  · rw [state]
    rw [size, Int.natCast_add, Int.natCast_one, ← grown, ← crowded.size]

theorem UmEntity.Crowded.receive (arith : UmSpace length m window) (x_ok : Within m x)
    (fresh : entity.Crowded length m window x sdu pdu 0) {buffer : List Byte}
    (read : entity.decodeSegment buffer = some pdu) (slice : pdu.IsSlice sdu x) (nonempty : sdu ≠ [])
    (segment : ¬ (pdu.isFirst = true ∧ pdu.isLast = true)) (partly : ∀ k, ¬ Complete sdu (replicate k pdu))
    (k : Nat) (room : k * pdu.data.length ≤ entity.rxMaxsize) :
    (Gather.receive recvPdu entity (replicate k buffer)).2 = [] ∧
      (Gather.receive recvPdu entity (replicate k buffer)).1.rxMaxsize = entity.rxMaxsize ∧
      (Gather.receive recvPdu entity (replicate k buffer)).1.Crowded length m window x sdu pdu k := by
  obtain ⟨_, _, _, _, _, first, data, _⟩ := decodeSegment_spec read
  induction k with
  | zero => exact ⟨rfl, rfl, fresh⟩
  | succ k ih =>
    have earlier : (k : Int) * pdu.data.length ≤ ((k + 1 : Nat) : Int) * pdu.data.length := by
      exact_mod_cast Nat.mul_le_mul_right _ (Nat.le_succ k)
    obtain ⟨silent, maxsize, crowded⟩ := ih (earlier.trans room)
    rw [replicate_succ', Gather.receive_concat]
    have again := (decodeSegment_congr (crowded.collects.ordered.inside.length.trans
      fresh.collects.ordered.inside.length.symm) buffer).trans read
    rw [recvPdu_segment again segment, silent]
    have whole := segment
    rw [first] at whole
    rw [← maxsize] at room
    obtain ⟨still, same, next⟩ := crowded.recvSegment arith x_ok slice data nonempty whole partly room
    exact ⟨still, same.trans maxsize, next⟩

def zeros (n : Nat) : List Byte := replicate (n + n) 0

def firstHalf (n : Nat) : SduSegment := ⟨⟨0, 0, zeros n⟩, 0, 0, n, true, false⟩

def lastHalf (n : Nat) : SduSegment := ⟨⟨0, 0, zeros n⟩, 0, n, n, false, true⟩

section Halves

variable {n : Nat} (positive : 0 < n) (small : n < 2 ^ 16)

theorem firstHalf_bytes (n : Nat) : (firstHalf n).bytes = replicate n 0 := by
  rw [SduSegment.bytes]
  simp only [firstHalf, zeros, drop_replicate, take_replicate]
  congr 1
  omega

theorem lastHalf_bytes (n : Nat) : (lastHalf n).bytes = replicate n 0 := by
  rw [SduSegment.bytes]
  simp only [lastHalf, zeros, drop_replicate, take_replicate]
  congr 1
  omega

include positive

theorem firstHalf_carried : deployedUm.decodeSegment (deployedUm.serialize (firstHalf n)) =
      some ⟨false, true, false, 0, 0, replicate n 0⟩ ∧
    DataPdu.IsSlice (zeros n) 0 ⟨false, true, false, 0, 0, replicate n 0⟩ := by
  have encodable : deployedUm.Encodable (firstHalf n) :=
    ⟨.inr rfl, by simp [firstHalf], by simp [firstHalf], by simp [firstHalf], by simp [firstHalf], by simp [firstHalf]⟩
  have data : (firstHalf n).bytes ≠ [] := by
    simp [firstHalf_bytes, positive.ne']
  have read := decodeSegment_serialize encodable data
  rw [firstHalf_bytes] at read
  refine ⟨read, rfl, ?_, ?_, ?_⟩
  · simp [zeros]
  · simp [zeros, positive.ne']
  · simp [zeros]

include small in
theorem lastHalf_carried : deployedUm.decodeSegment (deployedUm.serialize (lastHalf n)) =
      some ⟨false, false, true, 0, n, replicate n 0⟩ ∧
    DataPdu.IsSlice (zeros n) 0 ⟨false, false, true, 0, n, replicate n 0⟩ := by
  have encodable : deployedUm.Encodable (lastHalf n) :=
    ⟨.inr rfl, by simp [lastHalf], by simp [lastHalf, deployedUm], by simp [lastHalf, positive.ne'],
      small, by simp [lastHalf]⟩
  have data : (lastHalf n).bytes ≠ [] := by
    simp [lastHalf_bytes, positive.ne']
  have read := decodeSegment_serialize encodable data
  rw [lastHalf_bytes] at read
  refine ⟨read, rfl, ?_, ?_, ?_⟩
  · simp [zeros]
  · simp [zeros]
  · simp [zeros]

include small in
theorem repetitions_fill {k : Nat} (filled : k * n = 10000000) :
    let arrivals := replicate k (deployedUm.serialize (firstHalf n)) ++ [deployedUm.serialize (lastHalf n)]
    (∀ buffer ∈ arrivals, deployedUm.Carries (zeros n) 0 buffer) ∧
      Complete (zeros n) (arrivals.filterMap deployedUm.decodeSegment) ∧
      (Gather.receive recvPdu deployedUm arrivals).2 = [] := by
  obtain ⟨firstRead, firstSlice⟩ := firstHalf_carried positive
  obtain ⟨lastRead, lastSlice⟩ := lastHalf_carried positive small
  have created : newNrRlcEntityUm 10000000 10000000 35 12 = some deployedUm := rfl
  obtain ⟨arith, ordered⟩ := newNrRlcEntityUm_ordered created
  have nonempty : zeros n ≠ [] := by simp [zeros, positive.ne']
  have awaits : deployedUm.Awaits 0 := ⟨by decide, by decide, by simp [deployedUm]⟩
  have partly : ∀ k, ¬ Complete (zeros n) (replicate k ⟨false, true, false, 0, 0, replicate n 0⟩) := by
    intro k complete
    obtain ⟨pdu, member, _, high⟩ := complete n (by simp [zeros, positive])
    rw [eq_of_mem_replicate member] at high
    simp at high
  have fresh : deployedUm.Crowded 12 (2 ^ 12) (2 ^ 12 / 2) 0 (zeros n)
      ⟨false, true, false, 0, 0, replicate n 0⟩ 0 :=
    ⟨awaits.collects arith ordered (zeros n), by simp [deployedUm], by simp [deployedUm]⟩
  have total : (k : Int) * n = 10000000 := by exact_mod_cast filled
  obtain ⟨silent, maxsize, crowded⟩ := UmEntity.Crowded.receive arith awaits.space fresh firstRead firstSlice
    nonempty (by simp) partly k (by simp [total, deployedUm])
  refine ⟨?_, ?_, ?_⟩
  · intro buffer member
    rcases mem_append.mp member with first | last
    · rw [eq_of_mem_replicate first]
      exact ⟨_, firstRead, firstSlice, by simp⟩
    · rw [mem_singleton.mp last]
      exact ⟨_, lastRead, lastSlice, by simp⟩
  · intro place inside
    rw [filterMap_append, filterMap_cons_some lastRead, filterMap_nil, filterMap_replicate_of_some firstRead]
    simp only [zeros, length_replicate] at inside
    apply covered_append.mpr
    by_cases front : place < n
    · refine .inl ⟨⟨false, true, false, 0, 0, replicate n 0⟩, ?_, by simp, by simpa using front⟩
      rw [mem_replicate]
      refine ⟨?_, rfl⟩
      rintro rfl
      simp at filled
    · exact .inr ⟨⟨false, false, true, 0, n, replicate n 0⟩, by simp, by simpa using front, by simpa using inside⟩
  · rw [Gather.receive_concat, silent]
    have again := (@decodeSegment_congr deployedUm _ crowded.collects.ordered.inside.length
      (deployedUm.serialize (lastHalf n))).trans lastRead
    rw [recvPdu_segment again (by simp), recvSegment, if_pos]
    · rfl
    · rw [crowded.size, maxsize]
      simp only [length_replicate, total, deployedUm]
      omega

end Halves

/-- UM stores a segment also when it has it. The first half of an SDU of the largest size comes until
the buffer is full, and the second half is dropped. -/
theorem repetitions_fill_buffer : ∃ entity, newNrRlcEntityUm 10000000 10000000 35 12 = some entity ∧
    (zeros 8000).length = nrSduMax ∧ entity.Awaits 0 ∧
    let arrivals := replicate 1250 (entity.serialize (firstHalf 8000)) ++ [entity.serialize (lastHalf 8000)]
    (∀ buffer ∈ arrivals, entity.Carries (zeros 8000) 0 buffer) ∧
      Complete (zeros 8000) (arrivals.filterMap entity.decodeSegment) ∧
      (Gather.receive recvPdu entity arrivals).2 = [] := by
  refine ⟨deployedUm, rfl, ?_, ⟨by decide, by decide, by simp [deployedUm]⟩,
    repetitions_fill (by decide) (by decide) (by decide)⟩
  rw [zeros, length_replicate, nrSduMax]

end OranSlice.Rlc
