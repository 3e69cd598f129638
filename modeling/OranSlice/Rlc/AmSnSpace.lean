import OranSlice.Rlc.AmMoves
import OranSlice.Rlc.StatusMoves
import OranSlice.Rlc.TxMoves

/-! All operations of an AM entity keep its SNs in the sequence space. -/

namespace OranSlice.Rlc

open BitCodec Window List

variable {m : Int} {cfg : AmConfig}

def ListWithin (m : Int) (list : List Pdu) : Prop := ∀ pdu ∈ list, Within m pdu.sn

theorem ListWithin.sublist {front back : List Pdu} (inside : ListWithin m back)
    (sub : front.Sublist back) : ListWithin m front := fun pdu member => inside pdu (sub.subset member)

theorem ListWithin.add {list : List Pdu} (inside : ListWithin m list) (snCompare : Int → Int → Int)
    {pdu : Pdu} (fits : Within m pdu.sn) : ListWithin m (nrRlcPduListAdd snCompare list pdu) := by
  intro other member
  rcases (mem_orderedInsert _).mp member with new | old
  · rw [new]
    exact fits
  · exact inside other old

theorem map_consume {β : Type} {free : Pdu → Pdu} {f : Pdu → β} (same : ∀ pdu, f (free pdu) = f pdu) (sn : Int)
    (list : List Pdu) :
    (list.takeWhile (fun l => l.sn != sn) ++ consume free sn (fromSn sn list)).map f = list.map f := by
  have marked : ∀ list : List Pdu, (consume free sn list).map f = list.map f := by
    intro list
    induction list with
    | nil => rfl
    | cons pdu rest ih =>
      unfold consume
      split
      · rfl
      · simp [same, ih]
  rw [map_append, marked, ← map_append, fromSn, takeWhile_append_dropWhile]

theorem ListWithin.consume (free : Pdu → Pdu) (same : ∀ pdu, (free pdu).sn = pdu.sn) (sn : Int)
    {list : List Pdu} (inside : ListWithin m list) :
    ListWithin m (list.takeWhile (fun l => l.sn != sn) ++ consume free sn (fromSn sn list)) := by
  intro pdu member
  have listed : pdu.sn ∈ list.map Pdu.sn := map_consume same sn list ▸ mem_map_of_mem member
  obtain ⟨other, present, equal⟩ := mem_map.mp listed
  rw [← equal]
  exact inside other present

theorem advance_sublist (fuel : Nat) (base : Int) (list : List Pdu) : (advance cfg fuel base list).2.Sublist list := by
  induction fuel generalizing base list with
  | zero => exact List.Sublist.refl list
  | succ fuel ih =>
    unfold advance
    split
    · exact List.Sublist.refl _
    · split
      · exact (ih _ _).trans (dropWhile_sublist _)
      · exact List.Sublist.refl _

structure AmRx.InSpace (m : Int) (rx : AmRx) : Prop where
  next : Within m rx.rxNext
  statusTrigger : Within m rx.rxNextStatusTrigger
  highestStatus : Within m rx.rxHighestStatus
  nextHighest : Within m rx.rxNextHighest
  list : ListWithin m rx.rxList

namespace AmRx.InSpace

variable {rx next : AmRx}

theorem skipDelivered (positive : 0 < cfg.snModulus) (rx : AmRx) (fuel : Nat) {sn : Int}
    (inside : Within cfg.snModulus sn) : Within cfg.snModulus (rx.skipDelivered cfg fuel sn) := by
  induction fuel generalizing sn with
  | zero => exact inside
  | succ fuel ih =>
    unfold AmRx.skipDelivered
    split
    · exact ih (within_mod positive _)
    · exact inside

theorem advance (positive : 0 < cfg.snModulus) (fuel : Nat) {rxNext : Int} (list : List Pdu)
    (inside : Within cfg.snModulus rxNext) : Within cfg.snModulus (advance cfg fuel rxNext list).1 := by
  induction fuel generalizing rxNext list with
  | zero => exact inside
  | succ fuel ih =>
    unfold Rlc.advance
    split
    · exact inside
    · split
      · exact ih _ (within_mod positive _)
      · exact inside

theorem store (inside : rx.InSpace cfg.snModulus) (modulus : cfg.snModulus = 2 ^ cfg.snFieldLength) {pdu : DataPdu}
    (wellFormed : pdu.WellFormed cfg) : (rx.store cfg pdu).InSpace cfg.snModulus :=
  { inside with list := inside.list.add _ ⟨wellFormed.snLow, modulus ▸ wellFormed.snHigh⟩ }

theorem moves (inside : rx.InSpace cfg.snModulus) (positive : 0 < cfg.snModulus) (moves : rx.Moves cfg next) :
    next.InSpace cfg.snModulus := by
  induction moves with
  | refl => exact inside
  | tail _ move inside =>
    cases move with
    | raise x => exact { inside with nextHighest := within_mod positive _ }
    | deliver x => exact { inside with list := inside.list.consume freeData (fun _ => rfl) x }
    | skip fuel start =>
      refine { inside with highestStatus := skipDelivered positive _ fuel ?_ }
      rcases start with same | same
      · exact same ▸ inside.highestStatus
      · exact same ▸ inside.statusTrigger
    | advance fuel =>
      exact { inside with
        next := advance positive fuel _ inside.next, list := inside.list.sublist (advance_sublist fuel _ _) }
    | trigger => exact { inside with statusTrigger := inside.nextHighest }
    | flags => exact { inside with }

end AmRx.InSpace

def SegmentsWithin (m : Int) (list : List SduSegment) : Prop := ∀ segment ∈ list, Within m segment.sn

theorem SegmentsWithin.add {list : List SduSegment} (inside : SegmentsWithin m list)
    (snCompare : Int → Int → Int) {segment : SduSegment} (fits : Within m segment.sn) :
    SegmentsWithin m (nrRlcSduSegmentListAdd snCompare list segment) := by
  intro other member
  rcases (mem_orderedInsert _).mp member with new | old
  · rw [new]
    exact fits
  · exact inside other old

theorem SegmentsWithin.addAll {list moved : List SduSegment} (inside : SegmentsWithin m list)
    (snCompare : Int → Int → Int) (fits : SegmentsWithin m moved) :
    SegmentsWithin m (moved.foldl (nrRlcSduSegmentListAdd snCompare) list) := by
  induction moved generalizing list with
  | nil => exact inside
  | cons segment rest ih =>
    apply ih
    · exact inside.add snCompare (fits segment mem_cons_self)
    · intro other member
      exact fits other (mem_cons_of_mem segment member)

structure AmTx.InSpace (m : Int) (tx : AmTx) : Prop where
  next : Within m tx.txNext
  nextAck : Within m tx.txNextAck
  pollSn : Within m tx.pollSn
  txList : ∀ segment ∈ tx.txList, segment.sn = -1 ∨ Within m segment.sn
  waitList : SegmentsWithin m tx.waitList
  retransmitList : SegmentsWithin m tx.retransmitList

namespace AmTx.InSpace

variable {tx : AmTx}

theorem accounted {left : AmTx} (inside : tx.InSpace m) (same : tx.Accounted left) : left.InSpace m := by
  obtain ⟨_, _, _, _, rfl⟩ := same
  exact { inside with }

theorem processStatus {status : StatusPdu} (inside : tx.InSpace cfg.snModulus)
    (ackSpace : Within cfg.snModulus status.ackSn) : (tx.processStatus cfg status).1.InSpace cfg.snModulus := by
  obtain ⟨left, same, result⟩ := tx.processStatus_result cfg status
  have follows := tx.afterNacks_follows cfg status
  have kept := inside.accounted same
  rw [result]
  generalize (fun segment : SduSegment => decide (tx.snCompareTx cfg segment.sn status.ackSn < 0)) = acked
  have lists : { left with
      waitList := (tx.afterNacks cfg status).passed ++ (tx.afterNacks cfg status).wait.dropWhile acked
      retransmitList := (tx.afterNacks cfg status).kept ++
        (tx.afterNacks cfg status).retx.dropWhile acked }.InSpace cfg.snModulus := by
    refine { kept with waitList := ?_, retransmitList := ?_ }
    · intro segment member
      apply inside.waitList segment
      apply follows.wait.subset
      exact ((dropWhile_sublist acked).append_left _).subset member
    · intro segment member
      have listed := ((dropWhile_sublist acked).append_left _).subset member
      rcases follows.retx segment listed with waiting | old
      · exact inside.waitList segment waiting
      · exact inside.retransmitList segment old
  exact { lists with nextAck := AmTx.nextAck_within lists.next lists.waitList lists.retransmitList ackSpace }

section

variable (positive : 0 < cfg.snModulus) (inside : tx.InSpace cfg.snModulus)

include positive inside

variable {next : AmTx} {pdu : List Byte} {tCurrent size : Nat}

theorem sends {segment sent : SduSegment} {left : List SduSegment}
    (sends : tx.Sends cfg next segment pdu sent left) (fits : Within cfg.snModulus segment.sn)
    (nextSn : Within cfg.snModulus next.txNext)
    (txList : ∀ segment ∈ next.txList, segment.sn = -1 ∨ Within cfg.snModulus segment.sn)
    (retx : SegmentsWithin cfg.snModulus next.retransmitList)
    (poll : next.pollSn = tx.pollSn ∨ ∃ x, next.pollSn = x % cfg.snModulus) : next.InSpace cfg.snModulus := by
  refine ⟨nextSn, sends.ack ▸ inside.nextAck, ?_, txList, ?_, retx⟩
  · rcases poll with same | ⟨x, same⟩
    · exact same ▸ inside.pollSn
    · exact same ▸ within_mod positive x
  · intro other member
    rcases mem_cons.mp (sends.waitList_perm.mem_iff.mp member) with new | old
    · rw [new, sends.split.sentPart.sn]
      exact fits
    · exact inside.waitList other old

theorem generateRetxPdu (made : tx.generateRetxPdu cfg tCurrent size = some (pdu, next)) :
    next.InSpace cfg.snModulus := by
  obtain ⟨segment, rest, sent, left, same, sends, nextSn, txList, retx, _, _, poll⟩ :=
    AmTx.generateRetxPdu_cases made
  have listed := inside.retransmitList
  rw [same] at listed
  obtain ⟨fits, others⟩ := forall_mem_cons.mp listed
  refine inside.sends positive sends fits (nextSn ▸ inside.next) (txList ▸ inside.txList) ?_ poll
  rw [retx]
  intro other member
  rcases mem_append.mp member with new | old
  · rw [(sends.split.leftPart other new).sn]
    exact fits
  · exact others other old

theorem generateTxPdu (made : tx.generateTxPdu cfg tCurrent size = some (pdu, next)) :
    next.InSpace cfg.snModulus := by
  obtain ⟨segment, rest, sent, left, same, _, sends, nextSn, txList, retx, _, _, poll⟩ :=
    AmTx.generateTxPdu_cases made
  have listed := inside.txList
  rw [same] at listed
  obtain ⟨fits, others⟩ := forall_mem_cons.mp listed
  have numbered : Within cfg.snModulus (tx.numbered segment).sn := by
    unfold AmTx.numbered
    split_ifs with unassigned
    · exact inside.next
    · exact fits.resolve_left unassigned
  refine inside.sends positive sends numbered ?_ ?_ (retx ▸ inside.retransmitList) poll
  · rw [nextSn]
    split
    · exact within_mod positive _
    · exact inside.next
  · rw [txList]
    intro other member
    rcases mem_append.mp member with new | old
    · rw [(sends.split.leftPart other new).sn]
      exact .inr numbered
    · exact others other old

theorem generateDataPdu (tCurrent size : Nat) : (tx.generateDataPdu cfg tCurrent size).2.InSpace cfg.snModulus := by
  unfold AmTx.generateDataPdu
  split
  · rename_i made
    exact inside.generateRetxPdu positive made
  split
  · rename_i made
    exact inside.generateTxPdu positive made
  · exact inside

end

theorem checkTPollRetransmit (inside : tx.InSpace m) {tCurrent : Nat} {result : AmTx × List AmEvent}
    (done : tx.checkTPollRetransmit cfg tCurrent = some result) : result.1.InSpace m := by
  obtain ⟨moved, wait, retx, _, nextSn, ack, txList, _, _, _, _, poll, _⟩ := AmTx.checkTPollRetransmit_cases done
  obtain ⟨gone, left⟩ := forall_mem_append.mp (wait ▸ inside.waitList)
  exact ⟨nextSn ▸ inside.next, ack ▸ inside.nextAck, poll ▸ inside.pollSn, txList ▸ inside.txList, left,
    retx ▸ inside.retransmitList.addAll _ gone⟩

end AmTx.InSpace

structure AmEntity.InSpace (entity : AmEntity) : Prop where
  rx : entity.rx.InSpace entity.cfg.snModulus
  tx : entity.tx.InSpace entity.cfg.snModulus

namespace AmEntity.InSpace

variable {entity next : AmEntity}

theorem initial (positive : 0 < cfg.snModulus) (created : Nat) :
    AmEntity.InSpace { cfg := cfg, tx := { created := created } } := by
  have zero : Within cfg.snModulus 0 := ⟨le_rfl, positive⟩
  refine ⟨⟨zero, zero, zero, zero, ?_⟩, ⟨zero, zero, zero, ?_, ?_, ?_⟩⟩
  all_goals
    exact forall_mem_nil _

section

variable (positive : 0 < entity.cfg.snModulus)

include positive

theorem dataStep (modulus : entity.cfg.snModulus = 2 ^ entity.cfg.snFieldLength) (inside : entity.InSpace)
    {op : DataOp} (taken : entity.dataStep op = some next) : next.cfg = entity.cfg ∧ next.InSpace := by
  obtain ⟨same, rxMove, txMove⟩ := dataStep_moves taken
  refine ⟨same, ?_, ?_⟩
  · rw [same]
    rcases rxMove.moves with moves | ⟨_, _, _, _, read, _, moves⟩
    · exact inside.rx.moves positive moves
    · exact (inside.rx.store modulus (decodeDataPdu_wellFormed read)).moves positive moves
  · rw [same]
    generalize next.tx = tx at txMove
    cases txMove with
    | keep => exact inside.tx
    | enqueue =>
      refine { inside.tx with txList := ?_ }
      exact forall_mem_append.mpr ⟨inside.tx.txList, forall_mem_singleton.mpr (.inl rfl)⟩
    | discard =>
      refine { inside.tx with txList := ?_ }
      intro segment member
      exact inside.tx.txList segment (eraseP_sublist.subset member)
    | send size => exact inside.tx.generateDataPdu positive entity.tCurrent size
    | report buffer status received => exact inside.tx.processStatus (receivedStatus_ackSn modulus received)
    | time now result polled => exact inside.tx.checkTPollRetransmit polled

theorem step (modulus : entity.cfg.snModulus = 2 ^ entity.cfg.snFieldLength) (inside : entity.InSpace) {op : AmOp}
    (data : ∀ params snFieldLength, op ≠ .reconfigure params snFieldLength)
    (taken : entity.step op = some next) : next.cfg = entity.cfg ∧ next.InSpace := by
  cases op with
  | data op => exact inside.dataStep positive modulus taken
  | reestablishment =>
    cases taken
    exact ⟨rfl, initial positive _⟩
  | reconfigure params snFieldLength => exact absurd rfl (data params snFieldLength)

end

end AmEntity.InSpace

end OranSlice.Rlc
