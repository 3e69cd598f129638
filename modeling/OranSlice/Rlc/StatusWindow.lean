import OranSlice.Rlc.AmMoves
import OranSlice.Rlc.Link
import OranSlice.Rlc.StatusFate
import OranSlice.Rlc.TxWindow

/-! The transmit window over whole runs, with any status reports. -/

namespace OranSlice.Rlc

open Window Runs AmEntity List

variable {cfg : AmConfig} {tx : AmTx} {ackSn : Int}

namespace AmTx

theorem sorted_of_ok (ok : tx.view.Ok cfg) : tx.Sorted cfg := { ok with }

variable {status : StatusPdu} {t : SduSegment}

theorem acked_uncut (acked : ∀ segment ∈ tx.view.sent, tx.snCompareTx cfg segment.sn status.ackSn < 0) :
    ∀ r ∈ tx.retransmitList, ¬ tx.Cuts cfg status r := by
  intro r listed cuts
  exact cuts.1 (acked r (mem_append_right _ listed))

section

variable (ok : tx.view.Ok cfg) (admitted : tx.admits cfg status = true)
  (acked : ∀ segment ∈ tx.view.sent, tx.snCompareTx cfg segment.sn status.ackSn < 0)

include ok admitted acked

theorem processStatus_keeps (member : t ∈ tx.view.sent) (hit : tx.hits cfg t (status.parts cfg) = true) :
    t ∈ (tx.processStatus cfg status).1.retransmitList := by
  rw [mem_retransmitList_after (sorted_of_ok ok) ((tx.admits_iff cfg status).mp admitted).2 (acked_uncut acked)]
  rcases mem_append.mp member with waiting | listed
  · exact .inl ⟨waiting, hit⟩
  · exact .inr ⟨listed, .inl hit⟩

theorem processStatus_frees (missed : ∀ t ∈ tx.view.sent, tx.hits cfg t (status.parts cfg) = false) :
    (tx.processStatus cfg status).1.waitList = [] ∧
      (tx.processStatus cfg status).1.retransmitList = [] := by
  have fits := ((tx.admits_iff cfg status).mp admitted).2
  simp only [eq_nil_iff_forall_not_mem]
  constructor
  · intro t member
    obtain ⟨waiting, _, notAcked⟩ := (mem_waitList_after (sorted_of_ok ok) fits (acked_uncut acked) t).mp member
    exact notAcked (acked t (mem_append_left _ waiting))
  · intro t member
    rcases (mem_retransmitList_after (sorted_of_ok ok) fits (acked_uncut acked) t).mp member with
      ⟨waiting, hit⟩ | ⟨listed, hit | notAcked⟩
    · rw [missed t (mem_append_left _ waiting)] at hit
      cases hit
    · rw [missed t (mem_append_right _ listed)] at hit
      cases hit
    · exact notAcked (acked t (mem_append_right _ listed))

end

theorem lowerSn_le (cfg : AmConfig) (tx : AmTx) (sn : Option Int) (bound : Int) :
    tx.modulusTx cfg (tx.lowerSn cfg sn bound) ≤ tx.modulusTx cfg bound ∧
      ∀ other ∈ sn, tx.modulusTx cfg (tx.lowerSn cfg sn bound) ≤ tx.modulusTx cfg other := by
  cases sn with
  | none => simp [lowerSn]
  | some sn =>
    unfold lowerSn snCompareTx
    dsimp only
    split
    · refine ⟨by omega, ?_⟩
      intro other same
      cases same
      exact le_rfl
    · refine ⟨le_rfl, ?_⟩
      intro other same
      cases same
      omega

theorem nextAck_le_next (cfg : AmConfig) (tx : AmTx) (ackSn : Int) :
    tx.modulusTx cfg (tx.nextAck cfg ackSn) ≤ tx.modulusTx cfg tx.txNext := by
  unfold nextAck
  exact (tx.lowerSn_le cfg _ _).1.trans ((tx.lowerSn_le cfg _ _).1.trans (tx.lowerSn_le cfg _ _).1)

theorem nextAck_le (ackSn : Int) (wait : tx.waitList.Pairwise (tx.Before cfg))
    (retx : tx.retransmitList.Pairwise (tx.Before cfg)) :
    tx.view.rank cfg (tx.nextAck cfg ackSn) ≤ tx.view.rank cfg tx.view.next ∧
      tx.view.rank cfg (tx.nextAck cfg ackSn) ≤ tx.view.rank cfg ackSn ∧
      ∀ s ∈ tx.view.sent, tx.view.rank cfg (tx.nextAck cfg ackSn) ≤ tx.view.rank cfg s.sn := by
  have headLe : ∀ (list : List SduSegment) (bound : Int), list.Pairwise (tx.Before cfg) →
      (∀ other ∈ list.head?.map SduSegment.sn, bound ≤ tx.modulusTx cfg other) →
      ∀ s ∈ list, bound ≤ tx.modulusTx cfg s.sn := by
    intro list bound sorted lower s member
    cases list with
    | nil => cases member
    | cons head rest =>
      have first := lower head.sn rfl
      rcases mem_cons.mp member with here | there
      · rw [here]
        exact first
      · exact first.trans ((pairwise_cons.mp sorted).1 s there).distance_le
  obtain ⟨first, waits⟩ := tx.lowerSn_le cfg (tx.waitList.head?.map SduSegment.sn) tx.txNext
  obtain ⟨second, retxs⟩ := tx.lowerSn_le cfg (tx.retransmitList.head?.map SduSegment.sn)
    (tx.lowerSn cfg (tx.waitList.head?.map SduSegment.sn) tx.txNext)
  obtain ⟨third, ack⟩ := tx.lowerSn_le cfg (some ackSn)
    (tx.lowerSn cfg (tx.retransmitList.head?.map SduSegment.sn)
      (tx.lowerSn cfg (tx.waitList.head?.map SduSegment.sn) tx.txNext))
  refine ⟨third.trans (second.trans first), ack ackSn rfl, ?_⟩
  intro s member
  rcases mem_append.mp member with waiting | listed
  · exact headLe tx.waitList _ wait (fun other here => (third.trans second).trans (waits other here)) s waiting
  · exact headLe tx.retransmitList _ retx (fun other here => third.trans (retxs other here)) s listed

def SparesHead (cfg : AmConfig) (tx : AmTx) (status : StatusPdu) : Prop :=
  (∀ s ∈ tx.txList.head?, s.sn = -1) ∨ status.ackSn ≠ tx.txNext ∨ ∃ t ∈ tx.waitList ++ tx.retransmitList,
      tx.hits cfg t (status.nacks.flatMap (Nack.expand cfg)) = true

theorem processStatus_view (ok : tx.view.Ok cfg) (status : StatusPdu) :
    ∃ after : AmTx, (tx.processStatus cfg status).1 = { after with
        txNextAck := after.nextAck cfg status.ackSn } ∧
      after.view = { tx.view with
        waitList := after.waitList, retransmitList := after.retransmitList } ∧
      after.view.Ok cfg := by
  obtain ⟨left, same, result⟩ := tx.processStatus_result cfg status
  have ordered := afterNacks_inOrder (sorted_of_ok ok) status
  obtain ⟨counts, txSize, retxSize, start, rfl⟩ := same
  refine ⟨_, result, rfl, ?_⟩
  obtain ⟨waits, lists, freed⟩ := ordered.freed (sorted_of_ok ok)
    (fun segment => decide (tx.snCompareTx cfg segment.sn status.ackSn < 0))
  refine ok.regroup ?_ freed.wait freed.retx freed.apart
  intro s member
  refine ⟨s, ?_, .refl s⟩
  rcases mem_append.mp member with waiting | listed
  · exact mem_append_left _ (waits.subset waiting)
  · exact mem_append.mpr (lists s listed)

theorem acked_of_whole (ok : tx.view.Ok cfg) {ackSn : Int} (whole : ackSn = tx.txNext) :
    ∀ segment ∈ tx.view.sent, tx.snCompareTx cfg segment.sn ackSn < 0 := by
  intro segment listed
  rw [whole]
  exact Int.sub_neg_of_lt (ok.sentBelow segment listed)

theorem processStatus_ok (ok : tx.view.Ok cfg)
    (ackSpace : Within cfg.snModulus status.ackSn) (admitted : tx.admits cfg status = true)
    (spares : tx.SparesHead cfg status) : (tx.processStatus cfg status).1.view.Ok cfg := by
  obtain ⟨after, result, view, regrouped⟩ := processStatus_view ok status
  obtain ⟨nextAbove, ackAbove, sentAbove⟩ := nextAck_le status.ackSn regrouped.wait regrouped.retx
  have rank : after.view.rank cfg = tx.view.rank cfg := by
    rw [view]
    rfl
  have txList : after.view.txList = tx.txList := by
    rw [view]
    rfl
  rw [result]
  apply regrouped.advance _ nextAbove sentAbove
  · intro s first assigned
    rw [txList] at first
    obtain ⟨fits, last, behind⟩ := (ok.head s first).resolve_left assigned
    have bounded := ((tx.admits_iff cfg status).mp admitted).1
    by_cases whole : status.ackSn = tx.txNext
    · -- all segments are before ACK_SN: one that a NACK hits is still there
      have hitSegment := (spares.resolve_left (fun none => assigned (none s first))).resolve_left
        (fun other => other whole)
      obtain ⟨t, member, hit⟩ := hitSegment
      have retx := processStatus_keeps ok admitted (acked_of_whole ok whole) member hit
      rw [result] at retx
      have above := sentAbove t (mem_append_right _ retx)
      rw [rank] at above ⊢
      exact above.trans (behind t member).distance_le
    · have different : tx.view.rank cfg status.ackSn ≠ tx.view.rank cfg tx.view.next := by
        intro equal
        exact whole ((distance_inj ok.ackSpace ackSpace ok.nextSpace).mp equal)
      have notAbove : tx.view.rank cfg status.ackSn ≤ tx.view.rank cfg tx.view.next := by
        have difference : tx.view.rank cfg status.ackSn - tx.view.rank cfg tx.view.next ≤ 0 := bounded
        omega
      rw [rank] at ackAbove ⊢
      omega
  · apply nextAck_within regrouped.nextSpace _ _ ackSpace
    · intro s member
      exact regrouped.sentSpace s (mem_append_left _ member)
    · intro s member
      exact regrouped.sentSpace s (mem_append_right _ member)

theorem processStatus_overtakes (ok : tx.view.Ok cfg)
    (admitted : tx.admits cfg status = true) (overtakes : ¬ tx.SparesHead cfg status) :
    (tx.processStatus cfg status).1.txNextAck = tx.txNext ∧ (tx.processStatus cfg status).1.txNext = tx.txNext ∧
      (tx.processStatus cfg status).1.txList = tx.txList ∧ ∃ s ∈ tx.txList, s.sn ≠ -1 := by
  simp only [SparesHead, not_or, not_forall, not_not, not_exists, not_and, Bool.not_eq_true] at overtakes
  obtain ⟨⟨s, first, assigned⟩, whole, missed⟩ := overtakes
  obtain ⟨noWait, noRetx⟩ := processStatus_frees ok admitted (acked_of_whole ok whole) missed
  obtain ⟨left, same, result⟩ := tx.processStatus_result cfg status
  obtain ⟨_, _, _, _, rfl⟩ := same
  rw [result] at noWait noRetx ⊢
  dsimp only at noWait noRetx ⊢
  refine ⟨?_, rfl, rfl, s, mem_of_mem_head? first, assigned⟩
  rw [noWait, noRetx]
  simp [nextAck, lowerSn, whole]

end AmTx

variable (entity : AmEntity) (op : DataOp) (next : AmEntity)

def AmEntity.InTxWindow : Prop :=
  ∀ s ∈ entity.tx.txList ++ entity.tx.waitList ++ entity.tx.retransmitList, s.sn ≠ -1 →
    InInterval entity.cfg.snModulus entity.tx.txNextAck entity.tx.txNext s.sn

instance (entity : AmEntity) : Decidable entity.InTxWindow :=
  inferInstanceAs (Decidable (∀ s ∈ _, _))

/-- An admitted report does not acknowledge everything up to TX_Next, while an SDU is sent in part,
without a NACK for a segment that was sent. -/
def DataOp.SparesHead : DataOp → Prop
  | .recvPdu buffer => ∀ status ∈ receivedStatus entity.cfg buffer,
      entity.tx.admits entity.cfg status = true → entity.tx.SparesHead entity.cfg status
  | _ => True

theorem TxView.Ok.inTxWindow {entity : AmEntity} (ok : entity.tx.view.Ok entity.cfg) : entity.InTxWindow := by
  intro s member assigned
  rw [append_assoc] at member
  rcases mem_append.mp member with new | sent
  · cases list : entity.tx.txList with
    | nil =>
      rw [list] at new
      cases new
    | cons head rest =>
      rw [list] at new
      rcases mem_cons.mp new with here | there
      · subst here
        obtain ⟨fits, last, _⟩ := (ok.head s (by simp [AmTx.view, list])).resolve_left assigned
        exact ⟨fits, Int.lt_of_add_one_le last.le⟩
      · exact absurd (ok.fresh s (by simp [AmTx.view, list, there])) assigned
  · exact ⟨ok.sentSpace s sent, ok.sentBelow s sent⟩

structure AmEntity.TxOk (entity : AmEntity) : Prop where
  sound : entity.cfg.Sound
  view : entity.tx.view.Ok entity.cfg

theorem AmEntity.dataStep_txOk (ok : entity.TxOk)
    (spares : op.SparesHead entity) (taken : entity.dataStep op = some next) : next.TxOk := by
  obtain ⟨same, _, move⟩ := dataStep_moves taken
  refine ⟨same ▸ ok.sound, ?_⟩
  rw [same]
  generalize next.tx = tx at move
  cases move with
  | keep => exact ok.view
  | enqueue => exact ok.view.enqueue rfl
  | discard => exact ok.view.discard _
  | send size => exact AmTx.generateDataPdu_ok ok.sound ok.view entity.tCurrent size
  | report buffer status received admitted =>
    exact AmTx.processStatus_ok ok.view (receivedStatus_ackSn ok.sound.modulus received) admitted
      (spares status received admitted)
  | time now result polled => exact AmTx.checkTPollRetransmit_ok ok.view polled

theorem AmEntity.dataStep_overtakes
    (ok : entity.TxOk) (overtakes : ¬ op.SparesHead entity) (taken : entity.dataStep op = some next) :
    ¬ next.InTxWindow := by
  cases op with
  | recvPdu buffer =>
    simp only [DataOp.SparesHead, not_forall] at overtakes
    obtain ⟨status, received, admitted, overtakes⟩ := overtakes
    obtain ⟨ack, nextSn, txList, s, listed, assigned⟩ := AmTx.processStatus_overtakes ok.view admitted overtakes
    have reached : (entity.recvPdu buffer).1 = next := Option.some.inj taken
    have control : (entity.recvPdu buffer).1 =
        { entity with tx := (entity.tx.processStatus entity.cfg status).1 } := by
      unfold receivedStatus at received
      split at received
      · rename_i stream read
        unfold recvPdu
        simp only [read]
        rw [AmTx.processControlPdu, Option.mem_def.mp received]
        simp [admitted]
      · cases received
    rw [← reached, control]
    intro window
    have inside := window s (by simp [txList, listed]) assigned
    have low := distance_bounds ok.view.nextSpace inside.1
    unfold InInterval at inside
    rw [ack, nextSn, distance_self] at inside
    exact absurd inside.2 (not_lt.mpr low.1)
  | recvSdu buffer sduId | discardSdu sduId | generatePdu size | setTime now => exact absurd trivial overtakes

/-- All SNs of a sender stay in its transmit window throughout a run exactly when no report acknowledges
everything up to TX_Next while an SDU is sent in part, without a NACK for a segment that was sent. -/
theorem tx_window_iff {rxMaxsize txMaxsize : Int} {params : AmParams} {snFieldLength : Nat}
    {entity : AmEntity} (created : newNrRlcEntityAm rxMaxsize txMaxsize params snFieldLength = some entity)
    (ops : List DataOp) :
    Along dataStep AmEntity.InTxWindow entity ops ↔
      Steps dataStep (fun entity op => op.SparesHead entity) entity ops := by
  obtain ⟨sound, _, fresh, _⟩ := newNrRlcEntityAm_sound created
  have start : entity.TxOk := by
    refine ⟨sound, ?_⟩
    rw [fresh]
    exact TxView.Ok.initial sound
  exact along_iff_steps_of_invariant (fun _ ok => ok.view.inTxWindow) dataStep_txOk
    dataStep_overtakes entity ops start

/-- An SDU of two bytes is sent in one PDU and acknowledged. -/
theorem tx_window_acknowledged :
    ∃ entity, newNrRlcEntityAm 100000 100000 defaultAmParams 12 = some entity ∧
      Along dataStep AmEntity.InTxWindow entity
        [.recvSdu [1#8, 2#8] 1, .generatePdu 100, .recvPdu [0#8, 1#8, 0#8]] := by
  refine ⟨_, rfl, (@tx_window_iff 100000 100000 defaultAmParams 12 _ rfl _).mpr ?_⟩
  refine steps_cons.mpr (fun first taken => ⟨trivial, steps_cons.mpr (fun second sent => ⟨trivial,
    steps_cons.mpr (fun third received => ⟨?_, steps_nil⟩)⟩)⟩)
  cases taken
  cases sent
  intro status decoded admitted
  left
  decide

def pollingParams : AmParams := { defaultAmParams with pollPdu := 1 }

/-- An SDU of 40 bytes is sent in segments; the second one is lost, and the last one is still to be sent
when the receiver reports the gap. The retransmission is polled, since the poll timer has expired. -/
def overtakingRun : List (Side × LinkOp) :=
  [(.a, .setTime 1), (.b, .setTime 1), (.a, .recvSdu (replicate 40 7#8) 1), (.a, .generatePdu 12),
    (.b, .arrive), (.a, .generatePdu 12), (.b, .lose), (.a, .generatePdu 12), (.b, .arrive), (.b, .setTime 100),
    (.b, .generatePdu 100), (.a, .setTime 100), (.a, .arrive), (.a, .generatePdu 100), (.b, .arrive),
    (.b, .setTime 101), (.b, .generatePdu 100), (.a, .arrive)]

/-- The report for the retransmission acknowledges up to TX_Next and nacks only what was not sent yet:
TX_Next_Ack becomes TX_Next, with an SDU sent in part behind it. -/
theorem tx_window_overtaken :
    ∃ start link, Link.start 100000 100000 pollingParams pollingParams 12 = some start ∧
      run Link.step start overtakingRun = some link ∧ ¬ link.a.entity.InTxWindow :=
  reached_of_check _ (by decide +kernel) (fun _ => id)

end OranSlice.Rlc
