import OranSlice.Rlc.TxOrder

/-! What the operations of a sender do, once for each. -/

namespace OranSlice.Rlc

variable {cfg : AmConfig}

def pduBytes (cfg : AmConfig) (segments : List SduSegment) : Int :=
  (segments.map (fun segment => ((computePduHeaderSize cfg segment + segment.size : Nat) : Int))).sum

@[simp] theorem pduBytes_nil : pduBytes cfg [] = 0 := rfl

@[simp] theorem pduBytes_cons (segment : SduSegment) (rest : List SduSegment) :
    pduBytes cfg (segment :: rest) =
      (computePduHeaderSize cfg segment + segment.size : Nat) + pduBytes cfg rest := by
  simp [pduBytes]

@[simp] theorem pduBytes_append (front back : List SduSegment) :
    pduBytes cfg (front ++ back) = pduBytes cfg front + pduBytes cfg back := by
  simp [pduBytes]

theorem pduBytes_perm {front back : List SduSegment} (same : front.Perm back) :
    pduBytes cfg front = pduBytes cfg back := (same.map _).sum_eq

namespace AmTx

variable {tx next : AmTx} {segment : SduSegment} {rest : List SduSegment}
  {pdu : List BitCodec.Byte} {tCurrent size : Nat}

structure Sends (cfg : AmConfig) (tx next : AmTx) (segment : SduSegment) (pdu : List BitCodec.Byte)
    (sent : SduSegment) (left : List SduSegment) : Prop where
  split : segment.Split sent left
  encoded : ∃ p, pdu = serializeSdu cfg sent p
  waitList : next.waitList = (tx.putInWaitList cfg sent).waitList
  counts : next.counts = if left = [] then tx.counts else (tx.countSegment segment).counts
  txSize : next.txSize = tx.txSize
  created : next.created = tx.created
  ack : next.txNextAck = tx.txNextAck

theorem Sends.waitList_perm {sent : SduSegment} {left : List SduSegment}
    (sends : tx.Sends cfg next segment pdu sent left) : next.waitList.Perm (sent :: tx.waitList) := by
  rw [sends.waitList]
  exact putInWaitList_perm cfg tx sent

theorem takeRetx_cases (tx : AmTx) (rest : List SduSegment) (room : computePduHeaderSize cfg segment + 1 ≤ size) :
    ∃ sent left, tx.takeRetx cfg segment rest size = (sent, { tx with
        retransmitList := left ++ rest
        counts := if left = [] then tx.counts else (tx.countSegment segment).counts
        bstatusRetxSize := tx.bstatusRetxSize - pduBytes cfg [segment] + pduBytes cfg left }) ∧
      segment.Split sent left := by
  unfold takeRetx
  dsimp only
  split_ifs with tooBig
  · refine ⟨_, _, ?_, resegment_split cfg room tooBig⟩
    simp [countSegment]
  · exact ⟨_, _, by simp, .whole⟩

theorem sendWithPoll_cases (cfg : AmConfig) (tCurrent : Nat) (tx : AmTx) (segment : SduSegment) (p : Bool) :
    ∃ p' pduWithoutPoll byteWithoutPoll pollSn start, tx.sendWithPoll cfg tCurrent segment p =
      (serializeSdu cfg segment p', { tx with
        pduWithoutPoll := pduWithoutPoll, byteWithoutPoll := byteWithoutPoll, pollSn := pollSn
        tPollRetransmitStart := start, forcePoll := false }) ∧
      (pollSn = tx.pollSn ∨ ∃ x, pollSn = x % cfg.snModulus) := by
  unfold sendWithPoll
  dsimp only
  split
  · exact ⟨_, _, _, _, _, rfl, .inr ⟨_, rfl⟩⟩
  · exact ⟨_, _, _, _, _, rfl, .inl rfl⟩

theorem generateRetxPdu_cases (made : tx.generateRetxPdu cfg tCurrent size = some (pdu, next)) :
    ∃ segment rest sent left, tx.retransmitList = segment :: rest ∧
      Sends cfg tx next segment pdu sent left ∧ next.txNext = tx.txNext ∧ next.txList = tx.txList ∧
      next.retransmitList = left ++ rest ∧ next.bstatusTxSize = tx.bstatusTxSize ∧
      next.bstatusRetxSize = tx.bstatusRetxSize - pduBytes cfg [segment] + pduBytes cfg left ∧
      (next.pollSn = tx.pollSn ∨ ∃ x, next.pollSn = x % cfg.snModulus) := by
  unfold generateRetxPdu at made
  split at made
  · cases made
  rename_i segment rest same
  split_ifs at made with room
  obtain ⟨sent, left, taken, split⟩ := takeRetx_cases tx rest (Nat.le_of_not_lt room)
  rw [taken] at made
  dsimp only at made
  obtain ⟨p, _, _, _, _, out, poll⟩ := sendWithPoll_cases cfg tCurrent _ sent _
  rw [out] at made
  cases made
  exact ⟨segment, rest, sent, left, same, ⟨split, ⟨p, rfl⟩, rfl, rfl, rfl, rfl, rfl⟩, rfl, rfl, rfl, rfl, rfl, poll⟩

def numbered (tx : AmTx) (segment : SduSegment) : SduSegment :=
  if segment.sn = -1 then { segment with sn := tx.txNext } else segment

theorem takeTx_cases (tx : AmTx) (rest : List SduSegment)
    (room : computePduHeaderSize cfg segment + 1 ≤ size) :
    ∃ sent left, tx.takeTx cfg segment rest size = (sent, { tx with
        txNext := if segment.sn = -1 then (tx.txNext + 1) % cfg.snModulus else tx.txNext
        txList := left ++ rest
        counts := if left = [] then tx.counts else (tx.countSegment (tx.numbered segment)).counts
        bstatusTxSize := tx.bstatusTxSize - pduBytes cfg [segment] + pduBytes cfg left }) ∧
      (tx.numbered segment).Split sent left := by
  unfold takeTx assignSn numbered
  split_ifs
  all_goals
    dsimp only
    split_ifs with tooBig
    · exact ⟨_, _, by simp [countSegment], resegment_split cfg room tooBig⟩
    · exact ⟨_, _, by simp, .whole⟩

theorem generateTxPdu_cases (made : tx.generateTxPdu cfg tCurrent size = some (pdu, next)) :
    ∃ segment rest sent left, tx.txList = segment :: rest ∧ tx.isWindowStalling cfg = false ∧
      Sends cfg tx next (tx.numbered segment) pdu sent left ∧
      next.txNext = (if segment.sn = -1 then (tx.txNext + 1) % cfg.snModulus else tx.txNext) ∧
      next.txList = left ++ rest ∧ next.retransmitList = tx.retransmitList ∧
      next.bstatusTxSize = tx.bstatusTxSize - pduBytes cfg [segment] + pduBytes cfg left ∧
      next.bstatusRetxSize = tx.bstatusRetxSize ∧
      (next.pollSn = tx.pollSn ∨ ∃ x, next.pollSn = x % cfg.snModulus) := by
  unfold generateTxPdu at made
  split_ifs at made with openWindow
  split at made
  · cases made
  rename_i segment rest same
  split_ifs at made with room
  obtain ⟨sent, left, taken, split⟩ := takeTx_cases tx rest (Nat.le_of_not_lt room)
  rw [taken] at made
  dsimp only at made
  obtain ⟨p, _, _, _, _, out, poll⟩ := sendWithPoll_cases cfg tCurrent _ sent _
  rw [out] at made
  cases made
  exact ⟨segment, rest, sent, left, same, by simpa using openWindow,
    ⟨split, ⟨p, rfl⟩, rfl, rfl, rfl, rfl, rfl⟩, rfl, rfl, rfl, rfl, rfl, poll⟩

theorem checkTPollRetransmit_cases {result : AmTx × List AmEvent}
    (done : tx.checkTPollRetransmit cfg tCurrent = some result) :
    ∃ moved, tx.waitList = moved ++ result.1.waitList ∧ result.1.retransmitList =
        moved.foldl (nrRlcSduSegmentListAdd (tx.snCompareTx cfg)) tx.retransmitList ∧
      (∀ ident, (result.1.counts ident).refCount = (tx.counts ident).refCount ∧
        (result.1.counts ident).freeCount = (tx.counts ident).freeCount) ∧
      result.1.txNext = tx.txNext ∧ result.1.txNextAck = tx.txNextAck ∧ result.1.txList = tx.txList ∧
      result.1.created = tx.created ∧ result.1.txSize = tx.txSize ∧
      result.1.bstatusTxSize = tx.bstatusTxSize ∧
      result.1.bstatusRetxSize = tx.bstatusRetxSize + pduBytes cfg moved ∧
      result.1.pollSn = tx.pollSn ∧ (result.2 = [] ∨ result.2 = [.maxRetxReached]) := by
  unfold checkTPollRetransmit at done
  split at done
  · cases done
    exact ⟨[], rfl, rfl, fun _ => ⟨rfl, rfl⟩, rfl, rfl, rfl, rfl, rfl, rfl, by simp, rfl, .inl rfl⟩
  dsimp only at done
  split at done
  · cases done
    exact ⟨[], rfl, rfl, fun _ => ⟨rfl, rfl⟩, rfl, rfl, rfl, rfl, rfl, rfl, by simp, rfl, .inl rfl⟩
  split at done
  · cases done
  rename_i head rest same
  cases done
  refine ⟨_, (List.takeWhile_append_dropWhile).symm, rfl, ?_, rfl, rfl, rfl, rfl, rfl, rfl, rfl, rfl, ?_⟩
  · intro ident
    by_cases here : ident = head.sdu.ident
    · subst here
      simp
    · simp [Function.update_of_ne here]
  · split
    · exact .inr rfl
    · exact .inl rfl

end AmTx

end OranSlice.Rlc
