import Mathlib.Data.List.TakeWhile
import OranSlice.Rlc.StatusEffect

/-! The expiry of the poll timer. The code retransmits the SDU at the head of the wait list when there
is nothing else to send, or nothing may be sent, without a look whether there is one. -/

namespace OranSlice.Rlc

open BitCodec Window Runs List

variable {cfg : AmConfig} {tx next : AmTx} {status : StatusPdu}

def AmTx.Answers (cfg : AmConfig) (tx : AmTx) (status : StatusPdu) : Prop :=
  tx.snCompareTx cfg tx.pollSn status.ackSn < 0 ∨
    ∃ nack ∈ status.nacks, tx.snCompareTx cfg nack.sn tx.pollSn ≤ 0 ∧
      tx.snCompareTx cfg tx.pollSn ((nack.sn + nack.range) % cfg.snModulus) < 0

def AmTx.LeavesWaiting (cfg : AmConfig) (tx : AmTx) (status : StatusPdu) : Prop :=
  ∃ w ∈ tx.waitList, ¬ tx.snCompareTx cfg w.sn status.ackSn < 0 ∧ status.nacked cfg w = false

/-- In ordered lists, with increasing NACKs, nothing is cut off and some segment is to be
retransmitted. -/
def AmTx.LeavesRetx (cfg : AmConfig) (tx : AmTx) (status : StatusPdu) : Prop :=
  tx.Sorted cfg ∧ tx.Increasing cfg status ∧ (∀ r ∈ tx.retransmitList, ¬ tx.CutOff cfg status r) ∧
    ((∃ w ∈ tx.waitList, status.nacked cfg w = true) ∨
      ∃ r ∈ tx.retransmitList, status.nacked cfg r = true ∨ ¬ tx.snCompareTx cfg r.sn status.ackSn < 0)

/-- A report while the poll timer runs answers the poll, or leaves a segment in the wait list, or leaves
something to send in an open window. -/
def AmTx.CoversPoll (cfg : AmConfig) (tx : AmTx) (status : StatusPdu) : Prop :=
  tx.tPollRetransmitStart ≠ 0 → tx.Answers cfg status ∨ tx.LeavesWaiting cfg status ∨
    (tx.isWindowStalling cfg = false ∧ (tx.txList ≠ [] ∨ tx.LeavesRetx cfg status))

def AmTx.PollCovered (cfg : AmConfig) (tx : AmTx) : Prop :=
  tx.tPollRetransmitStart ≠ 0 → tx.checkPollAfterPduAssembly cfg = true → tx.waitList ≠ []

theorem AmTx.processStatus_unanswered (runs : (tx.processStatus cfg status).1.tPollRetransmitStart ≠ 0) :
    tx.tPollRetransmitStart ≠ 0 ∧ ¬ tx.Answers cfg status := by
  rw [AmTx.processStatus_timer] at runs
  constructor
  · intro stopped
    apply runs
    apply ControlState.processNacks_stopped
    unfold AmTx.reportStart
    split
    · rfl
    · exact stopped
  · rintro (acked | ⟨nack, member, from_, below⟩)
    · apply runs
      apply ControlState.processNacks_stopped
      unfold AmTx.reportStart
      rw [if_pos acked]
    · exact runs (AmTx.afterNacks_stopped member from_ below)

theorem AmTx.LeavesWaiting.stays (leaves : tx.LeavesWaiting cfg status) :
    (tx.processStatus cfg status).1.waitList ≠ [] := by
  obtain ⟨w, waiting, notAcked, missed⟩ := leaves
  have apart : ∀ part ∈ status.parts cfg, part.overlaps w = false := by
    intro part member
    exact eq_false_of_ne_true (any_eq_false.mp missed part member)
  let good (parts : List NackedPart) (s : ControlState) : Prop :=
    (∀ part ∈ parts, part ∈ status.parts cfg) ∧ tx.Accounted s.tx ∧ w ∈ s.passed ++ s.wait
  have reached : good [] (tx.afterNacks cfg status) := by
    apply ControlState.processNacks_good good
    · intro part parts s next before move
      obtain ⟨later, accounted, listed⟩ := before
      refine ⟨later, accounted.trans move.accounted, ?_⟩
      cases move with
      | nackWait segment rest current hit =>
        rw [current.1] at listed
        have other : w ≠ segment := by
          intro same
          rw [← same, apart part (later part mem_cons_self)] at hit
          cases hit
        simpa [other] using listed
      | freeWait segment rest current _ acked =>
        rw [current.1] at listed
        have other : w ≠ segment := by
          intro same
          rw [accounted.snCompareTx cfg, ← same] at acked
          exact notAcked acked
        simpa [other] using listed
      | passAll segment rest current _ _ | pass segment rest current _ _ => simpa [current.1] using listed
      | nackRetx | freeRetx | cutRetx | keepRetx => exact listed
    · intro part parts s before _
      exact ⟨fun other member => before.1 other (mem_cons_of_mem part member), before.2⟩
    · intro parts s before
      exact ⟨before.1, before.2.1.trans (.stopPoll s.tx), before.2.2⟩
    · obtain ⟨passed, wait, _, _⟩ := tx.reportStart_lists cfg status.ackSn
      refine ⟨fun _ same => same, tx.reportStart_accounted cfg status.ackSn, ?_⟩
      rw [wait]
      exact waiting
  have stays : w ∈ (tx.processStatus cfg status).1.waitList := by
    rw [(tx.processStatus_lists cfg status).1, mem_append]
    rcases mem_append.mp reached.2.2 with passed | still
    · exact .inl passed
    rw [← takeWhile_append_dropWhile
      (p := fun segment : SduSegment => decide (tx.snCompareTx cfg segment.sn status.ackSn < 0))
      (l := (tx.afterNacks cfg status).wait), mem_append] at still
    rcases still with taken | dropped
    · have isAcked := mem_takeWhile_imp taken
      exact absurd (of_decide_eq_true isAcked) notAcked
    · exact .inr dropped
  exact ne_nil_of_mem stays

theorem AmTx.LeavesRetx.stays (sound : cfg.Sound) (space : tx.InSpace cfg.snModulus)
    (ackSpace : Within cfg.snModulus status.ackSn) (admitted : tx.admits cfg status = true)
    (leaves : tx.LeavesRetx cfg status) : (tx.processStatus cfg status).1.retransmitList ≠ [] := by
  obtain ⟨sorted, increasing, spared, left⟩ := leaves
  have positive : 0 < cfg.snModulus := by
    have large := sound.modulus_large
    omega
  have fits := ((tx.admits_iff cfg status).mp admitted).2
  have hits := tx.hits_eq space.nextAck (StatusPdu.parts_within positive status) increasing
  have uncut : ∀ r ∈ tx.retransmitList, ¬ tx.Cuts cfg status r := by
    intro r listed cuts
    exact spared r listed ((tx.cuts_iff space.nextAck positive ackSpace fits increasing
      (space.retransmitList r listed)).mp cuts)
  have stays := AmTx.mem_retransmitList_after sorted fits uncut
  rcases left with ⟨w, waiting, nacked⟩ | ⟨r, listed, kept⟩
  · exact ne_nil_of_mem ((stays w).mpr (.inl ⟨waiting, by rw [hits]; exact nacked⟩))
  · exact ne_nil_of_mem ((stays r).mpr (.inr ⟨listed, by rw [hits]; exact kept⟩))

theorem AmTx.processStatus_notStalling (sound : cfg.Sound) (space : tx.InSpace cfg.snModulus)
    (after : (tx.processStatus cfg status).1.InSpace cfg.snModulus)
    (notStalling : tx.isWindowStalling cfg = false) :
    (tx.processStatus cfg status).1.isWindowStalling cfg = false := by
  rw [AmTx.notStalling_iff sound space.nextAck space.next] at notStalling
  rw [AmTx.notStalling_iff sound after.nextAck after.next]
  obtain ⟨left, same, result⟩ := tx.processStatus_result cfg status
  obtain ⟨_, _, _, _, rfl⟩ := same
  have newSpace := after.nextAck
  rw [result] at newSpace ⊢
  have ahead := AmTx.nextAck_le_next cfg { tx with
    waitList := (tx.processStatus cfg status).1.waitList
    retransmitList := (tx.processStatus cfg status).1.retransmitList } status.ackSn
  rw [(tx.processStatus_lists cfg status).1, (tx.processStatus_lists cfg status).2] at ahead
  have rebased := distance_rebase space.nextAck newSpace space.next ahead
  have bounds := distance_bounds space.nextAck newSpace
  dsimp only at rebased bounds ⊢
  omega

theorem AmTx.PollCovered.of_open (notStalling : tx.isWindowStalling cfg = false)
    (some_ : tx.txList ≠ [] ∨ tx.retransmitList ≠ []) : tx.PollCovered cfg := by
  intro _ due
  unfold AmTx.checkPollAfterPduAssembly at due
  rw [notStalling, Bool.or_false, Bool.and_eq_true, List.isEmpty_iff, List.isEmpty_iff] at due
  rcases some_ with more | more
  · exact absurd due.1 more
  · exact absurd due.2 more

theorem AmTx.PollCovered.processStatus (sound : cfg.Sound) (space : tx.InSpace cfg.snModulus)
    (after : (tx.processStatus cfg status).1.InSpace cfg.snModulus)
    (ackSpace : Within cfg.snModulus status.ackSn) (admitted : tx.admits cfg status = true)
    (covers : tx.CoversPoll cfg status) : (tx.processStatus cfg status).1.PollCovered cfg := by
  intro runs
  obtain ⟨running, unanswered⟩ := AmTx.processStatus_unanswered runs
  have txList : (tx.processStatus cfg status).1.txList = tx.txList := by
    obtain ⟨left, same, result⟩ := tx.processStatus_result cfg status
    obtain ⟨_, _, _, _, rfl⟩ := same
    rw [result]
  rcases (covers running).resolve_left unanswered with leaves | ⟨notStalling, some_⟩
  · exact fun _ => leaves.stays
  have opened := AmTx.processStatus_notStalling sound space after notStalling
  apply AmTx.PollCovered.of_open opened _ runs
  rcases some_ with more | leaves
  · rw [txList]
    exact .inl more
  · exact .inr (leaves.stays sound space ackSpace admitted)

theorem AmTx.PollCovered.sent (some_ : tx.waitList ≠ []) : tx.PollCovered cfg := fun _ _ => some_

theorem AmTx.Sends.waits {segment sent : SduSegment} {left : List SduSegment} {pdu : List Byte}
    (sends : tx.Sends cfg next segment pdu sent left) : next.waitList ≠ [] :=
  ne_nil_of_mem (sends.waitList_perm.mem_iff.mpr mem_cons_self)

theorem AmTx.PollCovered.generateDataPdu (covered : tx.PollCovered cfg) (tCurrent size : Nat) :
    (tx.generateDataPdu cfg tCurrent size).2.PollCovered cfg := by
  unfold AmTx.generateDataPdu
  split
  · rename_i result made
    obtain ⟨_, _, _, _, _, sends, _⟩ := AmTx.generateRetxPdu_cases made
    exact .sent sends.waits
  split
  · rename_i result made
    obtain ⟨_, _, _, _, _, _, sends, _⟩ := AmTx.generateTxPdu_cases made
    exact .sent sends.waits
  · exact covered

theorem AmTx.PollCovered.checkTPollRetransmit (covered : tx.PollCovered cfg) {tCurrent : Nat}
    {result : AmTx × List AmEvent} (done : tx.checkTPollRetransmit cfg tCurrent = some result) :
    result.1.PollCovered cfg := by
  unfold AmTx.checkTPollRetransmit at done
  split at done
  · cases done
    exact covered
  -- the timer is stopped
  dsimp only at done
  split at done
  · cases done
    exact fun runs => absurd rfl runs
  split at done
  · cases done
  · cases done
    exact fun runs => absurd rfl runs

def AmEntity.ExpirySafe (entity : AmEntity) : Prop :=
  ∀ now, timerExpired now entity.tx.tPollRetransmitStart entity.cfg.tPollRetransmit = true →
    entity.tx.checkPollAfterPduAssembly entity.cfg = true → entity.tx.waitList ≠ []

/-- The condition on an operation: an admitted report covers the poll, and the SDU discarded is not the
only thing left to send while the poll timer runs and nothing waits. -/
def DataOp.CoversPoll (entity : AmEntity) : DataOp → Prop
  | .recvPdu buffer => ∀ status ∈ receivedStatus entity.cfg buffer,
      entity.tx.admits entity.cfg status = true → entity.tx.CoversPoll entity.cfg status
  | .discardSdu sduId => entity.tx.tPollRetransmitStart ≠ 0 → entity.tx.waitList ≠ [] ∨
      entity.tx.retransmitList ≠ [] ∨
      entity.tx.txList.eraseP (fun segment => segment.sdu.upperLayerId == sduId) ≠ []
  | _ => True

structure AmEntity.Polls (entity : AmEntity) : Prop where
  sound : entity.cfg.Sound
  space : entity.InSpace
  covered : entity.tx.PollCovered entity.cfg

namespace AmEntity.Polls

variable {entity after : AmEntity}

theorem positive (polls : entity.Polls) : 0 < entity.cfg.snModulus := by
  have large := polls.sound.modulus_large
  omega

theorem step (entity : AmEntity) (op : DataOp) (after : AmEntity) (polls : entity.Polls)
    (covers : op.CoversPoll entity) (taken : entity.dataStep op = some after) : after.Polls := by
  obtain ⟨same, space⟩ := polls.space.dataStep polls.positive polls.sound.modulus taken
  obtain ⟨_, _, move⟩ := dataStep_moves taken
  refine ⟨same ▸ polls.sound, space, ?_⟩
  have txSpace := space.tx
  rw [same] at txSpace ⊢
  generalize after.tx = tx at move txSpace
  cases move with
  | keep => exact polls.covered
  | enqueue =>
    intro runs due
    apply polls.covered runs
    -- with an SDU to send, only a stalled window asks for a poll
    rcases (Bool.or_eq_true _ _).mp due with none | stalls
    · simp at none
    · exact (Bool.or_eq_true _ _).mpr (.inr stalls)
  | discard =>
    intro runs due
    rcases covers runs with waits | more
    · exact waits
    by_cases stalls : entity.tx.isWindowStalling entity.cfg = true
    · apply polls.covered runs
      unfold AmTx.checkPollAfterPduAssembly
      rw [stalls, Bool.or_true]
    · have opened : entity.tx.isWindowStalling entity.cfg = false := by simpa using stalls
      exact AmTx.PollCovered.of_open opened more.symm runs due
  | send size => exact polls.covered.generateDataPdu entity.tCurrent size
  | report buffer status received admitted =>
    exact AmTx.PollCovered.processStatus polls.sound polls.space.tx txSpace
      (receivedStatus_ackSn polls.sound.modulus received) admitted (covers status received admitted)
  | time now result polled => exact polls.covered.checkTPollRetransmit polled

end AmEntity.Polls

/-- In every run whose operations cover the poll, the expiry of the poll timer never meets an empty wait
list. -/
theorem expiry_never_faults {rxMaxsize txMaxsize : Int} {params : AmParams} {snFieldLength : Nat}
    {entity : AmEntity} (created : newNrRlcEntityAm rxMaxsize txMaxsize params snFieldLength = some entity)
    (ops : List DataOp) (covers : Steps AmEntity.dataStep (fun entity op => op.CoversPoll entity) entity ops) :
    Along AmEntity.dataStep (fun entity => entity.ExpirySafe ∧ ∀ now, (entity.setTime now).isSome)
      entity ops := by
  obtain ⟨sound, rx, fresh, _⟩ := newNrRlcEntityAm_sound created
  have positive : 0 < entity.cfg.snModulus := by
    have large := sound.modulus_large
    omega
  have start : entity.Polls := by
    have space := AmEntity.InSpace.initial positive 0
    refine ⟨sound, ⟨?_, ?_⟩, ?_⟩
    · rw [rx]
      exact space.rx
    · rw [fresh]
      exact space.tx
    · rw [fresh]
      exact fun runs => absurd rfl runs
  have polls := invariant_along AmEntity.Polls.step entity ops start covers
  intro front inside middle reached
  have covered := (polls front inside middle reached).covered
  have safe : middle.ExpirySafe := by
    intro now expired due
    apply covered _ due
    intro stopped
    rw [stopped] at expired
    cases expired
  refine ⟨safe, ?_⟩
  intro now
  unfold AmEntity.setTime
  cases polled : middle.tx.checkTPollRetransmit middle.cfg now with
  | some result => rfl
  | none =>
    -- only an empty wait list makes the check fail
    exfalso
    unfold AmTx.checkTPollRetransmit at polled
    split_ifs at polled with expired
    dsimp only at polled
    split_ifs at polled with due
    have asked : AmTx.checkPollAfterPduAssembly middle.cfg
        { middle.tx with tPollRetransmitStart := 0, forcePoll := true } = true := by
      simpa using due
    have waits := safe now (by simpa using expired) asked
    split at polled
    · rename_i empty
      exact waits empty
    · cases polled

section Evaluation

instance (cfg : AmConfig) (tx : AmTx) (status : StatusPdu) : Decidable (tx.Answers cfg status) :=
  inferInstanceAs (Decidable (_ ∨ _))

instance (cfg : AmConfig) (tx : AmTx) (status : StatusPdu) : Decidable (tx.LeavesWaiting cfg status) :=
  inferInstanceAs (Decidable (∃ w ∈ tx.waitList, _))

instance (cfg : AmConfig) (tx : AmTx) (status : StatusPdu) : Decidable (tx.LeavesRetx cfg status) :=
  inferInstanceAs (Decidable (_ ∧ _ ∧ _ ∧ _))

instance (cfg : AmConfig) (tx : AmTx) (status : StatusPdu) : Decidable (tx.CoversPoll cfg status) :=
  inferInstanceAs (Decidable (_ → _))

instance (entity : AmEntity) (op : DataOp) : Decidable (op.CoversPoll entity) :=
  match op with
  | .recvPdu buffer => inferInstanceAs (Decidable (∀ status ∈ receivedStatus entity.cfg buffer,
      entity.tx.admits entity.cfg status = true → entity.tx.CoversPoll entity.cfg status))
  | .discardSdu _ => inferInstanceAs (Decidable (_ → _))
  | .recvSdu _ _ | .generatePdu _ | .setTime _ => isTrue trivial

end Evaluation

def polledAgainOps : List DataOp :=
  [.setTime 1, .recvSdu [7] 0, .recvSdu [8] 1, .generatePdu 100, .generatePdu 100,
    .recvPdu [0, 2, 0x80, 0, 0], .generatePdu 100]

/-- The poll is answered when both are acknowledged. -/
theorem expiry_after_answer :
    ∃ entity, newNrRlcEntityAm 100000 100000 defaultAmParams 12 = some entity ∧
      Along AmEntity.dataStep (fun entity => entity.ExpirySafe ∧ ∀ now, (entity.setTime now).isSome)
        entity (polledAgainOps ++ [.recvPdu [0, 2, 0]]) :=
  ⟨_, rfl, @expiry_never_faults 100000 100000 defaultAmParams 12 _ rfl _ (steps_of_check (by decide +kernel))⟩

/-- A report that acknowledges the first SDU only leaves nothing to wait for, but POLL_SN is that of the
second SDU: the expiry reads the head of an empty list. -/
theorem expiry_faults :
    ∃ start entity, newNrRlcEntityAm 100000 100000 defaultAmParams 12 = some start ∧
      run AmEntity.dataStep start (polledAgainOps ++ [.recvPdu [0, 1, 0]]) = some entity ∧
      timerExpired 100 entity.tx.tPollRetransmitStart entity.cfg.tPollRetransmit = true ∧
      entity.tx.checkPollAfterPduAssembly entity.cfg = true ∧ entity.tx.waitList = [] ∧
      (entity.setTime 100).isNone = true :=
  reached_of_check _ (by decide) (fun _ => id)

end OranSlice.Rlc
