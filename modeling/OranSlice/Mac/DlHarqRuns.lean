import OranSlice.Core.Matching
import OranSlice.Mac.DlHarq

/-! DL HARQ processes over whole runs: each is in exactly one list and no assertion on the lists fires,
exactly as long as Msg4 is not retransmitted and no procedure or retransmission meets what a Msg4 has
left behind. -/

namespace OranSlice.Mac

open Runs Matching List Function

def Assertion.ofLists : Assertion → Bool
  | .nothingToRemove | .idNotFound | .endlessWalk | .shortenedList | .isWaiting => true
  | .noFreeProcess | .roundOutOfBounds | .listLengths | .smallerHarqList => false

/-- Where the lists stay in order. A retransmission uses the process that the stored transmission names,
which must not be waiting. Msg4 must not be a retransmission. A procedure may only end at an
acknowledged or abandoned Msg4 when no process awaits its retransmission. -/
def DlHarqOp.Allowed (ctrl : DlHarqCtrl) : DlHarqOp → Prop
  | .schedule .fr1 (some grant) =>
    ctrl.msg4Acked = true → 0 ≤ ctrl.lists.retrans.head →
      (retransmission ctrl grant ctrl.lists.retrans.head.toNat).rbSize ≠ 0 →
      (ctrl.process (ctrl.harqProcesses ctrl.lists.retrans.head.toNat).schedPdsch.dlHarqPid.toNat).isWaiting = false
  | .scheduleRa index feedback =>
    match (ctrl.ra index).raState with
    | .msg4 => feedback.isSome → ctrl.lists.retrans.head < 0
    | .waitMsg4Ack =>
      (ctrl.process (ctrl.ra index).harqPid).isWaiting = false →
        (ctrl.process (ctrl.ra index).harqPid).round = 0 → ctrl.lists.retrans.head < 0
    | .idle => True
  | _ => True

namespace DlHarqCtrl

variable {ctrl : DlHarqCtrl} {pid : Nat} {value : HarqProcess}

def size (ctrl : DlHarqCtrl) : Nat := ctrl.lists.available.len

def stored (ctrl : DlHarqCtrl) (pid : Nat) : Int := (ctrl.harqProcesses pid).schedPdsch.dlHarqPid

@[simp] theorem process_setProcess : (ctrl.setProcess pid value).process = update ctrl.process pid value :=
  comp_update DlHarqProcess.toHarqProcess _ _ _

theorem stored_setPdsch (schedPdsch : HarqPdsch) :
    (ctrl.setPdsch pid schedPdsch).stored = update ctrl.stored pid schedPdsch.dlHarqPid :=
  comp_update (fun harq : DlHarqProcess => harq.schedPdsch.dlHarqPid) _ _ _

theorem comp_update_same {β : Type} (field : DlHarqProcess → β) (harq : DlHarqProcess)
    (same : field harq = field (ctrl.harqProcesses pid)) :
    field ∘ update ctrl.harqProcesses pid harq = field ∘ ctrl.harqProcesses := by
  rw [comp_update, same]
  exact update_eq_self pid _

@[simp] theorem stored_setProcess : (ctrl.setProcess pid value).stored = ctrl.stored :=
  comp_update_same (fun harq => harq.schedPdsch.dlHarqPid) _ rfl

theorem setProcess_setProcess (other : HarqProcess) :
    (ctrl.setProcess pid value).setProcess pid other = ctrl.setProcess pid other := by
  simp [setProcess]

@[simp] theorem process_setPdsch (schedPdsch : HarqPdsch) :
    (ctrl.setPdsch pid schedPdsch).process = ctrl.process :=
  comp_update_same DlHarqProcess.toHarqProcess _ rfl

@[simp] theorem process_setFeedbackFrame (frame : Nat) :
    (ctrl.setFeedbackFrame pid frame).process = ctrl.process :=
  comp_update_same DlHarqProcess.toHarqProcess _ rfl

@[simp] theorem stored_setFeedbackFrame (frame : Nat) : (ctrl.setFeedbackFrame pid frame).stored = ctrl.stored :=
  comp_update_same (fun harq => harq.schedPdsch.dlHarqPid) _ rfl

theorem process_sendHarq (lists : HarqLists) (frame slot : Nat) :
    (sendHarq ctrl lists pid frame slot).process = update ctrl.process pid ((ctrl.process pid).sent slot) := by
  change ((ctrl.setFeedbackFrame pid frame).setProcess pid _).process = _
  rw [process_setProcess, process_setFeedbackFrame]

theorem stored_sendHarq (lists : HarqLists) (frame slot : Nat) :
    (sendHarq ctrl lists pid frame slot).stored = ctrl.stored := by
  change ((ctrl.setFeedbackFrame pid frame).setProcess pid _).stored = _
  rw [stored_setProcess, stored_setFeedbackFrame]

end DlHarqCtrl

structure DlHarqState (harqRoundMax : Nat) (ctrl : DlHarqCtrl) (pools : Pools) : Prop
    extends HarqState harqRoundMax ctrl.size ctrl.lists ctrl.process pools where
  size_pos : 0 < ctrl.size
  size_le : ctrl.size ≤ nrMaxHarqProcesses
  stored_lt : ∀ pid, 0 ≤ ctrl.stored pid ∧ ctrl.stored pid < ctrl.size
  ra_lt : ∀ index, (ctrl.ra index).harqPid < ctrl.size

theorem nrofHarq_pos (configured : Option NrofHarqProcesses) : 0 < nrofHarq configured := by
  cases configured with
  | none => decide
  | some configured => cases configured <;> decide

theorem nrofHarq_le (configured : Option NrofHarqProcesses) : nrofHarq configured ≤ nrMaxHarqProcesses := by
  cases configured with
  | none => decide
  | some configured => cases configured <;> decide

theorem hold_createHarqLists (size : Nat) : (createHarqLists size).Hold size ⟨range size, [], []⟩ where
  available := (NrList.holds_create size).addAll (range size) nodup_range (fun _ => mem_range.mp)
  feedback := NrList.holds_create size
  retrans := NrList.holds_create size

theorem DlHarqState.of_size {harqRoundMax size : Nat} {ctrl : DlHarqCtrl} {pools : Pools}
    (kept : HarqState harqRoundMax size ctrl.lists ctrl.process pools) (positive : 0 < size)
    (fits : size ≤ nrMaxHarqProcesses) (stored : ∀ pid, 0 ≤ ctrl.stored pid ∧ ctrl.stored pid < size)
    (ra : ∀ index, (ctrl.ra index).harqPid < size) : DlHarqState harqRoundMax ctrl pools := by
  obtain rfl : ctrl.size = size := kept.hold.available.len_eq
  exact ⟨kept, positive, fits, stored, ra⟩

theorem dlHarqState_new {harqRoundMax : Nat} (positive : 0 < harqRoundMax) (configured : Option NrofHarqProcesses)
    (msg4Acked : Bool) :
    DlHarqState harqRoundMax (.new configured msg4Acked) ⟨range (nrofHarq configured), [], []⟩ := by
  refine .of_size ⟨hold_createHarqLists _, Pools.complete_range _, ?_, fun _ _ => rfl, ?_, fun _ _ => rfl,
    fun _ => positive⟩ (nrofHarq_pos configured) (nrofHarq_le configured) (fun pid => ?_)
    (fun _ => nrofHarq_pos configured)
  · simp [DlHarqCtrl.process, DlHarqCtrl.new]
  · simp
  · exact ⟨Int.le_refl 0, Int.natCast_pos.mpr (nrofHarq_pos configured)⟩

section Steps

variable {harqRoundMax pid : Nat} {ctrl : DlHarqCtrl} {pools : Pools} {rest : List Nat}

variable {next last : DlHarqCtrl} {pools' pools'' : Pools} {feedback : NrList} {frame slot fuel size : Nat}
  {setsMsg4Acked : Bool}

theorem DlHarqState.carry (state : DlHarqState harqRoundMax ctrl pools)
    (kept : HarqState harqRoundMax ctrl.size next.lists next.process pools') (same : next.stored = ctrl.stored)
    (ra : ∀ index, (next.ra index).harqPid < ctrl.size) : DlHarqState harqRoundMax next pools' := by
  refine .of_size kept state.size_pos state.size_le ?_ ra
  rw [same]
  exact state.stored_lt

structure DlHarqCtrl.Settled (ctrl next : DlHarqCtrl) (pools pools' : Pools) : Prop where
  size : next.size = ctrl.size
  free : pools.free ⊆ pools'.free
  waiting : pools'.waiting ⊆ pools.waiting
  schedPdsch : ∀ pid, (next.harqProcesses pid).schedPdsch = (ctrl.harqProcesses pid).schedPdsch
  same : ∀ pid ∈ pools'.waiting, next.harqProcesses pid = ctrl.harqProcesses pid

theorem DlHarqCtrl.Settled.refl (ctrl : DlHarqCtrl) (pools : Pools) : ctrl.Settled ctrl pools pools :=
  ⟨rfl, List.Subset.refl _, List.Subset.refl _, fun _ => rfl, fun _ _ => rfl⟩

theorem DlHarqCtrl.Settled.trans
    (first : ctrl.Settled next pools pools') (second : next.Settled last pools' pools'') :
    ctrl.Settled last pools pools'' where
  size := second.size.trans first.size
  free := List.Subset.trans first.free second.free
  waiting := List.Subset.trans second.waiting first.waiting
  schedPdsch := fun pid => (second.schedPdsch pid).trans (first.schedPdsch pid)
  same := fun pid member => (second.same pid member).trans (first.same pid (second.waiting member))

theorem handleDlHarq_harqProcesses (ctrl : DlHarqCtrl) (pid : Nat) (success : Bool) (other : Nat) :
    ((handleDlHarq harqRoundMax pid success ctrl).harqProcesses other).schedPdsch =
        (ctrl.harqProcesses other).schedPdsch ∧
      (other ≠ pid →
        (handleDlHarq harqRoundMax pid success ctrl).harqProcesses other = ctrl.harqProcesses other) := by
  by_cases same : other = pid
  · subst same
    unfold handleDlHarq abortNrDlHarq
    dsimp only
    split_ifs <;> simp [DlHarqCtrl.setProcess]
  · have unchanged : (handleDlHarq harqRoundMax pid success ctrl).harqProcesses other = ctrl.harqProcesses other := by
      unfold handleDlHarq abortNrDlHarq
      dsimp only
      split_ifs <;> simp [DlHarqCtrl.setProcess, same]
    exact ⟨by rw [unchanged], fun _ => unchanged⟩

theorem handleDlHarq_size (ctrl : DlHarqCtrl) (pid : Nat) (success : Bool) :
    (handleDlHarq harqRoundMax pid success ctrl).size = ctrl.size := by
  unfold handleDlHarq abortNrDlHarq
  dsimp only
  split_ifs <;> simp [addTailNrList] <;> split <;> rfl

theorem handleDlHarq_state (state : DlHarqState harqRoundMax ctrl pools) (first : pools.waiting = pid :: rest)
    (holds : feedback.Holds ctrl.size rest) (success : Bool) :
    ∃ pools', pools'.waiting = rest ∧
      ctrl.Settled (handleDlHarq harqRoundMax pid success { ctrl with lists := { ctrl.lists with feedback } })
        pools pools' ∧
      DlHarqState harqRoundMax
        (handleDlHarq harqRoundMax pid success { ctrl with lists := { ctrl.lists with feedback } }) pools' := by
  have settled : ∀ pools' : Pools, pools.free ⊆ pools'.free → pools'.waiting = rest →
      ctrl.Settled (handleDlHarq harqRoundMax pid success { ctrl with lists := { ctrl.lists with feedback } })
        pools pools' := by
    intro pools' free shorter
    have unique := state.complete.waiting_nodup
    rw [first] at unique
    refine ⟨handleDlHarq_size _ pid success, free, ?_,
      fun other => (handleDlHarq_harqProcesses _ pid success other).1, ?_⟩
    · rw [shorter, first]
      exact subset_cons_self pid rest
    · intro other member
      rw [shorter] at member
      exact (handleDlHarq_harqProcesses _ pid success other).2
        (ne_of_mem_of_not_mem member (nodup_cons.mp unique).1)
  have freed : pools.free ⊆ (pools.finish pid).free := subset_append_left _ _
  have value : ∀ settled : HarqProcess,
      (DlHarqCtrl.setProcess { ctrl with lists := { ctrl.lists with feedback } } pid settled).process pid = settled := by
    intro settled
    rw [DlHarqCtrl.process_setProcess, update_self]
  have finished : ∀ settled : HarqProcess, settled.isWaiting = false → DlHarqState harqRoundMax
        { ctrl.setProcess pid settled.finished with
          lists := { ctrl.lists with feedback, available := addTailNrList ctrl.lists.available pid } }
        (pools.finish pid) := by
    intro settled idle
    have reached := state.toHarqState.finish first holds idle
    rw [← DlHarqCtrl.process_setProcess] at reached
    exact state.carry reached DlHarqCtrl.stored_setProcess state.ra_lt
  have over_finish : (pools.finish pid).waiting = rest := by rw [Pools.finish, first]; rfl
  have over_fail : (pools.fail pid).waiting = rest := by rw [Pools.fail, first]; rfl
  by_cases acked : success = true
  · refine ⟨pools.finish pid, over_finish, settled _ freed over_finish, ?_⟩
    simp only [handleDlHarq, value, if_pos acked]
    rw [DlHarqCtrl.setProcess_setProcess]
    exact finished _ rfl
  · by_cases last : ((DlHarqCtrl.process { ctrl with lists := { ctrl.lists with feedback } } pid).round : Int) ≥
        (harqRoundMax : Int) - 1
    · refine ⟨pools.finish pid, over_finish, settled _ freed over_finish, ?_⟩
      simp only [handleDlHarq, value, if_neg acked]
      rw [if_pos last, abortNrDlHarq, value, DlHarqCtrl.setProcess_setProcess]
      exact finished _ rfl
    · refine ⟨pools.fail pid, over_fail, settled _ (List.Subset.refl _) over_fail, ?_⟩
      simp only [handleDlHarq, value, if_neg acked]
      rw [if_neg last, DlHarqCtrl.setProcess_setProcess]
      set settled : HarqProcess :=
        { ctrl.process pid with feedbackSlot := HarqProcess.noFeedbackSlot, isWaiting := false } with settled_eq
      have reached := @HarqState.retry _ _ _ _ _ _ _ state.toHarqState settled _ first holds rfl (by
        have small : ¬ ((ctrl.process pid).round : Int) ≥ (harqRoundMax : Int) - 1 := last
        change (ctrl.process pid).round + 1 < harqRoundMax
        omega)
      rw [← DlHarqCtrl.process_setProcess] at reached
      exact state.carry reached DlHarqCtrl.stored_setProcess state.ra_lt

def DlHarqProcess.verdict (harq : DlHarqProcess) (frame slot : Nat) : Verdict :=
  if harq.isPast frame slot then .past else if harq.isFuture frame slot then .future else .due

def DlHarqCtrl.judge (ctrl : DlHarqCtrl) (frame slot pid : Nat) : Verdict :=
  (ctrl.harqProcesses pid).verdict frame slot

theorem findHarq_state (state : DlHarqState harqRoundMax ctrl pools) (enough : pools.waiting.length < fuel) :
    ∃ found after pools', findHarq harqRoundMax frame slot fuel ctrl = .ok (found, after) ∧
      DlHarqState harqRoundMax after pools' ∧ ctrl.Settled after pools pools' ∧
      match found with
      | none => ∀ count, answer (ctrl.judge frame slot) (count + 1) pools.waiting = ([], pools'.waiting)
      | some pid => ∃ rest, pools'.waiting = pid :: rest ∧ ∀ count,
          answer (ctrl.judge frame slot) (count + 1) pools.waiting =
            (pid :: (answer (ctrl.judge frame slot) count rest).1, (answer (ctrl.judge frame slot) count rest).2) := by
  induction fuel generalizing ctrl pools with
  | zero => exact absurd enough (Nat.not_lt_zero _)
  | succ fuel ih =>
    cases waiting : pools.waiting with
    | nil =>
      have empty : ctrl.lists.feedback.head < 0 := state.hold.feedback.head_neg_iff.mpr waiting
      refine ⟨none, ctrl, pools, by rw [findHarq, if_pos empty], state, .refl ctrl pools, ?_⟩
      rw [waiting]
      exact fun _ => rfl
    | cons pid rest =>
      have holds := state.hold.feedback
      rw [waiting] at holds
      have head_pid := holds.head_eq
      have filled : ¬ ctrl.lists.feedback.head < 0 := by rw [head_pid]; omega
      rw [findHarq, if_neg filled, head_pid, Int.toNat_natCast]
      by_cases past : (ctrl.harqProcesses pid).isPast frame slot
      · obtain ⟨feedback, removed, left⟩ := holds.removeFront
        obtain ⟨pools', shorter, settled, missed⟩ := handleDlHarq_state state waiting left false
        have less : pools'.waiting.length < fuel := by
          rw [waiting, length_cons] at enough
          rw [shorter]
          omega
        obtain ⟨found, after, last, walked, kept, later, matched⟩ := ih missed less
        have verdict : ctrl.judge frame slot pid = .past := if_pos past
        -- the processes that still wait are judged as before
        have dropped : ∀ count, answer (ctrl.judge frame slot) (count + 1) (pid :: rest) =
            answer (ctrl.judge frame slot) (count + 1) pools'.waiting := by
          intro count
          rw [shorter, answer, verdict]
        have same : ∀ count queue, queue ⊆ pools'.waiting → answer (ctrl.judge frame slot) count queue =
              answer (DlHarqCtrl.judge (handleDlHarq harqRoundMax pid false
                { ctrl with lists := { ctrl.lists with feedback } }) frame slot) count queue := by
          intro count queue sub
          apply answer_congr
          intro other member
          rw [DlHarqCtrl.judge, DlHarqCtrl.judge, settled.same other (sub member)]
        refine ⟨found, after, last, ?_, kept, settled.trans later, ?_⟩
        · simp only [if_pos past, removed]
          exact walked
        · cases found with
          | none =>
            intro count
            rw [dropped, same _ _ (List.Subset.refl _)]
            exact matched count
          | some other =>
            obtain ⟨following, first, each⟩ := matched
            refine ⟨following, first, fun count => ?_⟩
            have sub : following ⊆ pools'.waiting := by
              apply List.Subset.trans _ later.waiting
              rw [first]
              exact subset_cons_self other following
            rw [dropped, same _ _ (List.Subset.refl _), same _ _ sub]
            exact each count
      · simp only [if_neg past]
        by_cases future : (ctrl.harqProcesses pid).isFuture frame slot
        · refine ⟨none, ctrl, pools, by rw [if_pos future], state, .refl ctrl pools, fun count => ?_⟩
          have verdict : ctrl.judge frame slot pid = .future := by
            rw [DlHarqCtrl.judge, DlHarqProcess.verdict, if_neg past, if_pos future]
          rw [answer, verdict, waiting]
        · refine ⟨some pid, ctrl, pools, by rw [if_neg future], state, .refl ctrl pools, rest, waiting,
            fun count => ?_⟩
          have verdict : ctrl.judge frame slot pid = .due := by
            rw [DlHarqCtrl.judge, DlHarqProcess.verdict, if_neg past, if_neg future]
          rw [answer, verdict]

theorem harqBits_state (bits : List Bool) (state : DlHarqState harqRoundMax ctrl pools) :
    ∃ after pools', harqBits harqRoundMax frame slot setsMsg4Acked bits ctrl =
        .ok ((answer (ctrl.judge frame slot) bits.length pools.waiting).1, after) ∧
      DlHarqState harqRoundMax after pools' ∧ ctrl.Settled after pools pools' ∧
      pools'.waiting = (answer (ctrl.judge frame slot) bits.length pools.waiting).2 := by
  induction bits generalizing ctrl pools with
  | nil => exact ⟨ctrl, pools, by cases pools.waiting <;> rfl, state, .refl ctrl pools, by cases pools.waiting <;> rfl⟩
  | cons success bits ih =>
    obtain ⟨found, middle, pools', walked, kept, settled, matched⟩ :=
      @findHarq_state _ _ _ frame slot _ state state.hold.feedback.length_lt
    unfold harqBits
    simp only [walked, bind, Except.bind]
    cases found with
    | none =>
      rw [length_cons, matched]
      exact ⟨middle, pools', rfl, kept, settled, rfl⟩
    | some pid =>
      obtain ⟨rest, first, each⟩ := matched
      have holds := kept.hold.feedback
      rw [first] at holds
      obtain ⟨feedback, removed, left⟩ := holds.removeFront
      have waits : ¬ (middle.process pid).isWaiting = false := by
        rw [(kept.waiting pid).mpr (first ▸ mem_cons_self)]
        decide
      obtain ⟨pools'', shorter, settled', handled⟩ := handleDlHarq_state kept first left success
      let acked := { handleDlHarq harqRoundMax pid success
          { middle with lists := { middle.lists with feedback } } with
        msg4Acked := (handleDlHarq harqRoundMax pid success
          { middle with lists := { middle.lists with feedback } }).msg4Acked || (setsMsg4Acked && success) }
      have acked_state : DlHarqState harqRoundMax acked pools'' :=
        handled.carry handled.toHarqState rfl handled.ra_lt
      have so_far : ctrl.Settled acked pools pools'' :=
        settled.trans ⟨settled'.size, settled'.free, settled'.waiting, settled'.schedPdsch, settled'.same⟩
      obtain ⟨after, last, looped, result, later, queue⟩ := ih acked_state
      have same : answer (ctrl.judge frame slot) bits.length rest =
          answer (acked.judge frame slot) bits.length pools''.waiting := by
        rw [← shorter]
        apply answer_congr
        intro other member
        rw [DlHarqCtrl.judge, DlHarqCtrl.judge, so_far.same other member]
      refine ⟨after, last, ?_, result, so_far.trans later, ?_⟩
      · rw [length_cons, each, same]
        simp only [if_neg waits, removed]
        rw [looped]
        rfl
      · rw [length_cons, each, same]
        exact queue

theorem resetDlHarqList_state (state : DlHarqState harqRoundMax ctrl pools) :
    ∃ after, resetDlHarqList ctrl = .ok after ∧ DlHarqState harqRoundMax after pools.reclaim := by
  obtain ⟨lists, emptied, reclaimed⟩ := state.toHarqState.reset state.size_le
  refine ⟨_, by rw [resetDlHarqList, emptied]; rfl, ?_⟩
  apply state.carry
  · convert reclaimed using 1
    funext pid
    simp only [DlHarqCtrl.process]
    split <;> rfl
  · funext pid
    simp only [DlHarqCtrl.stored]
    split <;> rfl
  · exact state.ra_lt

theorem growHarqLists_state (state : DlHarqState harqRoundMax ctrl pools) (larger : ctrl.size < size)
    (fits : size ≤ nrMaxHarqProcesses) :
    ∃ lists pools', growHarqLists ctrl.lists ctrl.size size = .ok lists ∧
      DlHarqState harqRoundMax { ctrl with lists } pools' := by
  obtain ⟨available, resized, holds⟩ := state.hold.available.resize larger
  obtain ⟨feedback, resized', holds'⟩ := state.hold.feedback.resize larger
  obtain ⟨retrans, resized'', holds''⟩ := state.hold.retrans.resize larger
  have total : ctrl.size + (size - ctrl.size) = size := by omega
  have complete := state.complete.grow (size - ctrl.size)
  rw [total] at complete
  have grown := holds.addAll (range' ctrl.size (size - ctrl.size)) complete.free_nodup (by
    intro id member
    have bounds := mem_range'_1.mp member
    omega)
  let lists : HarqLists :=
    ⟨(range' ctrl.size (size - ctrl.size)).foldl addTailNrList available, feedback, retrans⟩
  refine ⟨lists, pools.grow ctrl.size (size - ctrl.size), ?_, ?_⟩
  · rw [growHarqLists, resized, resized', resized'']
    rfl
  · refine .of_size ⟨⟨grown, holds', holds''⟩, complete, state.waiting, ?_, state.again_round, ?_, state.round_lt⟩
      (by omega) fits ?_ (fun index => lt_trans (state.ra_lt index) larger)
    · intro id member
      rcases mem_append.mp member with before | added
      · exact state.free_round id before
      · exact state.unused_round id (mem_range'_1.mp added).1
    · intro id outside
      exact state.unused_round id (by omega)
    · intro id
      obtain ⟨low, high⟩ := state.stored_lt id
      exact ⟨low, Int.lt_trans high (Int.ofNat_lt.mpr larger)⟩

theorem createDlHarqList_state (state : DlHarqState harqRoundMax ctrl pools) (configured : Option NrofHarqProcesses) :
    createDlHarqList ctrl.lists configured = .error .smallerHarqList ∨
      ∃ lists pools', createDlHarqList ctrl.lists configured = .ok lists ∧
        DlHarqState harqRoundMax { ctrl with lists } pools' := by
  have same : ¬ (ctrl.lists.available.len ≠ ctrl.lists.feedback.len ∨
      ctrl.lists.available.len ≠ ctrl.lists.retrans.len) := by
    rw [state.hold.feedback.len_eq, state.hold.retrans.len_eq]
    simp [DlHarqCtrl.size]
  have present : ctrl.lists.available.len ≠ 0 := ne_of_gt state.size_pos
  rw [createDlHarqList, if_neg same, if_neg present]
  by_cases equal : ctrl.lists.available.len = nrofHarq configured
  · rw [if_pos equal]
    exact .inr ⟨ctrl.lists, pools, rfl, state⟩
  rw [if_neg equal]
  by_cases smaller : nrofHarq configured < ctrl.lists.available.len
  · exact .inl (if_pos smaller)
  rw [if_neg smaller]
  have larger : ctrl.size < nrofHarq configured := by
    unfold DlHarqCtrl.size
    omega
  exact .inr (growHarqLists_state state larger (nrofHarq_le configured))

structure DlHarqCtrl.Joined (ctrl next : DlHarqCtrl) (schedPdsch : HarqPdsch) (pid frame slot : Nat) : Prop where
  size : next.size = ctrl.size
  tail : next.lists.feedback.tail = pid
  feedbackFrame : (next.harqProcesses pid).feedbackFrame = frame
  feedbackSlot : (next.harqProcesses pid).feedbackSlot = slot
  others : ∀ other, other ≠ pid → next.harqProcesses other = ctrl.harqProcesses other
  stored : (next.harqProcesses pid).schedPdsch = { schedPdsch with dlHarqPid := pid } ∨
    (ctrl.process pid).round ≠ 0 ∧ (next.harqProcesses pid).schedPdsch = (ctrl.harqProcesses pid).schedPdsch

section

variable (state : DlHarqState harqRoundMax ctrl pools)

include state

theorem nrScheduleUeSpec_state {schedPdsch : HarqPdsch} {frame slot : Nat} {taken : HarqLists} {after : Pools}
    (allocated : schedPdsch.rbSize ≠ 0)
    (sent : HarqState.Sent harqRoundMax ctrl.size ctrl.lists ctrl.process pools schedPdsch.dlHarqPid slot pid taken
      after) :
    ∃ next, nrScheduleUeSpec harqRoundMax ctrl schedPdsch frame slot = .ok next ∧
      DlHarqState harqRoundMax next after ∧ ctrl.Joined next schedPdsch pid frame slot := by
  have quiet : ¬ (ctrl.process pid).isWaiting = true := by rw [sent.idle]; decide
  have reached := sent.state
  rw [← DlHarqCtrl.process_sendHarq taken frame slot] at reached
  have kept : DlHarqState harqRoundMax (sendHarq ctrl taken pid frame slot) after :=
    state.carry reached (DlHarqCtrl.stored_sendHarq taken frame slot) state.ra_lt
  have inside : pid < ctrl.size := reached.complete.waiting_lt (by rw [sent.waiting_eq]; exact mem_concat_self)
  have round_eq : ((sendHarq ctrl taken pid frame slot).process pid).round = (ctrl.process pid).round := by
    rw [DlHarqCtrl.process_sendHarq, update_self]
    rfl
  rw [nrScheduleUeSpec, if_neg allocated, sent.take]
  simp only [bind, Except.bind, if_neg quiet]
  rw [if_pos (kept.round_lt pid)]
  split_ifs with again
  · refine ⟨_, rfl, ?_, ?_⟩
    · refine .of_size ?_ state.size_pos state.size_le (fun other => ?_) state.ra_lt
      · rw [DlHarqCtrl.process_setPdsch]
        exact reached
      · rw [DlHarqCtrl.stored_setPdsch]
        by_cases hit : other = pid
        · subst hit
          rw [update_self]
          exact ⟨Int.natCast_nonneg _, Int.ofNat_lt.mpr inside⟩
        · rw [update_of_ne hit, DlHarqCtrl.stored_sendHarq]
          exact state.stored_lt other
    · refine ⟨reached.hold.available.len_eq, rfl, ?_, ?_, ?_, .inl ?_⟩
      · simp [DlHarqCtrl.setPdsch, sendHarq, DlHarqCtrl.setProcess, DlHarqCtrl.setFeedbackFrame]
      · simp [DlHarqCtrl.setPdsch, sendHarq, DlHarqCtrl.setProcess, HarqProcess.sent]
      · intro other different
        simp [DlHarqCtrl.setPdsch, sendHarq, DlHarqCtrl.setProcess, DlHarqCtrl.setFeedbackFrame, different]
      · simp [DlHarqCtrl.setPdsch]
  · rw [round_eq] at again
    refine ⟨_, rfl, kept, reached.hold.available.len_eq, rfl, ?_, ?_, ?_, .inr ⟨again, ?_⟩⟩
    · simp [sendHarq, DlHarqCtrl.setProcess, DlHarqCtrl.setFeedbackFrame]
    · simp [sendHarq, DlHarqCtrl.setProcess, HarqProcess.sent]
    · intro other different
      simp [sendHarq, DlHarqCtrl.setProcess, DlHarqCtrl.setFeedbackFrame, different]
    · simp [sendHarq, DlHarqCtrl.setProcess, DlHarqCtrl.setFeedbackFrame]

variable (preprocessor : DlPreprocessor) (op : DlHarqOp) (grant : DlGrant)

theorem DlHarqState.setRetransmission (head : Nat) :
    DlHarqState harqRoundMax (ctrl.setPdsch head (retransmission ctrl grant head)) pools := by
  apply state.carry
  · rw [DlHarqCtrl.process_setPdsch]
    exact state.toHarqState
  · rw [DlHarqCtrl.stored_setPdsch]
    exact update_eq_self head ctrl.stored
  · exact state.ra_lt

theorem preProcessorDl_state (served : ¬ (preprocessor = .fr1 ∧ ctrl.msg4Acked = false))
    (legal : (DlHarqOp.schedule preprocessor (some grant)).Allowed ctrl) :
    DlHarqState harqRoundMax (preProcessorDl preprocessor grant ctrl).1 pools ∧
      ((preProcessorDl preprocessor grant ctrl).2.rbSize ≠ 0 → ∃ pid taken after,
        HarqState.Sent harqRoundMax (preProcessorDl preprocessor grant ctrl).1.size
          (preProcessorDl preprocessor grant ctrl).1.lists (preProcessorDl preprocessor grant ctrl).1.process pools
          (preProcessorDl preprocessor grant ctrl).2.dlHarqPid grant.feedbackSlot pid taken after) := by
  by_cases none : ctrl.lists.retrans.head < 0
  · by_cases busy : ctrl.lists.available.head < 0
    · simp only [preProcessorDl, if_pos none, if_pos busy]
      exact ⟨state, fun allocated => absurd rfl allocated⟩
    · obtain ⟨head, rest, _, free⟩ := state.hold.available.exists_head busy
      simp only [preProcessorDl, if_pos none, if_neg busy]
      exact ⟨state, fun _ => ⟨head, state.takeProcess_new free none grant.feedbackSlot⟩⟩
  · obtain ⟨head, head_eq, member⟩ := state.again_head none
    cases preprocessor with
    | phytest =>
      simp only [preProcessorDl, if_neg none]
      refine ⟨state, fun _ => ⟨head, ?_⟩⟩
      rw [head_eq]
      exact state.takeProcess_selected (state.complete.again_lt member) (state.not_waiting_of_again member)
        grant.feedbackSlot
    | fr1 =>
      have acked : ctrl.msg4Acked = true := by simpa using served
      have quiet := legal acked (by omega)
      rw [head_eq, Int.toNat_natCast] at quiet
      simp only [preProcessorDl, if_neg none]
      rw [head_eq, Int.toNat_natCast]
      have again := state.setRetransmission grant head
      refine ⟨again, fun allocated => ?_⟩
      obtain ⟨low, high⟩ := state.stored_lt head
      obtain ⟨named, named_eq⟩ := Int.eq_ofNat_of_zero_le low
      have stored_eq : (retransmission ctrl grant head).dlHarqPid = named := named_eq
      have inside : named < ctrl.size := by omega
      have named_idle : (ctrl.process named).isWaiting = false := by
        have waits := quiet allocated
        rw [show (ctrl.harqProcesses head).schedPdsch.dlHarqPid = named from named_eq] at waits
        exact waits
      rw [stored_eq]
      exact ⟨named, again.takeProcess_selected inside (by rw [DlHarqCtrl.process_setPdsch]; exact named_idle)
        grant.feedbackSlot⟩

theorem schedule_cases (legal : (DlHarqOp.schedule preprocessor (some grant)).Allowed ctrl) :
    ∃ next pools', dlHarqStep harqRoundMax ctrl (.schedule preprocessor (some grant)) = .ok next ∧
      DlHarqState harqRoundMax next pools' := by
  by_cases idle : preprocessor = .fr1 ∧ ctrl.msg4Acked = false
  · exact ⟨ctrl, pools, if_pos idle, state⟩
  rw [dlHarqStep, if_neg idle]
  obtain ⟨prepared, sends⟩ := preProcessorDl_state state preprocessor grant idle legal
  by_cases allocated : (preProcessorDl preprocessor grant ctrl).2.rbSize = 0
  · exact ⟨_, pools, if_pos allocated, prepared⟩
  obtain ⟨pid, taken, after, sent⟩ := sends allocated
  obtain ⟨next, scheduled, kept, _⟩ :=
    @nrScheduleUeSpec_state _ _ _ _ prepared _ grant.feedbackFrame _ _ _ allocated sent
  exact ⟨next, after, scheduled, kept⟩

theorem schedule_breaks {preprocessor : DlPreprocessor} {grant : DlGrant}
    (illegal : ¬ (DlHarqOp.schedule preprocessor (some grant)).Allowed ctrl) :
    dlHarqStep harqRoundMax ctrl (.schedule preprocessor (some grant)) = .error .idNotFound := by
  cases preprocessor with
  | phytest => exact absurd trivial illegal
  | fr1 =>
    simp only [DlHarqOp.Allowed, not_forall] at illegal
    obtain ⟨acked, filled, allocated, waits⟩ := illegal
    obtain ⟨head, head_eq, _⟩ := state.again_head (by omega)
    rw [head_eq, Int.toNat_natCast] at allocated waits
    have quiet : ¬ (DlPreprocessor.fr1 = .fr1 ∧ ctrl.msg4Acked = false) := by simp [acked]
    obtain ⟨low, _⟩ := state.stored_lt head
    obtain ⟨named, named_eq⟩ := Int.eq_ofNat_of_zero_le low
    have stored_eq : (retransmission ctrl grant head).dlHarqPid = named := named_eq
    rw [show (ctrl.harqProcesses head).schedPdsch.dlHarqPid = named from named_eq] at waits
    have refused := (state.setRetransmission grant head).takeProcess_waiting
      (by rw [DlHarqCtrl.process_setPdsch]; simpa using waits)
    rw [← stored_eq] at refused
    rw [dlHarqStep, if_neg quiet]
    simp only [preProcessorDl, head_eq, Int.toNat_natCast]
    rw [if_neg (by omega), nrScheduleUeSpec, if_neg allocated, refused]
    rfl

theorem DlHarqState.setRa (index : Nat) {ra : RaProc}
    (inside : ra.harqPid < ctrl.size) : DlHarqState harqRoundMax (ctrl.setRa index ra) pools := by
  apply state.carry
  · exact state.toHarqState
  · rfl
  · intro other
    by_cases same : other = index
    · subst same
      simpa [DlHarqCtrl.setRa] using inside
    · simpa [DlHarqCtrl.setRa, same] using state.ra_lt other

theorem nrGenerateMsg4_state (fresh : ctrl.lists.retrans.head < 0) (index frame slot : Nat) :
    nrGenerateMsg4 index frame slot ctrl = .error .noFreeProcess ∨
      ∃ next pools', nrGenerateMsg4 index frame slot ctrl = .ok next ∧ DlHarqState harqRoundMax next pools' := by
  by_cases busy : ctrl.lists.available.head < 0
  · left
    rw [nrGenerateMsg4, msg4Process, if_pos fresh, if_pos busy]
    rfl
  right
  obtain ⟨head, rest, head_eq, free⟩ := state.hold.available.exists_head busy
  obtain ⟨taken, after, sent⟩ := @HarqState.takeProcess_new _ _ _ _ _ _ _ state.toHarqState free (-1) (by decide) slot
  have chosen : msg4Process ctrl.lists = .ok (head, taken) := by
    have take := sent.take
    rw [takeProcess, if_neg busy] at take
    rw [msg4Process, if_pos fresh, if_neg busy]
    exact take
  have quiet : ¬ (ctrl.process head).isWaiting = true := by rw [sent.idle]; decide
  have reached := sent.state
  rw [← DlHarqCtrl.process_sendHarq taken frame slot] at reached
  have kept : DlHarqState harqRoundMax (sendHarq ctrl taken head frame slot) after :=
    state.carry reached (DlHarqCtrl.stored_sendHarq taken frame slot) state.ra_lt
  have inside : head < (sendHarq ctrl taken head frame slot).size :=
    kept.complete.waiting_lt (by rw [sent.waiting_eq]; exact mem_concat_self)
  refine ⟨_, after, ?_, @DlHarqState.setRa _ _ _ kept index ⟨.waitMsg4Ack, head⟩ inside⟩
  rw [nrGenerateMsg4, chosen]
  exact if_neg quiet

theorem nrGenerateMsg4_breaks (again : ¬ ctrl.lists.retrans.head < 0) (index frame slot : Nat) :
    ∃ next, nrGenerateMsg4 index frame slot ctrl = .ok next ∧
      ¬ HarqSound harqRoundMax next.size next.lists next.process := by
  obtain ⟨head, head_eq, member⟩ := state.again_head again
  have quiet : ¬ (ctrl.process head).isWaiting = true := by
    rw [state.not_waiting_of_again member]
    decide
  have not_waiting : head ∉ pools.waiting := fun waiting => state.complete.not_again_of_waiting waiting member
  have inside := state.complete.again_lt member
  refine ⟨(sendHarq ctrl ctrl.lists head frame slot).setRa index ⟨.waitMsg4Ack, head⟩, ?_, ?_⟩
  · rw [nrGenerateMsg4, msg4Process, head_eq]
    exact if_neg quiet
  · intro sound
    have once := sound.once head inside
    have listed : head ∈ (addTailNrList ctrl.lists.feedback head).ids := by
      rw [(state.hold.feedback.addTail not_waiting inside).ids_eq]
      exact mem_concat_self
    have kept : head ∈ ctrl.lists.retrans.ids := by
      rw [state.hold.retrans.ids_eq]
      exact member
    have twice : 2 ≤ HarqLists.count { ctrl.lists with feedback := addTailNrList ctrl.lists.feedback head } head := by
      have first := count_pos_iff.mpr listed
      have second := count_pos_iff.mpr kept
      unfold HarqLists.count
      simp only
      omega
    have once' : HarqLists.count { ctrl.lists with feedback := addTailNrList ctrl.lists.feedback head } head = 1 := once
    omega

theorem nrCheckMsg4Ack_state {index : Nat} (legal : (ctrl.process (ctrl.ra index).harqPid).isWaiting = false →
      (ctrl.process (ctrl.ra index).harqPid).round = 0 → ctrl.lists.retrans.head < 0) :
    ∃ next, nrCheckMsg4Ack index ctrl = .ok next ∧ DlHarqState harqRoundMax next pools := by
  unfold nrCheckMsg4Ack
  by_cases idle : (ctrl.process (ctrl.ra index).harqPid).isWaiting = false
  · simp only [if_pos idle]
    by_cases zero : (ctrl.process (ctrl.ra index).harqPid).round = 0
    · have empty := legal idle zero
      rw [if_pos zero, if_neg (by omega)]
      exact ⟨_, rfl, state.setRa index (state.ra_lt index)⟩
    · rw [if_neg zero]
      exact ⟨_, rfl, state.setRa index (state.ra_lt index)⟩
  · simp only [if_neg idle]
    exact ⟨ctrl, rfl, state⟩

theorem nrCheckMsg4Ack_breaks {index : Nat} (idle : (ctrl.process (ctrl.ra index).harqPid).isWaiting = false)
    (zero : (ctrl.process (ctrl.ra index).harqPid).round = 0) (again : ¬ ctrl.lists.retrans.head < 0) :
    nrCheckMsg4Ack index ctrl = .error .idNotFound := by
  have absent : (ctrl.ra index).harqPid ∉ pools.again := fun member => state.again_round _ member zero
  simp only [nrCheckMsg4Ack, if_pos idle, if_pos zero]
  rw [if_pos (by omega), state.hold.retrans.remove_absent absent]
  rfl

theorem dlHarqStep_state (legal : op.Allowed ctrl) :
    (∃ assertion, dlHarqStep harqRoundMax ctrl op = .error assertion ∧ assertion.ofLists = false) ∨
      ∃ next pools', dlHarqStep harqRoundMax ctrl op = .ok next ∧ DlHarqState harqRoundMax next pools' := by
  cases op with
  | schedule preprocessor grant =>
    cases grant with
    | none => exact .inr ⟨ctrl, pools, rfl, state⟩
    | some grant => exact .inr (schedule_cases state preprocessor grant legal)
  | scheduleRa index feedback =>
    simp only [DlHarqOp.Allowed] at legal
    simp only [dlHarqStep]
    cases phase : (ctrl.ra index).raState with
    | idle => exact .inr ⟨ctrl, pools, rfl, state⟩
    | msg4 =>
      rw [phase] at legal
      cases feedback with
      | none => exact .inr ⟨ctrl, pools, rfl, state⟩
      | some feedback =>
        rcases nrGenerateMsg4_state state (legal rfl) index feedback.1 feedback.2 with refused | sent
        · exact .inl ⟨_, refused, rfl⟩
        · exact .inr sent
    | waitMsg4Ack =>
      rw [phase] at legal
      obtain ⟨next, checked, kept⟩ := nrCheckMsg4Ack_state state legal
      exact .inr ⟨next, pools, by cases feedback <;> exact checked, kept⟩
  | uci01 frame slot harq =>
    right
    cases harq with
    | none => exact ⟨ctrl, pools, rfl, state⟩
    | some harq =>
      obtain ⟨after, pools', looped, kept, _⟩ := @harqBits_state _ _ _ frame slot true harq.bits state
      refine ⟨after, pools', ?_, kept⟩
      simp [dlHarqStep, handleNrUciPucch01, looped, bind, Except.bind, pure, Except.pure]
  | uci234 frame slot csiMeasConfig harq =>
    right
    cases csiMeasConfig with
    | false => exact ⟨ctrl, pools, rfl, state⟩
    | true =>
      cases harq with
      | none => exact ⟨ctrl, pools, rfl, state⟩
      | some harq =>
        obtain ⟨after, pools', looped, kept, _⟩ := @harqBits_state _ _ _ frame slot false harq.bits state
        refine ⟨after, pools', ?_, kept⟩
        simp [dlHarqStep, handleNrUciPucch234, looped, bind, Except.bind, pure, Except.pure]
  | msg3 index crnti =>
    right
    have started := @DlHarqState.setRa _ _ _ state index { ctrl.ra index with raState := .msg4 }
      (state.ra_lt index)
    cases crnti with
    | false => exact ⟨_, pools, rfl, started⟩
    | true =>
      have renewed : DlHarqState harqRoundMax
          { ctrl.setRa index { ctrl.ra index with raState := .msg4 } with msg4Acked := false } pools :=
        started.carry started.toHarqState rfl started.ra_lt
      obtain ⟨after, emptied, kept⟩ := resetDlHarqList_state renewed
      exact ⟨after, _, emptied, kept⟩
  | cfraMsg3 =>
    obtain ⟨after, emptied, kept⟩ := resetDlHarqList_state state
    exact .inr ⟨after, _, emptied, kept⟩
  | clearRaProc index => exact .inr ⟨_, pools, rfl, state.setRa index (state.ra_lt index)⟩
  | createList configured =>
    rcases createDlHarqList_state state configured with refused | ⟨lists, pools', created, kept⟩
    · refine .inl ⟨.smallerHarqList, ?_, rfl⟩
      simp [dlHarqStep, refused]
    · refine .inr ⟨_, pools', ?_, kept⟩
      simp [dlHarqStep, created, bind, Except.bind, pure, Except.pure]

theorem dlHarqStep_breaks (illegal : ¬ op.Allowed ctrl) :
    dlHarqStep harqRoundMax ctrl op = .error .idNotFound ∨ ∃ next, dlHarqStep harqRoundMax ctrl op = .ok next ∧
        ¬ HarqSound harqRoundMax next.size next.lists next.process := by
  cases op with
  | schedule preprocessor grant =>
    cases grant with
    | none => cases preprocessor <;> exact absurd trivial illegal
    | some grant => exact .inl (schedule_breaks state illegal)
  | scheduleRa index feedback =>
    simp only [DlHarqOp.Allowed] at illegal
    simp only [dlHarqStep]
    cases phase : (ctrl.ra index).raState with
    | idle =>
      rw [phase] at illegal
      exact absurd trivial illegal
    | msg4 =>
      rw [phase] at illegal
      simp only [not_forall] at illegal
      obtain ⟨present, again⟩ := illegal
      obtain ⟨feedback, rfl⟩ := Option.isSome_iff_exists.mp present
      exact .inr (nrGenerateMsg4_breaks state again index feedback.1 feedback.2)
    | waitMsg4Ack =>
      rw [phase] at illegal
      simp only [not_forall] at illegal
      obtain ⟨idle, zero, again⟩ := illegal
      left
      cases feedback <;> exact nrCheckMsg4Ack_breaks state idle zero again
  | uci01 | uci234 | msg3 | cfraMsg3 | clearRaProc | createList => exact absurd trivial illegal

end

end Steps

def dlHarqRun (harqRoundMax : Nat) (ctrl : DlHarqCtrl) (op : DlHarqOp) : Option DlHarqCtrl :=
  (dlHarqStep harqRoundMax ctrl op).toOption

/-- Each DL HARQ process is in exactly one list, `is_waiting` and `round` fit and no assertion on the
lists fires, exactly in the runs of allowed operations. -/
theorem dl_harq_partition_iff (harqRoundMax : Nat) (positive : 0 < harqRoundMax)
    (configured : Option NrofHarqProcesses) (msg4Acked : Bool) (ops : List DlHarqOp) :
    Along (dlHarqRun harqRoundMax) (fun ctrl => HarqSound harqRoundMax ctrl.size ctrl.lists ctrl.process)
          (.new configured msg4Acked) ops ∧
        Attempts (dlHarqRun harqRoundMax)
          (fun ctrl op => ∀ assertion, dlHarqStep harqRoundMax ctrl op = .error assertion → assertion.ofLists = false)
          (.new configured msg4Acked) ops ↔
      Attempts (dlHarqRun harqRoundMax) (fun ctrl op => op.Allowed ctrl) (.new configured msg4Acked) ops := by
  have start : ∃ pools, DlHarqState harqRoundMax (.new configured msg4Acked) pools :=
    ⟨_, dlHarqState_new positive configured msg4Acked⟩
  refine @safe_iff_attempts _ _ (dlHarqRun harqRoundMax) _
    (fun ctrl => ∃ pools, DlHarqState harqRoundMax ctrl pools) _ _
    ?_ ?_ ?_ (.new configured msg4Acked) ops start
  · rintro ctrl ⟨pools, state⟩
    exact state.toHarqState.sound
  · rintro ctrl op ⟨pools, state⟩ legal
    rcases dlHarqStep_state state op legal with ⟨assertion, fired, other⟩ | ⟨after, pools', stepped, kept⟩
    · refine ⟨?_, ?_⟩
      · intro assertion' fired'
        rw [fired] at fired'
        cases fired'
        exact other
      · intro next taken
        rw [dlHarqRun, fired] at taken
        cases taken
    · refine ⟨?_, ?_⟩
      · intro assertion fired
        rw [stepped] at fired
        cases fired
      · intro next taken
        rw [dlHarqRun, stepped] at taken
        cases taken
        exact ⟨pools', kept⟩
  · rintro ctrl op ⟨pools, state⟩ illegal
    rcases dlHarqStep_breaks state op illegal with fired | ⟨next, stepped, bad⟩
    · left
      intro sound
      cases sound _ fired
    · exact .inr ⟨next, by rw [dlHarqRun, stepped]; rfl, bad⟩

def attachOps : List DlHarqOp :=
  [.msg3 0 false, .scheduleRa 0 (some (0, 8)), .uci01 0 8 (some ⟨[0], 0⟩), .scheduleRa 0 none,
    .schedule .fr1 (some ⟨10, false, 1, 8⟩), .uci01 1 8 (some ⟨[1], 0⟩), .schedule .fr1 (some ⟨10, false, 2, 8⟩)]

theorem dl_harq_partition_attach :
    0 < 4 ∧ (Along (dlHarqRun 4) (fun ctrl => HarqSound 4 ctrl.size ctrl.lists ctrl.process) (.new none false) attachOps ∧
        Attempts (dlHarqRun 4)
          (fun ctrl op => ∀ assertion, dlHarqStep 4 ctrl op = .error assertion → assertion.ofLists = false)
          (.new none false) attachOps ↔
      Attempts (dlHarqRun 4) (fun ctrl op => op.Allowed ctrl) (.new none false) attachOps) :=
  ⟨by decide, dl_harq_partition_iff 4 (by decide) none false attachOps⟩

/-- Msg4 is sent, not acknowledged and sent again: its process waits for feedback and for its
retransmission at once. -/
theorem dl_harq_msg4_in_two_lists :
    (run (dlHarqRun 4) (.new none false)
        [.msg3 0 false, .scheduleRa 0 (some (0, 8)), .uci01 0 8 (some ⟨[1], 0⟩), .scheduleRa 0 none,
          .scheduleRa 0 (some (1, 8))]).map
      (fun ctrl => (ctrl.lists.feedback.ids, ctrl.lists.retrans.ids, ctrl.lists.count 0)) = some ([0], [0], 2) := by
  decide

end OranSlice.Mac
