import OranSlice.Core.Runs
import OranSlice.Mac.HarqLists

/-! The UL HARQ processes of a UE over any run: each process is in exactly one list and no assertion
fires. -/

namespace OranSlice.Mac

open Runs Function List

structure SchedPusch where
  (frame slot rbSize tbSize : Nat := 0)
  ulHarqPid : Int := 0
deriving DecidableEq, Repr

structure UlHarqProcess extends HarqProcess where
  schedPusch : SchedPusch := {}
deriving DecidableEq, Repr

structure UlHarqCtrl where
  lists : HarqLists
  ulHarqProcesses : Nat → UlHarqProcess
  schedUlBytes : Int

namespace UlHarqCtrl

def new : UlHarqCtrl where
  lists :=
    { available := (range nrMaxHarqProcesses).foldl addTailNrList (createNrList nrMaxHarqProcesses)
      feedback := createNrList nrMaxHarqProcesses
      retrans := createNrList nrMaxHarqProcesses }
  ulHarqProcesses := fun _ => {}
  schedUlBytes := 0

def process (ctrl : UlHarqCtrl) (pid : Nat) : HarqProcess := (ctrl.ulHarqProcesses pid).toHarqProcess

def setProcess (ctrl : UlHarqCtrl) (pid : Nat) (process : HarqProcess) : UlHarqCtrl :=
  { ctrl with
    ulHarqProcesses := update ctrl.ulHarqProcesses pid
      { ctrl.ulHarqProcesses pid with toHarqProcess := process } }

def setPusch (ctrl : UlHarqCtrl) (pid : Nat) (schedPusch : SchedPusch) : UlHarqCtrl :=
  { ctrl with
    ulHarqProcesses := update ctrl.ulHarqProcesses pid
      { ctrl.ulHarqProcesses pid with schedPusch := schedPusch } }

end UlHarqCtrl

def abortNrUlHarq (ctrl : UlHarqCtrl) (pid : Nat) : UlHarqCtrl :=
  let bytes := ctrl.schedUlBytes - (ctrl.ulHarqProcesses pid).schedPusch.tbSize
  { ctrl.setProcess pid (ctrl.process pid).finished with
    lists := { ctrl.lists with available := addTailNrList ctrl.lists.available pid }
    schedUlBytes := if bytes < 0 then 0 else bytes }

def failUlHarq (harqRoundMax : Nat) (ctrl : UlHarqCtrl) (pid : Nat) : UlHarqCtrl :=
  if ((ctrl.process pid).round : Int) ≥ (harqRoundMax : Int) - 1 then abortNrUlHarq ctrl pid
  else
    { ctrl.setProcess pid (ctrl.process pid).retried with
      lists := { ctrl.lists with retrans := addTailNrList ctrl.lists.retrans pid } }

/-- The loop of `handle_nr_ul_harq`: processes before the reported one have not been received. -/
def skipUlHarq (harqRoundMax harqId : Nat) : Nat → UlHarqCtrl → Except Assertion (Option Nat × UlHarqCtrl)
  | 0, _ => .error .endlessWalk
  | fuel + 1, ctrl =>
    let pid := ctrl.lists.feedback.head
    if (harqId : Int) ≠ pid ∨ pid < 0 then
      if pid < 0 then .ok (none, ctrl)
      else do
        let feedback ← removeFrontNrList ctrl.lists.feedback
        let removed := { ctrl with lists := { ctrl.lists with feedback } }
        let skipped := removed.setProcess pid.toNat { removed.process pid.toNat with isWaiting := false }
        skipUlHarq harqRoundMax harqId fuel (failUlHarq harqRoundMax skipped pid.toNat)
    else .ok (some pid.toNat, ctrl)

/-- The rest of `handle_nr_ul_harq`, for the reported process; `tbCrcStatus` is set when the CRC is wrong. -/
def settleUlHarq (harqRoundMax pid : Nat) (tbCrcStatus : Bool) (ctrl : UlHarqCtrl) :
    Except Assertion UlHarqCtrl := do
  let feedback ← removeFrontNrList ctrl.lists.feedback
  let removed := { ctrl with lists := { ctrl.lists with feedback } }
  if (removed.process pid).isWaiting = false then .error .isWaiting
  else
    let settled := removed.setProcess pid
      { removed.process pid with feedbackSlot := HarqProcess.noFeedbackSlot, isWaiting := false }
    if tbCrcStatus = false then
      .ok { settled.setProcess pid (settled.process pid).finished with
        lists := { settled.lists with available := addTailNrList settled.lists.available pid } }
    else .ok (failUlHarq harqRoundMax settled pid)

/-- `ueWaitingCfraMsg3` says that the report belongs to a random access of the UE. -/
def handleNrUlHarq (harqRoundMax : Nat) (ueWaitingCfraMsg3 : Bool) (harqId : Nat) (tbCrcStatus : Bool)
    (ctrl : UlHarqCtrl) : Except Assertion UlHarqCtrl :=
  if ueWaitingCfraMsg3 then .ok ctrl
  else do
    let (found, ctrl) ← skipUlHarq harqRoundMax harqId (ctrl.lists.feedback.len + 1) ctrl
    match found with
    | none => return ctrl
    | some pid => settleUlHarq harqRoundMax pid tbCrcStatus ctrl

def resetUlHarqList (ctrl : UlHarqCtrl) : Except Assertion UlHarqCtrl := do
  let lists ← resetHarqLists ctrl.lists
  return { ctrl with
    lists := lists
    ulHarqProcesses := fun pid =>
      if pid < nrMaxHarqProcesses then
        { ctrl.ulHarqProcesses pid with toHarqProcess := (ctrl.process pid).reset }
      else ctrl.ulHarqProcesses pid }

structure UlGrant where
  (frame slot rbSize tbSize : Nat)
deriving DecidableEq, Repr

inductive UlPreprocessor where
  | fr1
  | phytest
deriving DecidableEq, Repr

/-- What the preprocessors leave in `sched_pusch` of a UE: `pf_ul` repeats the first process that awaits
a retransmission, and both look for a free process only when there is none. -/
def preProcessorUl (preprocessor : UlPreprocessor) (grant : Option UlGrant) (ctrl : UlHarqCtrl) :
    UlHarqCtrl × SchedPusch :=
  let pid := ctrl.lists.retrans.head
  match grant with
  | none => (ctrl, { ulHarqPid := pid })
  | some grant =>
    if pid < 0 then
      if ctrl.lists.available.head < 0 then (ctrl, { ulHarqPid := pid })
      else (ctrl, ⟨grant.frame, grant.slot, grant.rbSize, grant.tbSize, pid⟩)
    else
      match preprocessor with
      | .phytest => (ctrl, ⟨grant.frame, grant.slot, grant.rbSize, grant.tbSize, pid⟩)
      | .fr1 =>
        let retInfo :=
          { (ctrl.ulHarqProcesses pid.toNat).schedPusch with
            frame := grant.frame, slot := grant.slot, rbSize := grant.rbSize }
        (ctrl.setPusch pid.toNat retInfo, retInfo)

def storeUlsch (pid : Nat) (schedPusch : SchedPusch) (ctrl : UlHarqCtrl) : UlHarqCtrl :=
  if (ctrl.process pid).round = 0 then
    { ctrl.setPusch pid schedPusch with schedUlBytes := ctrl.schedUlBytes + schedPusch.tbSize }
  else ctrl

def nrScheduleUlsch (harqRoundMax : Nat) (ctrl : UlHarqCtrl) (schedPusch : SchedPusch) :
    Except Assertion UlHarqCtrl :=
  if schedPusch.rbSize = 0 then .ok ctrl
  else do
    let (pid, lists) ← takeProcess ctrl.lists ctrl.process schedPusch.ulHarqPid
    if (ctrl.process pid).isWaiting = true then .error .isWaiting
    else
      let sent : UlHarqCtrl :=
        { ctrl.setProcess pid ((ctrl.process pid).sent schedPusch.slot) with
          lists := { lists with feedback := addTailNrList lists.feedback pid } }
      if (sent.process pid).round < harqRoundMax then
        .ok (storeUlsch pid { schedPusch with ulHarqPid := pid } sent)
      else .error .roundOutOfBounds

inductive UlHarqOp where
  | schedule (preprocessor : UlPreprocessor) (grant : Option UlGrant)
  | crc (ueWaitingCfraMsg3 : Bool) (harqId : Nat) (tbCrcStatus : Bool)
  | reset
deriving DecidableEq, Repr

def ulHarqStep (harqRoundMax : Nat) (ctrl : UlHarqCtrl) : UlHarqOp → Except Assertion UlHarqCtrl
  | .schedule preprocessor grant =>
    let (ctrl, schedPusch) := preProcessorUl preprocessor grant ctrl
    nrScheduleUlsch harqRoundMax ctrl schedPusch
  | .crc ueWaitingCfraMsg3 harqId tbCrcStatus =>
    handleNrUlHarq harqRoundMax ueWaitingCfraMsg3 harqId tbCrcStatus ctrl
  | .reset => resetUlHarqList ctrl

structure UlHarqState (harqRoundMax : Nat) (ctrl : UlHarqCtrl) (pools : Pools) : Prop
    extends HarqState harqRoundMax nrMaxHarqProcesses ctrl.lists ctrl.process pools where
  stored : ∀ pid, pid ∈ pools.waiting ∨ pid ∈ pools.again →
    (ctrl.ulHarqProcesses pid).schedPusch.ulHarqPid = pid

namespace UlHarqCtrl

variable {ctrl : UlHarqCtrl} {pid : Nat} {value : HarqProcess}

@[simp] theorem process_setProcess : (ctrl.setProcess pid value).process = update ctrl.process pid value :=
  comp_update UlHarqProcess.toHarqProcess _ _ _

@[simp] theorem schedPusch_setProcess (other : Nat) :
    ((ctrl.setProcess pid value).ulHarqProcesses other).schedPusch =
      (ctrl.ulHarqProcesses other).schedPusch := by
  by_cases same : other = pid
  · subst same
    simp [setProcess]
  · simp [setProcess, same]

theorem setProcess_setProcess (other : HarqProcess) :
    (ctrl.setProcess pid value).setProcess pid other = ctrl.setProcess pid other := by
  simp [setProcess]

@[simp] theorem process_setPusch (schedPusch : SchedPusch) :
    (ctrl.setPusch pid schedPusch).process = ctrl.process :=
  (comp_update UlHarqProcess.toHarqProcess _ _ _).trans (update_eq_self pid _)

theorem schedPusch_setPusch (schedPusch : SchedPusch) (other : Nat) :
    ((ctrl.setPusch pid schedPusch).ulHarqProcesses other).schedPusch =
      if other = pid then schedPusch else (ctrl.ulHarqProcesses other).schedPusch := by
  by_cases same : other = pid
  · subst same
    simp [setPusch]
  · simp [setPusch, same]

theorem harqState_new {harqRoundMax : Nat} (positive : 0 < harqRoundMax) :
    UlHarqState harqRoundMax new ⟨range nrMaxHarqProcesses, [], []⟩ where
  hold :=
    { available := (NrList.holds_create nrMaxHarqProcesses).addAll (range nrMaxHarqProcesses)
        nodup_range (fun _ => mem_range.mp)
      feedback := NrList.holds_create nrMaxHarqProcesses
      retrans := NrList.holds_create nrMaxHarqProcesses }
  complete := Pools.complete_range nrMaxHarqProcesses
  waiting := by simp [process, new]
  free_round := fun _ _ => rfl
  again_round := by simp
  unused_round := fun _ _ => rfl
  round_lt := fun _ => positive
  stored := by simp

end UlHarqCtrl

namespace UlHarqState

variable {harqRoundMax pid : Nat} {ctrl : UlHarqCtrl} {pools : Pools} {rest : List Nat} {feedback : NrList}

variable (state : UlHarqState harqRoundMax ctrl pools)
include state

theorem setPusch (pid : Nat) {schedPusch : SchedPusch} (own : schedPusch.ulHarqPid = pid) :
    UlHarqState harqRoundMax (ctrl.setPusch pid schedPusch) pools where
  toHarqState := by
    rw [UlHarqCtrl.process_setPusch]
    exact state.toHarqState
  stored := by
    intro other used
    rw [UlHarqCtrl.schedPusch_setPusch]
    split
    case isTrue hit => rw [hit]; exact own
    case isFalse differs => exact state.stored other used

variable {settled : HarqProcess} (first : pools.waiting = pid :: rest)
  (holds : feedback.Holds nrMaxHarqProcesses rest) (idle : settled.isWaiting = false)
include first holds idle

theorem finish (bytes : Int) :
    UlHarqState harqRoundMax { ctrl.setProcess pid settled.finished with
        lists := { ctrl.lists with feedback, available := addTailNrList ctrl.lists.available pid }
        schedUlBytes := bytes } (pools.finish pid) where
  toHarqState := by
    have finished := state.toHarqState.finish first holds idle
    rw [← UlHarqCtrl.process_setProcess] at finished
    exact finished
  stored := by
    intro other used
    rw [show (_ : UlHarqProcess).schedPusch = _ from UlHarqCtrl.schedPusch_setProcess other]
    apply state.stored
    rw [Pools.finish, first] at used
    rw [first]
    exact used.imp_left (mem_cons_of_mem pid)

theorem retry (room : settled.round + 1 < harqRoundMax) :
    UlHarqState harqRoundMax { ctrl.setProcess pid settled.retried with
        lists := { ctrl.lists with feedback, retrans := addTailNrList ctrl.lists.retrans pid } }
      (pools.fail pid) where
  toHarqState := by
    have retried := state.toHarqState.retry first holds idle room
    rw [← UlHarqCtrl.process_setProcess] at retried
    exact retried
  stored := by
    intro other used
    rw [show (_ : UlHarqProcess).schedPusch = _ from UlHarqCtrl.schedPusch_setProcess other]
    apply state.stored
    rw [Pools.fail, first] at used
    rw [first]
    rcases used with later | again
    · exact .inl (mem_cons_of_mem pid later)
    rcases mem_append.mp again with before | only
    · exact .inr before
    · rw [mem_singleton.mp only]
      exact .inl mem_cons_self

variable (settled) in
theorem fail : ∃ pools', pools'.waiting = rest ∧ UlHarqState harqRoundMax (failUlHarq harqRoundMax
        (UlHarqCtrl.setProcess { ctrl with lists := { ctrl.lists with feedback } } pid settled) pid) pools' := by
  have value : (UlHarqCtrl.setProcess { ctrl with lists := { ctrl.lists with feedback } } pid settled).process pid =
      settled := by
    rw [UlHarqCtrl.process_setProcess, update_self]
  unfold failUlHarq
  rw [value]
  split
  · refine ⟨pools.finish pid, by rw [Pools.finish, first]; rfl, ?_⟩
    rw [abortNrUlHarq, value, UlHarqCtrl.setProcess_setProcess]
    exact state.finish first holds idle _
  · refine ⟨pools.fail pid, by rw [Pools.fail, first]; rfl, ?_⟩
    rw [UlHarqCtrl.setProcess_setProcess]
    exact state.retry first holds idle (by omega)

end UlHarqState

section Steps

variable {harqRoundMax : Nat} {ctrl : UlHarqCtrl} {pools : Pools}

theorem skipUlHarq_state (harqId : Nat) {fuel : Nat} (state : UlHarqState harqRoundMax ctrl pools)
    (enough : pools.waiting.length < fuel) :
    ∃ found after pools', skipUlHarq harqRoundMax harqId fuel ctrl = .ok (found, after) ∧
      UlHarqState harqRoundMax after pools' ∧ ∀ pid, found = some pid → ∃ rest, pools'.waiting = pid :: rest := by
  induction fuel generalizing ctrl pools with
  | zero => exact absurd enough (Nat.not_lt_zero _)
  | succ fuel ih =>
    cases waiting : pools.waiting with
    | nil =>
      have empty : ctrl.lists.feedback.head < 0 := state.hold.feedback.head_neg_iff.mpr waiting
      refine ⟨none, ctrl, pools, ?_, state, by simp⟩
      rw [skipUlHarq]
      simp [empty]
    | cons pid rest =>
      have holds := state.hold.feedback
      rw [waiting] at holds
      have head_pid := holds.head_eq
      by_cases expected : harqId = pid
      · refine ⟨some pid, ctrl, pools, ?_, state, ?_⟩
        · rw [skipUlHarq, head_pid, if_neg (by omega), Int.toNat_natCast]
        · rintro _ ⟨⟩
          exact ⟨rest, waiting⟩
      · obtain ⟨feedback, removed, left⟩ := holds.removeFront
        obtain ⟨pools', shorter, failed⟩ :=
          state.fail { ctrl.process pid with isWaiting := false } waiting left rfl
        have less : pools'.waiting.length < fuel := by
          rw [waiting, length_cons] at enough
          rw [shorter]
          omega
        obtain ⟨found, after, last, skipped, result⟩ := ih failed less
        refine ⟨found, after, last, ?_, result⟩
        rw [skipUlHarq, head_pid, if_pos (by omega), removed]
        exact skipped

section

variable (state : UlHarqState harqRoundMax ctrl pools)

include state

theorem settleUlHarq_state {pid : Nat} {rest : List Nat} (first : pools.waiting = pid :: rest) (tbCrcStatus : Bool) :
    ∃ after pools', settleUlHarq harqRoundMax pid tbCrcStatus ctrl = .ok after ∧
      UlHarqState harqRoundMax after pools' := by
  have holds := state.hold.feedback
  rw [first] at holds
  obtain ⟨feedback, removed, left⟩ := holds.removeFront
  have waits : (ctrl.process pid).isWaiting = true :=
    (state.waiting pid).mpr (first ▸ mem_cons_self)
  have waits' : ¬ (UlHarqCtrl.process { ctrl with lists := { ctrl.lists with feedback } } pid).isWaiting =
      false := by
    change ¬ (ctrl.process pid).isWaiting = false
    rw [waits]
    decide
  unfold settleUlHarq
  rw [removed]
  simp only [bind, Except.bind, if_neg waits']
  cases tbCrcStatus with
  | false =>
    refine ⟨_, pools.finish pid, rfl, ?_⟩
    rw [UlHarqCtrl.process_setProcess, update_self, UlHarqCtrl.setProcess_setProcess]
    exact state.finish first left rfl _
  | true =>
    obtain ⟨pools', _, failed⟩ := state.fail
      { ctrl.process pid with feedbackSlot := HarqProcess.noFeedbackSlot, isWaiting := false } first left rfl
    exact ⟨_, pools', rfl, failed⟩

theorem handleNrUlHarq_state (ueWaitingCfraMsg3 : Bool) (harqId : Nat) (tbCrcStatus : Bool) :
    ∃ after pools', handleNrUlHarq harqRoundMax ueWaitingCfraMsg3 harqId tbCrcStatus ctrl = .ok after ∧
      UlHarqState harqRoundMax after pools' := by
  cases ueWaitingCfraMsg3 with
  | true => exact ⟨ctrl, pools, rfl, state⟩
  | false =>
    obtain ⟨found, skipped, middle, walked, kept, present⟩ :=
      skipUlHarq_state harqId state state.hold.feedback.length_lt
    simp only [handleNrUlHarq, walked]
    cases found with
    | none => exact ⟨skipped, middle, rfl, kept⟩
    | some pid =>
      obtain ⟨rest, first⟩ := present pid rfl
      exact settleUlHarq_state kept first tbCrcStatus

theorem resetUlHarqList_state :
    ∃ after pools', resetUlHarqList ctrl = .ok after ∧ UlHarqState harqRoundMax after pools' := by
  obtain ⟨lists, emptied, reclaimed⟩ := state.toHarqState.reset (le_refl _)
  refine ⟨_, pools.reclaim, by rw [resetUlHarqList, emptied]; rfl, ?_, ?_⟩
  · convert reclaimed using 1
    funext pid
    simp only [UlHarqCtrl.process]
    split <;> rfl
  · simp [Pools.reclaim]

variable {schedPusch : SchedPusch} {taken : HarqLists} {after : Pools}

theorem nrScheduleUlsch_state {pid : Nat} (allocated : schedPusch.rbSize ≠ 0)
    (sent : HarqState.Sent harqRoundMax nrMaxHarqProcesses ctrl.lists ctrl.process pools schedPusch.ulHarqPid
      schedPusch.slot pid taken after) :
    ∃ next, nrScheduleUlsch harqRoundMax ctrl schedPusch = .ok next ∧ UlHarqState harqRoundMax next after := by
  have quiet : ¬ (ctrl.process pid).isWaiting = true := by rw [sent.idle]; decide
  set middle : UlHarqCtrl :=
    { ctrl.setProcess pid ((ctrl.process pid).sent schedPusch.slot) with
      lists := { taken with feedback := addTailNrList taken.feedback pid } } with middle_eq
  have kept : HarqState harqRoundMax nrMaxHarqProcesses middle.lists middle.process after := by
    have reached := sent.state
    rw [← UlHarqCtrl.process_setProcess] at reached
    exact reached
  have scheduled : nrScheduleUlsch harqRoundMax ctrl schedPusch =
      .ok (storeUlsch pid { schedPusch with ulHarqPid := pid } middle) := by
    rw [nrScheduleUlsch, if_neg allocated, sent.take]
    simp only [bind, Except.bind, if_neg quiet]
    rw [if_pos (kept.round_lt pid)]
  have earlier : ∀ other, other ≠ pid → other ∈ after.waiting ∨ other ∈ after.again →
      (ctrl.ulHarqProcesses other).schedPusch.ulHarqPid = other := by
    intro other differs used
    apply state.stored
    rw [sent.waiting_eq] at used
    rcases used with waiting | again
    · left
      simpa [differs] using waiting
    · exact .inr (sent.again_sub again)
  refine ⟨_, scheduled, ?_⟩
  have round_eq : (middle.process pid).round = (ctrl.process pid).round := by
    change ((ctrl.setProcess pid _).process pid).round = _
    rw [UlHarqCtrl.process_setProcess, update_self]
    rfl
  unfold storeUlsch
  split
  case isTrue first =>
    refine ⟨?_, ?_⟩
    · rw [← @UlHarqCtrl.process_setPusch middle pid { schedPusch with ulHarqPid := pid }] at kept
      exact kept
    · intro other used
      rw [show (_ : UlHarqProcess).schedPusch = _ from UlHarqCtrl.schedPusch_setPusch _ other]
      split
      case isTrue hit => rw [hit]
      case isFalse differs =>
        rw [show (_ : UlHarqProcess).schedPusch = _ from UlHarqCtrl.schedPusch_setProcess other]
        exact earlier other differs used
  case isFalse again =>
    refine ⟨kept, ?_⟩
    intro other used
    rw [show (_ : UlHarqProcess).schedPusch = _ from UlHarqCtrl.schedPusch_setProcess other]
    by_cases hit : other = pid
    · subst hit
      rw [round_eq] at again
      have inside : other < nrMaxHarqProcesses :=
        kept.complete.waiting_lt (by rw [sent.waiting_eq]; exact mem_concat_self)
      rcases state.mem_of_not_waiting inside sent.idle with ⟨zero, _⟩ | ⟨_, member⟩
      · exact absurd zero again
      · exact state.stored other (.inr member)
    · exact earlier other hit used

theorem nrScheduleUlsch_ready (ready : schedPusch.rbSize ≠ 0 → ∃ pid taken after,
      HarqState.Sent harqRoundMax nrMaxHarqProcesses ctrl.lists ctrl.process pools schedPusch.ulHarqPid
        schedPusch.slot pid taken after) :
    ∃ after pools', nrScheduleUlsch harqRoundMax ctrl schedPusch = .ok after ∧
      UlHarqState harqRoundMax after pools' := by
  by_cases allocated : schedPusch.rbSize = 0
  · exact ⟨ctrl, pools, by rw [nrScheduleUlsch, if_pos allocated], state⟩
  · obtain ⟨pid, taken, after, sent⟩ := ready allocated
    obtain ⟨next, scheduled, kept⟩ := nrScheduleUlsch_state state allocated sent
    exact ⟨next, after, scheduled, kept⟩

theorem nrScheduleUlsch_again {pid : Nat} (selected : schedPusch.ulHarqPid = pid) (member : pid ∈ pools.again) :
    ∃ after pools', nrScheduleUlsch harqRoundMax ctrl schedPusch = .ok after ∧
      UlHarqState harqRoundMax after pools' := by
  refine nrScheduleUlsch_ready state (fun _ => ⟨pid, ?_⟩)
  rw [selected]
  exact state.takeProcess_selected (state.complete.again_lt member) (state.not_waiting_of_again member)
    schedPusch.slot

theorem schedule_state (preprocessor : UlPreprocessor) (grant : Option UlGrant) :
    ∃ after pools', ulHarqStep harqRoundMax ctrl (.schedule preprocessor grant) = .ok after ∧
      UlHarqState harqRoundMax after pools' := by
  simp only [ulHarqStep, preProcessorUl]
  cases grant with
  | none => exact nrScheduleUlsch_ready state (absurd rfl)
  | some grant =>
    by_cases none : ctrl.lists.retrans.head < 0
    · simp only [if_pos none]
      by_cases busy : ctrl.lists.available.head < 0
      · rw [if_pos busy]
        exact nrScheduleUlsch_ready state (absurd rfl)
      · rw [if_neg busy]
        obtain ⟨pid, rest, -, first⟩ := state.hold.available.exists_head busy
        exact nrScheduleUlsch_ready state (fun _ => ⟨pid, state.takeProcess_new first none grant.slot⟩)
    · obtain ⟨pid, head_pid, member⟩ := state.again_head none
      simp only [if_neg none]
      cases preprocessor with
      | phytest => exact nrScheduleUlsch_again state head_pid member
      | fr1 =>
        have own := state.stored pid (.inr member)
        simp only [head_pid]
        refine nrScheduleUlsch_again (state.setPusch pid ?_) own member
        exact own

theorem ulHarqStep_state (op : UlHarqOp) :
    ∃ after pools', ulHarqStep harqRoundMax ctrl op = .ok after ∧ UlHarqState harqRoundMax after pools' := by
  cases op with
  | schedule preprocessor grant => exact schedule_state state preprocessor grant
  | crc ueWaitingCfraMsg3 harqId tbCrcStatus =>
    exact handleNrUlHarq_state state ueWaitingCfraMsg3 harqId tbCrcStatus
  | reset => exact resetUlHarqList_state state

end

end Steps

/-- Each UL HARQ process is in exactly one of the three lists, `is_waiting` and `round` fit, and no
assertion fires. -/
theorem ul_harq_partition (harqRoundMax : Nat) (positive : 0 < harqRoundMax) (ops : List UlHarqOp) :
    Along (fun ctrl op => (ulHarqStep harqRoundMax ctrl op).toOption)
        (fun ctrl => HarqSound harqRoundMax nrMaxHarqProcesses ctrl.lists ctrl.process) UlHarqCtrl.new ops ∧
      Attempts (fun ctrl op => (ulHarqStep harqRoundMax ctrl op).toOption)
        (fun ctrl op => ∀ assertion, ulHarqStep harqRoundMax ctrl op ≠ .error assertion) UlHarqCtrl.new ops := by
  have start : ∃ pools, UlHarqState harqRoundMax UlHarqCtrl.new pools := ⟨_, UlHarqCtrl.harqState_new positive⟩
  refine @safe_of_attempts _ _ _ _ (fun ctrl => ∃ pools, UlHarqState harqRoundMax ctrl pools) (fun _ _ => True) _
    ?_ ?_ UlHarqCtrl.new ops start (fun _ _ _ _ _ => trivial)
  · rintro ctrl ⟨pools, state⟩
    exact state.toHarqState.sound
  · rintro ctrl op ⟨pools, state⟩ _
    obtain ⟨after, pools', stepped, kept⟩ := ulHarqStep_state state op
    rw [stepped]
    refine ⟨by simp, ?_⟩
    intro next taken
    rw [show next = after from (Option.some.inj taken).symm]
    exact ⟨pools', kept⟩

/-- A transmission, its report with a wrong CRC, the retransmission, and reports for processes that do not
wait. -/
theorem ul_harq_partition_retransmission :
    let ops : List UlHarqOp :=
      [.schedule .fr1 (some ⟨1, 8, 5, 100⟩), .schedule .fr1 (some ⟨1, 9, 5, 100⟩), .crc false 1 true,
        .schedule .fr1 (some ⟨2, 8, 5, 100⟩), .crc false 7 false, .reset]
    0 < 4 ∧ Along (fun ctrl op => (ulHarqStep 4 ctrl op).toOption)
        (fun ctrl => HarqSound 4 nrMaxHarqProcesses ctrl.lists ctrl.process) UlHarqCtrl.new ops ∧
      Attempts (fun ctrl op => (ulHarqStep 4 ctrl op).toOption)
        (fun ctrl op => ∀ assertion, ulHarqStep 4 ctrl op ≠ .error assertion) UlHarqCtrl.new ops :=
  ⟨by decide, ul_harq_partition 4 (by decide) _⟩

end OranSlice.Mac
