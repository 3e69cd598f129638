import OranSlice.Core.Runs
import OranSlice.Mac.HarqLists

/-! The DL HARQ processes of a UE: transmissions of the scheduler and of Msg4, reports on PUCCH, resets
and growth of the lists. -/

namespace OranSlice.Mac

structure HarqPdsch where
  rbSize : Nat := 0
  dlHarqPid : Int := 0
deriving DecidableEq, Repr

structure DlHarqProcess extends HarqProcess where
  feedbackFrame : Nat := 0
  schedPdsch : HarqPdsch := {}
deriving DecidableEq, Repr

/-- The states of a random access procedure that touch the HARQ processes; `idle` stands for the others. -/
inductive RaState where
  | idle
  | msg4
  | waitMsg4Ack
deriving DecidableEq, Repr

structure RaProc where
  raState : RaState := .idle
  harqPid : Nat := 0
deriving DecidableEq, Repr

structure DlHarqCtrl where
  lists : HarqLists
  harqProcesses : Nat → DlHarqProcess
  msg4Acked : Bool
  ra : Nat → RaProc

namespace DlHarqCtrl

variable (ctrl : DlHarqCtrl) (pid : Nat)

def process : HarqProcess := (ctrl.harqProcesses pid).toHarqProcess

def setProcess (process : HarqProcess) : DlHarqCtrl :=
  { ctrl with
    harqProcesses := Function.update ctrl.harqProcesses pid
      { ctrl.harqProcesses pid with toHarqProcess := process } }

def setPdsch (schedPdsch : HarqPdsch) : DlHarqCtrl :=
  { ctrl with
    harqProcesses := Function.update ctrl.harqProcesses pid
      { ctrl.harqProcesses pid with schedPdsch := schedPdsch } }

def setFeedbackFrame (frame : Nat) : DlHarqCtrl :=
  { ctrl with
    harqProcesses := Function.update ctrl.harqProcesses pid
      { ctrl.harqProcesses pid with feedbackFrame := frame } }

def setRa (index : Nat) (ra : RaProc) : DlHarqCtrl :=
  { ctrl with ra := Function.update ctrl.ra index ra }

end DlHarqCtrl

/-! The number of processes. -/

inductive NrofHarqProcesses where
  | n2
  | n4
  | n6
  | n10
  | n12
  | n16
deriving DecidableEq, Repr

def getNrofHarqProcessesForPdsch : NrofHarqProcesses → Nat
  | .n2 => 2
  | .n4 => 4
  | .n6 => 6
  | .n10 => 10
  | .n12 => 12
  | .n16 => 16

variable (lists : HarqLists) (configured : Option NrofHarqProcesses)

def nrofHarq : Nat := configured.elim 8 getNrofHarqProcessesForPdsch

def createHarqLists (nrofHarq : Nat) : HarqLists where
  available := (List.range nrofHarq).foldl addTailNrList (createNrList nrofHarq)
  feedback := createNrList nrofHarq
  retrans := createNrList nrofHarq

def growHarqLists (oldNrofHarq nrofHarq : Nat) : Except Assertion HarqLists := do
  let available ← resizeNrList lists.available nrofHarq
  let feedback ← resizeNrList lists.feedback nrofHarq
  let retrans ← resizeNrList lists.retrans nrofHarq
  return ⟨(List.range' oldNrofHarq (nrofHarq - oldNrofHarq)).foldl addTailNrList available, feedback, retrans⟩

def createDlHarqList :
    Except Assertion HarqLists :=
  if lists.available.len ≠ lists.feedback.len ∨ lists.available.len ≠ lists.retrans.len then
    .error .listLengths
  else if lists.available.len = 0 then .ok (createHarqLists (nrofHarq configured))
  else if lists.available.len = nrofHarq configured then .ok lists
  else if nrofHarq configured < lists.available.len then .error .smallerHarqList
  else growHarqLists lists lists.available.len (nrofHarq configured)

def DlHarqCtrl.new (msg4Acked : Bool) : DlHarqCtrl where
  lists := createHarqLists (nrofHarq configured)
  harqProcesses := fun _ => {}
  msg4Acked := msg4Acked
  ra := fun _ => {}

def resetDlHarqList (ctrl : DlHarqCtrl) : Except Assertion DlHarqCtrl := do
  let lists ← resetHarqLists ctrl.lists
  return { ctrl with
    lists := lists
    harqProcesses := fun pid =>
      if pid < nrMaxHarqProcesses then
        { ctrl.harqProcesses pid with toHarqProcess := (ctrl.process pid).reset }
      else ctrl.harqProcesses pid }

/-! Feedback. -/

def abortNrDlHarq (ctrl : DlHarqCtrl) (pid : Nat) : DlHarqCtrl :=
  { ctrl.setProcess pid (ctrl.process pid).finished with
    lists := { ctrl.lists with available := addTailNrList ctrl.lists.available pid } }

def handleDlHarq (harqRoundMax pid : Nat) (success : Bool) (ctrl : DlHarqCtrl) : DlHarqCtrl :=
  let settled := ctrl.setProcess pid
    { ctrl.process pid with feedbackSlot := HarqProcess.noFeedbackSlot, isWaiting := false }
  if success then
    { settled.setProcess pid (settled.process pid).finished with
      lists := { settled.lists with available := addTailNrList settled.lists.available pid } }
  else if ((settled.process pid).round : Int) ≥ (harqRoundMax : Int) - 1 then abortNrDlHarq settled pid
  else
    { settled.setProcess pid (settled.process pid).retried with
      lists := { settled.lists with retrans := addTailNrList settled.lists.retrans pid } }

namespace DlHarqProcess

/-- The feedback is due before the time, with 512 frames as the border between past and future. -/
def isPast (harq : DlHarqProcess) (frame slot : Nat) : Prop :=
  ((harq.feedbackFrame : Int) - frame + 1024).tmod 1024 > 512 ∨
    harq.feedbackFrame = frame ∧ harq.feedbackSlot < slot

def isFuture (harq : DlHarqProcess) (frame slot : Nat) : Prop :=
  ((frame : Int) - harq.feedbackFrame + 1024).tmod 1024 > 512 ∨
    harq.feedbackFrame = frame ∧ harq.feedbackSlot > slot

instance (harq : DlHarqProcess) (frame slot : Nat) : Decidable (harq.isPast frame slot) :=
  inferInstanceAs (Decidable (_ ∨ _))

instance (harq : DlHarqProcess) (frame slot : Nat) : Decidable (harq.isFuture frame slot) :=
  inferInstanceAs (Decidable (_ ∨ _))

end DlHarqProcess

/-- `find_harq`: processes whose feedback is past have missed it; the first one that still waits is
found, unless its feedback is in the future. -/
def findHarq (harqRoundMax frame slot : Nat) : Nat → DlHarqCtrl → Except Assertion (Option Nat × DlHarqCtrl)
  | 0, _ => .error .endlessWalk
  | fuel + 1, ctrl =>
    if ctrl.lists.feedback.head < 0 then .ok (none, ctrl)
    else
      let pid := ctrl.lists.feedback.head.toNat
      if (ctrl.harqProcesses pid).isPast frame slot then do
        let feedback ← removeFrontNrList ctrl.lists.feedback
        findHarq harqRoundMax frame slot fuel
          (handleDlHarq harqRoundMax pid false { ctrl with lists := { ctrl.lists with feedback } })
      else if (ctrl.harqProcesses pid).isFuture frame slot then .ok (none, ctrl)
      else .ok (some pid, ctrl)

/-- The loops over the HARQ bits of a report. `bits` says which bits acknowledge; the answer names the
processes that they were applied to. -/
def harqBits (harqRoundMax frame slot : Nat) (setsMsg4Acked : Bool) :
    List Bool → DlHarqCtrl → Except Assertion (List Nat × DlHarqCtrl)
  | [], ctrl => .ok ([], ctrl)
  | success :: bits, ctrl => do
      let (found, ctrl) ← findHarq harqRoundMax frame slot (ctrl.lists.feedback.len + 1) ctrl
      match found with
      | none => return ([], ctrl)
      | some pid =>
        if (ctrl.process pid).isWaiting = false then .error .isWaiting
        else
          let feedback ← removeFrontNrList ctrl.lists.feedback
          let handled := handleDlHarq harqRoundMax pid success { ctrl with lists := { ctrl.lists with feedback } }
          let acked := { handled with msg4Acked := handled.msg4Acked || (setsMsg4Acked && success) }
          let (pids, ctrl) ← harqBits harqRoundMax frame slot setsMsg4Acked bits acked
          return (pid :: pids, ctrl)

structure Uci01Harq where
  harqList : List Nat
  harqConfidenceLevel : Nat
deriving DecidableEq, Repr

def Uci01Harq.bits (harq : Uci01Harq) : List Bool :=
  harq.harqList.map (fun value => value == 0 && harq.harqConfidenceLevel == 0)

structure Uci234Harq where
  harqBitLen : Nat
  harqPayload : List Nat
  harqCrc : Nat
deriving DecidableEq, Repr

def Uci234Harq.bits (harq : Uci234Harq) : List Bool :=
  (List.range harq.harqBitLen).map (fun harqBit =>
    let acknack := (harq.harqPayload.getD (harqBit >>> 3) 0 >>> harqBit) &&& 1
    harq.harqCrc != 1 && acknack != 0)

variable (harqRoundMax index frame slot feedbackFrame feedbackSlot : Nat)

def handleNrUciPucch01 (harq : Option Uci01Harq) (ctrl : DlHarqCtrl) :
    Except Assertion (List Nat × DlHarqCtrl) :=
  match harq with
  | none => .ok ([], ctrl)
  | some harq => harqBits harqRoundMax frame slot true harq.bits ctrl

def handleNrUciPucch234 (csiMeasConfig : Bool) (harq : Option Uci234Harq)
    (ctrl : DlHarqCtrl) : Except Assertion (List Nat × DlHarqCtrl) :=
  if csiMeasConfig = false then .ok ([], ctrl)
  else
    match harq with
    | none => .ok ([], ctrl)
    | some harq => harqBits harqRoundMax frame slot false harq.bits ctrl

/-! Transmissions. -/

/-- The resources found for a UE, and the frame and slot of the feedback. A retransmission keeps its
size unless it needs another time domain allocation. -/
structure DlGrant where
  rbSize : Nat
  resized : Bool
  (feedbackFrame feedbackSlot : Nat)
deriving DecidableEq, Repr

inductive DlPreprocessor where
  | fr1
  | phytest
deriving DecidableEq, Repr

def retransmission (ctrl : DlHarqCtrl) (grant : DlGrant) (pid : Nat) : HarqPdsch :=
  let retInfo := (ctrl.harqProcesses pid).schedPdsch
  { retInfo with rbSize := if grant.resized then grant.rbSize else retInfo.rbSize }

def preProcessorDl (preprocessor : DlPreprocessor) (grant : DlGrant) (ctrl : DlHarqCtrl) :
    DlHarqCtrl × HarqPdsch :=
  let pid := ctrl.lists.retrans.head
  if pid < 0 then
    if ctrl.lists.available.head < 0 then (ctrl, { rbSize := 0, dlHarqPid := pid })
    else (ctrl, { rbSize := grant.rbSize, dlHarqPid := pid })
  else
    match preprocessor with
    | .phytest => (ctrl, { rbSize := grant.rbSize, dlHarqPid := pid })
    | .fr1 =>
      let retInfo := retransmission ctrl grant pid.toNat
      (ctrl.setPdsch pid.toNat retInfo, retInfo)

def sendHarq (ctrl : DlHarqCtrl) (lists : HarqLists) (pid feedbackFrame feedbackSlot : Nat) : DlHarqCtrl :=
  { (ctrl.setFeedbackFrame pid feedbackFrame).setProcess pid ((ctrl.process pid).sent feedbackSlot) with
    lists := { lists with feedback := addTailNrList lists.feedback pid } }

def nrScheduleUeSpec (ctrl : DlHarqCtrl) (schedPdsch : HarqPdsch)
    (feedbackFrame feedbackSlot : Nat) : Except Assertion DlHarqCtrl :=
  if schedPdsch.rbSize = 0 then .ok ctrl
  else do
    let (pid, lists) ← takeProcess ctrl.lists ctrl.process schedPdsch.dlHarqPid
    if (ctrl.process pid).isWaiting = true then .error .isWaiting
    else
      let sent := sendHarq ctrl lists pid feedbackFrame feedbackSlot
      if (sent.process pid).round < harqRoundMax then
        if (sent.process pid).round = 0 then .ok (sent.setPdsch pid { schedPdsch with dlHarqPid := pid })
        else .ok sent
      else .error .roundOutOfBounds

def msg4Process (lists : HarqLists) : Except Assertion (Nat × HarqLists) :=
  if lists.retrans.head < 0 then
    if lists.available.head < 0 then .error .noFreeProcess
    else do
      let available ← removeFrontNrList lists.available
      return (lists.available.head.toNat, { lists with available })
  else .ok (lists.retrans.head.toNat, lists)

def nrGenerateMsg4 (ctrl : DlHarqCtrl) : Except Assertion DlHarqCtrl := do
  let (pid, lists) ← msg4Process ctrl.lists
  if (ctrl.process pid).isWaiting = true then .error .isWaiting
  else .ok ((sendHarq ctrl lists pid feedbackFrame feedbackSlot).setRa index ⟨.waitMsg4Ack, pid⟩)

def nrCheckMsg4Ack (ctrl : DlHarqCtrl) : Except Assertion DlHarqCtrl :=
  let pid := (ctrl.ra index).harqPid
  if (ctrl.process pid).isWaiting = false then
    if (ctrl.process pid).round = 0 then
      let cleared := ctrl.setRa index { ctrl.ra index with raState := .idle }
      if ctrl.lists.retrans.head ≥ 0 then do
        let retrans ← removeNrList ctrl.lists.retrans pid
        return { cleared with lists := { ctrl.lists with retrans } }
      else .ok cleared
    else .ok (ctrl.setRa index { ctrl.ra index with raState := .msg4 })
  else .ok ctrl

/-- What can happen to the DL HARQ processes of a UE. A `grant` or `feedback` of `none` is a call that
returns before it reaches them. -/
inductive DlHarqOp where
  | schedule (preprocessor : DlPreprocessor) (grant : Option DlGrant)
  | scheduleRa (index : Nat) (feedback : Option (Nat × Nat))
  | uci01 (frame slot : Nat) (harq : Option Uci01Harq)
  | uci234 (frame slot : Nat) (csiMeasConfig : Bool) (harq : Option Uci234Harq)
  | msg3 (index : Nat) (crnti : Bool)
  | cfraMsg3
  | clearRaProc (index : Nat)
  | createList (configured : Option NrofHarqProcesses)
deriving DecidableEq, Repr

def dlHarqStep (ctrl : DlHarqCtrl) : DlHarqOp → Except Assertion DlHarqCtrl
  | .schedule _ none => .ok ctrl
  | .schedule preprocessor (some grant) =>
    if preprocessor = .fr1 ∧ ctrl.msg4Acked = false then .ok ctrl
    else
      let (ctrl, schedPdsch) := preProcessorDl preprocessor grant ctrl
      nrScheduleUeSpec harqRoundMax ctrl schedPdsch grant.feedbackFrame grant.feedbackSlot
  | .scheduleRa index feedback =>
    match (ctrl.ra index).raState, feedback with
    | .msg4, some (feedbackFrame, feedbackSlot) => nrGenerateMsg4 index feedbackFrame feedbackSlot ctrl
    | .msg4, none => .ok ctrl
    | .waitMsg4Ack, _ => nrCheckMsg4Ack index ctrl
    | .idle, _ => .ok ctrl
  | .uci01 frame slot harq => do
      let (_, ctrl) ← handleNrUciPucch01 harqRoundMax frame slot harq ctrl
      return ctrl
  | .uci234 frame slot csiMeasConfig harq => do
      let (_, ctrl) ← handleNrUciPucch234 harqRoundMax frame slot csiMeasConfig harq ctrl
      return ctrl
  | .msg3 index crnti =>
    let started := ctrl.setRa index { ctrl.ra index with raState := .msg4 }
    if crnti then resetDlHarqList { started with msg4Acked := false } else .ok started
  | .cfraMsg3 => resetDlHarqList ctrl
  | .clearRaProc index => .ok (ctrl.setRa index { ctrl.ra index with raState := .idle })
  | .createList configured => do
      let lists ← createDlHarqList ctrl.lists configured
      return { ctrl with lists }

end OranSlice.Mac
