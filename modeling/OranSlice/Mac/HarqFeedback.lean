import OranSlice.Mac.DlHarq
import OranSlice.Mac.PucchRuns

/-! HARQ feedback from the PDSCH to the report: a DCI counts its acknowledgement in a PUCCH occasion,
the process waits in `feedback_dl_harq`, and the bits of a report go to the waiting processes. -/

namespace OranSlice.Mac

open Function

/-- What a bit of a report was applied to: the slot of the report, the number of the bit, and the slot
and count given to the DCI of the process. -/
structure AppliedBit where
  (time bit : Nat)
  counted : Nat × Nat
deriving DecidableEq, Repr

/-- The PUCCH occasions and HARQ processes of a UE. Not in the code: for each process the absolute slot
of the occasion of its last DCI and the acknowledgements that it had before; the first slot whose report
may still come; and what the bits of the reports were applied to. -/
structure FeedbackState where
  pucch : PucchState
  ctrl : DlHarqCtrl
  counted : Nat → Nat × Nat
  indicated : Nat
  applied : List AppliedBit

structure PdschAlloc where
  preprocessor : DlPreprocessor
  rbSize : Nat
  resized : Bool
  positive : 0 < rbSize

def PdschAlloc.grant (alloc : PdschAlloc) (pucch : SchedPucch) : DlGrant :=
  ⟨alloc.rbSize, alloc.resized, pucch.frame, pucch.ulSlot⟩

inductive FeedbackWork where
  | pdsch (alloc : PdschAlloc) (input : AckInput)
  | configure (timings : Option DlDataToUlAck)

/-- A slot is scheduled, the UE is configured again, its HARQ lists are reset, or a report with
HARQ bits comes in for an absolute slot. -/
inductive FeedbackOp where
  | slot (csi : Option CsiReport) (work : List FeedbackWork)
  | configure (timings : Option DlDataToUlAck)
  | reset
  | uci01 (time : Nat) (harq : Uci01Harq)
  | uci234 (time : Nat) (csiMeasConfig : Bool) (harq : Uci234Harq)

namespace SlotGrid

variable (grid : SlotGrid) (harqRoundMax : Nat)

def count (s : FeedbackState) (pucch : SchedPucch) (next : FeedbackState) : FeedbackState :=
  { next with
    counted := update s.counted next.ctrl.lists.feedback.tail.toNat
      (s.pucch.now + grid.slotsTo s.pucch.now pucch, pucch.daiC - 1) }

/-- A PDSCH for the UE. A preprocessor looks for an occasion only when there is a process to
send; without an occasion nothing is sent. -/
def schedulePdsch (alloc : PdschAlloc) (input : AckInput) (s : FeedbackState) : Except Assertion FeedbackState :=
  if alloc.preprocessor = .fr1 ∧ s.ctrl.msg4Acked = false then .ok s
  else if s.ctrl.lists.retrans.head < 0 ∧ s.ctrl.lists.available.head < 0 then .ok s
  else
    match grid.nrAcknackScheduling input s.pucch with
    | (pucch, none) =>
      .ok { s with pucch, ctrl := (preProcessorDl alloc.preprocessor (alloc.grant {}) s.ctrl).1 }
    | (pucch, some index) =>
      let occasion := pucch.ring index
      let (ctrl, schedPdsch) := preProcessorDl alloc.preprocessor (alloc.grant occasion) s.ctrl
      (nrScheduleUeSpec harqRoundMax ctrl schedPdsch occasion.frame occasion.ulSlot).map fun ctrl =>
        if schedPdsch.rbSize = 0 then { s with pucch, ctrl }
        else grid.count s occasion { s with pucch, ctrl }

def feedbackWork (s : FeedbackState) : FeedbackWork → Except Assertion FeedbackState
  | .pdsch alloc input => grid.schedulePdsch harqRoundMax alloc input s
  | .configure timings => .ok { s with pucch := grid.setSchedPucchList timings s.pucch }

def feedbackWorks : List FeedbackWork → FeedbackState → Except Assertion FeedbackState
  | [], s => .ok s
  | work :: rest, s => (grid.feedbackWork harqRoundMax s work).bind (feedbackWorks rest)

end SlotGrid

def FeedbackState.note (s : FeedbackState) (time : Nat) (answered : List Nat × DlHarqCtrl) : FeedbackState :=
  { s with
    ctrl := answered.2
    indicated := time + 1
    applied := s.applied ++ answered.1.zipIdx.map fun (pid, bit) => ⟨time, bit, s.counted pid⟩ }

namespace SlotGrid

variable (grid : SlotGrid) (harqRoundMax : Nat)

/-- The steps of a run; an assertion ends it. Reports come after their slots and in their order, at most
one for a slot. -/
def feedbackRun (s : FeedbackState) : FeedbackOp → Option FeedbackState
  | .slot csi work =>
    (grid.reportCsi csi s.pucch).toOption.bind fun pucch =>
      (grid.feedbackWorks harqRoundMax work { s with pucch }).toOption.map fun s =>
        { s with pucch := grid.nrSchedulePucch s.pucch }
  | .configure timings => some { s with pucch := grid.setSchedPucchList timings s.pucch }
  | .reset => (resetDlHarqList s.ctrl).toOption.map fun ctrl => { s with ctrl }
  | .uci01 time harq =>
    if time < s.indicated ∨ s.pucch.now ≤ time then none
    else (handleNrUciPucch01 harqRoundMax (grid.frameOf time) (grid.slotOf time) (some harq) s.ctrl).toOption.map
      (s.note time)
  | .uci234 time csiMeasConfig harq =>
    if time < s.indicated ∨ s.pucch.now ≤ time then none
    else (handleNrUciPucch234 harqRoundMax (grid.frameOf time) (grid.slotOf time) csiMeasConfig (some harq)
      s.ctrl).toOption.map (s.note time)

def newFeedback (timings : Option DlDataToUlAck) (now : Nat) (configured : Option NrofHarqProcesses)
    (msg4Acked : Bool) : FeedbackState where
  pucch := grid.newPucchList timings now
  ctrl := .new configured msg4Acked
  counted := fun _ => (0, 0)
  indicated := now
  applied := []

end SlotGrid

/-- Each bit was applied to the process whose DCI counted as that acknowledgement of the
occasion in the slot of the report. -/
def FeedbackState.Paired (s : FeedbackState) : Prop := ∀ applied ∈ s.applied, applied.counted = (applied.time, applied.bit)

end OranSlice.Mac
