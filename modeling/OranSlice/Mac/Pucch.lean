import OranSlice.Mac.SlotTime

/-! PUCCH occasions of a UE in the ring `sched_pucch`: booked ahead for HARQ acknowledgements and CSI
reports, and handed on when their slot comes. -/

namespace OranSlice.Mac

open Function

structure SchedPucch where
  active : Bool := false
  (frame ulSlot csiBits : Nat := 0)
  simultaneousHarqcsi : Bool := false
  (daiC timingIndicator resourceIndicator : Nat := 0)
  rPucch : Int := 0
deriving DecidableEq, Repr

structure DlDataToUlAck where
  list : List Nat
  bound : ∀ k ∈ list, k ≤ 15

/-- What happened to occasions: `time` is an absolute slot, and the bits are those of
acknowledgements and of CSI. -/
inductive PucchEvent where
  | booked (time acks csi : Nat)
  | handed (time acks csi : Nat)
  | mismatch
deriving DecidableEq, Repr

/-- The occasions of a UE before an absolute slot is processed. The timings are those of DCI
format 1_1; with `none` DCIs have format 1_0. -/
structure PucchState where
  now : Nat
  timings : Option DlDataToUlAck
  size : Nat
  ring : Nat → SchedPucch
  log : List PucchEvent

def setMaxFbTime (timings : Option DlDataToUlAck) : Nat :=
  match timings with
  | none => 8
  | some times => times.list.foldl max 8

def ceilLog2 (x : Nat) : Nat := if x ≤ 1 then 0 else Nat.log2 (x - 1) + 1

namespace SlotGrid

variable (grid : SlotGrid)

def getPucchIndex (frame slot size : Nat) : Nat :=
  let ulSlotsFrame := grid.slotsFrame / grid.slotsPeriod * grid.ulSlotsPeriod
  (frame * ulSlotsFrame + slot / grid.slotsPeriod * grid.ulSlotsPeriod +
    (slot % grid.slotsPeriod - grid.firstUlSlotPeriod)) % size

variable (timings : Option DlDataToUlAck)

/-- How many slots ahead CSI reports are booked, and acknowledgements at most. -/
def lead : Nat := setMaxFbTime timings + grid.koffset

def listSize : Nat :=
  grid.ulSlotsPeriod * 2 ^ ceilLog2 (grid.lead timings / grid.slotsPeriod + 1)

def newPucchList (now : Nat) : PucchState :=
  ⟨now, timings, grid.listSize timings, fun _ => {}, []⟩

/-- A list that is too short is enlarged; its elements stay where they are. -/
def setSchedPucchList (s : PucchState) : PucchState :=
  let listSize := grid.listSize timings
  if s.size < listSize then
    { s with
      timings := timings
      size := listSize
      ring := fun i => if s.size ≤ i ∧ i < listSize then {} else s.ring i }
  else { s with timings := timings }

end SlotGrid

namespace PucchState

def book (s : PucchState) (index : Nat) (pucch : SchedPucch) (time acks csi : Nat) : PucchState :=
  { s with ring := update s.ring index pucch, log := s.log ++ [.booked time acks csi] }

def drop (s : PucchState) (index : Nat) : PucchState :=
  { s with ring := update s.ring index {}, log := s.log ++ [.mismatch] }

end PucchState

/-- What the search for an occasion depends on besides the list: the timings, the code rate limit for a
number of bits and a resource, and the resources free in a slot. -/
structure AckInput where
  isCommon : Bool
  rPucch : Int
  minRxTxTime : Nat
  (coderateOk vrbFree : Nat → Nat → Bool)

def AckInput.timings (input : AckInput) (configured : Option DlDataToUlAck) : List Nat :=
  match input.isCommon, configured with
  | false, some times => times.list
  | _, _ => [1, 2, 3, 4, 5, 6, 7, 8]

def SchedPucch.admits (pucch : SchedPucch) (input : AckInput) : Bool :=
  if pucch.csiBits = 0 ∧ pucch.daiC = 2 then false
  else if 0 < pucch.csiBits ∧ !pucch.simultaneousHarqcsi then false
  else if 0 < pucch.csiBits ∧
      !input.coderateOk (pucch.csiBits + pucch.daiC + 2) pucch.resourceIndicator then false
  else if 0 < pucch.csiBits ∧ 3 ≤ pucch.daiC then false
  else true

namespace SlotGrid

variable (grid : SlotGrid)

def acknackSearch (input : AckInput) : List (Nat × Nat) → PucchState → PucchState × Option Nat
  | [], s => (s, none)
  | (k, indicator) :: rest, s =>
    let ahead := k + grid.koffset
    if ahead < input.minRxTxTime + grid.koffset then acknackSearch input rest s
    else
      let pucchSlot := (grid.slotOf s.now + ahead) % grid.slotsFrame
      if !grid.isUl pucchSlot then acknackSearch input rest s
      else
        let pucchFrame := (grid.frameOf s.now + (grid.slotOf s.now + ahead) / grid.slotsFrame) % maxFrameNumber
        let index := grid.getPucchIndex pucchFrame pucchSlot s.size
        let curr := s.ring index
        if curr.active ∧ curr.frame = pucchFrame ∧ curr.ulSlot = pucchSlot then
          if curr.admits input then
            (s.book index { curr with timingIndicator := indicator, daiC := curr.daiC + 1 }
              (s.now + ahead) 1 0, some index)
          else acknackSearch input rest s
        else if curr.active then acknackSearch input rest (s.drop index)
        else if input.vrbFree pucchFrame pucchSlot then
          (s.book index
            { curr with active := true, frame := pucchFrame, ulSlot := pucchSlot
                        timingIndicator := indicator, daiC := curr.daiC + 1
                        resourceIndicator := 0, rPucch := input.rPucch }
            (s.now + ahead) 1 0, some index)
        else acknackSearch input rest s

def nrAcknackScheduling (input : AckInput) (s : PucchState) : PucchState × Option Nat :=
  grid.acknackSearch input (input.timings s.timings).zipIdx s

end SlotGrid

structure CsiReport where
  (bits resIndex : Nat)
  (simultaneousHarqcsi vrbFree : Bool)

inductive PucchAssertion where
  | csiSlotNotUplink
  | csiOccasionInUse
deriving DecidableEq, Repr

namespace SlotGrid

variable (grid : SlotGrid)

/-- A CSI report takes a new occasion; without resources for it the element is set to zero
again. -/
def nrCsiMeasReporting (report : CsiReport) (s : PucchState) : Except PucchAssertion PucchState :=
  let ahead := grid.lead s.timings
  let schedSlot := (grid.slotOf s.now + ahead) % grid.slotsFrame
  let schedFrame := (grid.frameOf s.now + (grid.slotOf s.now + ahead) / grid.slotsFrame) % maxFrameNumber
  if !grid.isUl schedSlot then .error .csiSlotNotUplink
  else
    let index := grid.getPucchIndex schedFrame schedSlot s.size
    let curr := s.ring index
    if curr.active then .error .csiOccasionInUse
    else if !report.vrbFree then .ok { s with ring := update s.ring index {} }
    else
      .ok (s.book index
        { curr with active := true, frame := schedFrame, ulSlot := schedSlot, rPucch := -1
                    resourceIndicator := report.resIndex, csiBits := curr.csiBits + report.bits
                    simultaneousHarqcsi := report.simultaneousHarqcsi }
        (s.now + ahead) 0 report.bits)

def nrSchedulePucch (s : PucchState) : PucchState :=
  let frame := grid.frameOf s.now
  let slot := grid.slotOf s.now
  if !grid.isUl slot then { s with now := s.now + 1 }
  else
    let index := grid.getPucchIndex frame slot s.size
    let curr := s.ring index
    if !curr.active then { s with now := s.now + 1 }
    else if frame ≠ curr.frame ∨ slot ≠ curr.ulSlot then { s.drop index with now := s.now + 1 }
    else
      { s with
        now := s.now + 1
        ring := update s.ring index {}
        log := s.log ++ [.handed s.now curr.daiC curr.csiBits] }

end SlotGrid

/-- What may happen in a slot between `nr_csi_meas_reporting` and `nr_schedule_pucch`. -/
inductive SlotWork where
  | ack (input : AckInput)
  | configure (timings : Option DlDataToUlAck)

/-- A UE is configured again, or a slot is scheduled, with at most one CSI report. -/
inductive PucchOp where
  | configure (timings : Option DlDataToUlAck)
  | slot (csi : Option CsiReport) (work : List SlotWork)

namespace SlotGrid

variable (grid : SlotGrid)

def slotWork (s : PucchState) : SlotWork → PucchState
  | .ack input => (grid.nrAcknackScheduling input s).1
  | .configure timings => grid.setSchedPucchList timings s

def reportCsi (csi : Option CsiReport) (s : PucchState) : Except PucchAssertion PucchState :=
  match csi with
  | none => .ok s
  | some report => grid.nrCsiMeasReporting report s

def pucchStep (s : PucchState) : PucchOp → Except PucchAssertion PucchState
  | .configure timings => .ok (grid.setSchedPucchList timings s)
  | .slot csi work => (grid.reportCsi csi s).map fun s => grid.nrSchedulePucch (work.foldl grid.slotWork s)

def pucchRun (s : PucchState) (op : PucchOp) : Option PucchState := (grid.pucchStep s op).toOption

end SlotGrid

def dueAt (log : List PucchEvent) (time : Nat) : List (Nat × Nat) :=
  log.filterMap fun event => match event with
    | .booked other acks csi => if other = time then some (acks, csi) else none
    | _ => none

def handedAt (log : List PucchEvent) (time : Nat) : List (Nat × Nat) :=
  log.filterMap fun event => match event with
    | .handed other acks csi => if other = time then some (acks, csi) else none
    | _ => none

def totalBits (due : List (Nat × Nat)) : Nat × Nat := ((due.map Prod.fst).sum, (due.map Prod.snd).sum)

structure NoneLost (s : PucchState) : Prop where
  matching : PucchEvent.mismatch ∉ s.log
  handed : ∀ time < s.now,
    handedAt s.log time = if dueAt s.log time = [] then [] else [totalBits (dueAt s.log time)]
  later : ∀ time, s.now ≤ time → handedAt s.log time = []

end OranSlice.Mac
