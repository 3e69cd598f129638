import OranSlice.Mac.DlHarqRuns
import OranSlice.Mac.HarqFeedback

/-! The bits of a report reach the transport blocks that they acknowledge, as long as no process waits
for a report that the frame numbers confuse with this one, and the HARQ lists are not reset under a
pending occasion. -/

namespace OranSlice.Mac

open Function Matching Runs List

namespace SlotGrid

variable {grid : SlotGrid}

/-- A report for one slot is told apart from the feedback due in another: earlier feedback is not a
multiple of 512 frames old, and later feedback is due within 512 frames. -/
def Distinct (grid : SlotGrid) (time other : Nat) : Prop :=
  (other < time → (time / grid.slotsFrame - other / grid.slotsFrame) % 1024 ≠ 512 ∧
      ¬ 1024 * grid.slotsFrame ∣ time - other) ∧
    (time < other → other / grid.slotsFrame < time / grid.slotsFrame + 512)

instance (time other : Nat) : Decidable (grid.Distinct time other) := inferInstanceAs (Decidable (_ ∧ _))

theorem cycle_dvd {time other : Nat} (earlier : other < time) (frame : grid.frameOf other = grid.frameOf time)
    (slot : grid.slotOf other = grid.slotOf time) : 1024 * grid.slotsFrame ∣ time - other := by
  apply (Nat.modEq_iff_dvd' (le_of_lt earlier)).mp
  have first := @frameOf_mul_add_slotOf grid time
  have second := @frameOf_mul_add_slotOf grid other
  rw [frame, slot, first] at second
  exact second.symm

theorem frame_comparison (a b : Nat) :
    ((a % 1024 : Nat) - (b % 1024 : Nat) + 1024 : Int).tmod 1024 > 512 ↔
      512 < ((a % 1024 : Nat) - (b % 1024 : Nat) + 1024 : Int) % 1024 := by
  rw [Int.tmod_eq_emod_of_nonneg (by omega)]

theorem verdict_judged {time other : Nat} (distinct : grid.Distinct time other) {harq : DlHarqProcess}
    (frame : harq.feedbackFrame = grid.frameOf other) (slot : harq.feedbackSlot = grid.slotOf other) :
    (harq.verdict (grid.frameOf time) (grid.slotOf time) = .due ↔ other = time) ∧
      (harq.verdict (grid.frameOf time) (grid.slotOf time) = .past → other < time) := by
  have past_iff : harq.isPast (grid.frameOf time) (grid.slotOf time) ↔
      512 < (((other / grid.slotsFrame) % 1024 : Nat) - ((time / grid.slotsFrame) % 1024 : Nat) + 1024 : Int) % 1024 ∨
        grid.frameOf other = grid.frameOf time ∧ grid.slotOf other < grid.slotOf time := by
    rw [DlHarqProcess.isPast, frame, slot, ← frame_comparison]
    rfl
  have future_iff : harq.isFuture (grid.frameOf time) (grid.slotOf time) ↔
      512 < (((time / grid.slotsFrame) % 1024 : Nat) - ((other / grid.slotsFrame) % 1024 : Nat) + 1024 : Int) % 1024 ∨
        grid.frameOf other = grid.frameOf time ∧ grid.slotOf time < grid.slotOf other := by
    rw [DlHarqProcess.isFuture, frame, slot, ← frame_comparison]
    rfl
  have frames : ∀ t, grid.frameOf t = t / grid.slotsFrame % 1024 := fun _ => rfl
  have slots : ∀ t, grid.slotsFrame * (t / grid.slotsFrame) + grid.slotOf t = t := fun t =>
    Nat.div_add_mod t grid.slotsFrame
  rcases Nat.lt_trichotomy other time with earlier | same | later
  · obtain ⟨border, cycle⟩ := distinct.1 earlier
    have order : other / grid.slotsFrame ≤ time / grid.slotsFrame := Nat.div_le_div_right (le_of_lt earlier)
    have told : harq.isPast (grid.frameOf time) (grid.slotOf time) ∨
        harq.isFuture (grid.frameOf time) (grid.slotOf time) := by
      rw [past_iff, future_iff]
      by_contra neither
      have equal : grid.frameOf other = grid.frameOf time := by
        rw [frames, frames]
        omega
      exact cycle (cycle_dvd earlier equal (by omega))
    refine ⟨⟨?_, fun equal => absurd equal (ne_of_lt earlier)⟩, fun _ => earlier⟩
    intro verdict
    unfold DlHarqProcess.verdict at verdict
    split_ifs at verdict with past future
    exact absurd told (not_or.mpr ⟨past, future⟩)
  · subst same
    have current : harq.verdict (grid.frameOf other) (grid.slotOf other) = .due := by
      rw [DlHarqProcess.verdict, if_neg (by rw [past_iff]; omega), if_neg (by rw [future_iff]; omega)]
    rw [current]
    simp
  · have near := distinct.2 later
    have order : time / grid.slotsFrame ≤ other / grid.slotsFrame := Nat.div_le_div_right (le_of_lt later)
    have within : time / grid.slotsFrame = other / grid.slotsFrame → grid.slotOf time < grid.slotOf other := by
      intro equal
      have first := slots time
      have second := slots other
      rw [equal] at first
      omega
    have ahead : harq.verdict (grid.frameOf time) (grid.slotOf time) = .future := by
      rw [DlHarqProcess.verdict, if_neg, if_pos]
      · rw [future_iff, frames, frames]
        omega
      · rw [past_iff, frames, frames]
        omega
    rw [ahead]
    simp [ne_of_gt later]

end SlotGrid

/-- Feedback that is 512 frames old is taken for the feedback at hand. -/
example : DlHarqProcess.verdict ⟨⟨true, 0, 0, 7⟩, 0, {}⟩ 512 13 = .due := by decide

def acksAt (log : List PucchEvent) (time : Nat) : Nat := (totalBits (dueAt log time)).1

theorem acksAt_booked (log : List PucchEvent) (booked acks csi time : Nat) :
    acksAt (log ++ [.booked booked acks csi]) time =
      if booked = time then acksAt log time + acks else acksAt log time := by
  rw [acksAt, dueAt_booked]
  split
  · rw [totalBits_append]
    rfl
  · rfl

namespace SlotGrid

variable {grid : SlotGrid}

theorem reportCsi_acks {csi : Option CsiReport} {s after : PucchState} (reported : grid.reportCsi csi s = .ok after) :
    after.now = s.now ∧ after.timings = s.timings ∧ ∀ time, acksAt after.log time = acksAt s.log time := by
  cases csi with
  | none =>
    cases reported
    exact ⟨rfl, rfl, fun _ => rfl⟩
  | some report =>
    simp only [reportCsi, nrCsiMeasReporting] at reported
    split_ifs at reported
    · cases reported
      exact ⟨rfl, rfl, fun _ => rfl⟩
    cases reported
    refine ⟨rfl, rfl, fun time => ?_⟩
    rw [PucchState.book, acksAt_booked]
    split <;> rfl

theorem nrSchedulePucch_acks (s : PucchState) :
    (grid.nrSchedulePucch s).now = s.now + 1 ∧
      ∀ time, acksAt (grid.nrSchedulePucch s).log time = acksAt s.log time := by
  unfold nrSchedulePucch
  dsimp only
  split_ifs
  · exact ⟨rfl, fun _ => rfl⟩
  · exact ⟨rfl, fun _ => rfl⟩
  · simp [acksAt, PucchState.drop, dueAt]
  · refine ⟨rfl, fun time => ?_⟩
    rw [acksAt, acksAt, dueAt_handed]

theorem InSlot.acknack_cases {s : PucchState} (inSlot : grid.InSlot s) (regular : grid.Regular) (input : AckInput) :
    grid.nrAcknackScheduling input s = (s, none) ∨
      ∃ after index time, grid.nrAcknackScheduling input s = (after, some index) ∧ grid.InSlot after ∧
        after.now = s.now ∧ s.now ≤ time ∧ (after.ring index).frame = grid.frameOf time ∧
        (after.ring index).ulSlot = grid.slotOf time ∧
        s.now + grid.slotsTo s.now (after.ring index) = time ∧
        (after.ring index).daiC - 1 = acksAt s.log time ∧
        ∀ other, acksAt after.log other = if time = other then acksAt s.log other + 1 else acksAt s.log other := by
  obtain ⟨calendar, booked⟩ := inSlot
  rcases acknackSearch_cases input booked _ (timings_le input s.timings) with
    nothing | ⟨time, pucch, selected, above, below, entry, done⟩
  · exact .inl nothing
  right
  have cycle := @lead_lt grid s.timings
  obtain ⟨_, frame, slot, bits⟩ := entry.active (by
    unfold Entry at entry
    rw [if_neg (by simp)] at entry
    exact entry.1)
  rw [totalBits_append] at bits
  have here : (s.book (grid.place s.size time) pucch time 1 0).ring (grid.place s.size time) = pucch :=
    update_self _ _ _
  refine ⟨_, _, time, done, ⟨_, booked.book regular selected above below entry⟩, rfl, above, ?_⟩
  rw [here]
  refine ⟨frame, slot, ?_, ?_, ?_⟩
  · rw [slotsTo_eq frame slot above (by omega)]
    omega
  · have count : pucch.daiC = acksAt s.log time + 1 := congrArg Prod.fst bits
    omega
  · intro other
    rw [PucchState.book, acksAt_booked]

end SlotGrid

def DlHarqCtrl.Own (ctrl : DlHarqCtrl) (pools : Pools) : Prop :=
  ∀ pid, pid < ctrl.size → pid ∉ pools.free →
    (ctrl.harqProcesses pid).schedPdsch.dlHarqPid = pid ∧ (ctrl.harqProcesses pid).schedPdsch.rbSize ≠ 0

section Sending

variable {harqRoundMax : Nat} {ctrl : DlHarqCtrl} {pools : Pools}

theorem DlHarqCtrl.Own.settled {next : DlHarqCtrl} {pools' : Pools} (own : ctrl.Own pools)
    (settled : ctrl.Settled next pools pools') : next.Own pools' := by
  intro pid inside busy
  rw [settled.schedPdsch]
  exact own pid (settled.size ▸ inside) (fun free => busy (settled.free free))

section

variable (state : DlHarqState harqRoundMax ctrl pools) (own : ctrl.Own pools)

include state own

theorem DlHarqState.again_own (filled : ¬ ctrl.lists.retrans.head < 0) :
    ∃ head, ctrl.lists.retrans.head = (head : Nat) ∧ head ∈ pools.again ∧
      (ctrl.harqProcesses head).schedPdsch.dlHarqPid = head ∧ (ctrl.harqProcesses head).schedPdsch.rbSize ≠ 0 := by
  obtain ⟨head, head_eq, member⟩ := state.again_head filled
  have busy : head ∉ pools.free := fun free => state.complete.not_again_of_free free member
  exact ⟨head, head_eq, member, own head (state.complete.again_lt member) busy⟩

theorem schedule_allowed (preprocessor : DlPreprocessor) (grant : DlGrant) :
    (DlHarqOp.schedule preprocessor (some grant)).Allowed ctrl := by
  cases preprocessor with
  | phytest => trivial
  | fr1 =>
    intro _ filled _
    obtain ⟨head, head_eq, member, named, _⟩ := state.again_own own (by omega)
    rw [head_eq, Int.toNat_natCast, named]
    exact state.not_waiting_of_again member

theorem preProcessorDl_own (preprocessor : DlPreprocessor) {grant : DlGrant} (positive : 0 < grant.rbSize) :
    (preProcessorDl preprocessor grant ctrl).1.Own pools ∧
      (∀ pid ∈ pools.waiting, (preProcessorDl preprocessor grant ctrl).1.harqProcesses pid = ctrl.harqProcesses pid) ∧
      (¬ (ctrl.lists.retrans.head < 0 ∧ ctrl.lists.available.head < 0) →
        (preProcessorDl preprocessor grant ctrl).2.rbSize ≠ 0) := by
  by_cases none : ctrl.lists.retrans.head < 0
  · by_cases busy : ctrl.lists.available.head < 0
    · simp only [preProcessorDl, if_pos none, if_pos busy]
      exact ⟨own, by simp, fun present => absurd ⟨none, busy⟩ present⟩
    · simp only [preProcessorDl, if_pos none, if_neg busy]
      exact ⟨own, by simp, fun _ => ne_of_gt positive⟩
  · cases preprocessor with
    | phytest =>
      simp only [preProcessorDl, if_neg none]
      exact ⟨own, by simp, fun _ => ne_of_gt positive⟩
    | fr1 =>
      obtain ⟨head, head_eq, member, named, allocated⟩ := state.again_own own none
      simp only [preProcessorDl, if_neg none]
      rw [head_eq, Int.toNat_natCast]
      have room : (retransmission ctrl grant head).rbSize ≠ 0 := by
        unfold retransmission
        split
        · exact ne_of_gt positive
        · exact allocated
      refine ⟨?_, ?_, fun _ => room⟩
      · intro pid inside busy
        by_cases same : pid = head
        · subst same
          simp only [DlHarqCtrl.setPdsch, update_self]
          exact ⟨named, room⟩
        · simp only [DlHarqCtrl.setPdsch, update_of_ne same]
          exact own pid inside busy
      · intro pid waits
        have different : pid ≠ head := by
          rintro rfl
          exact state.complete.not_again_of_waiting waits member
        simp [DlHarqCtrl.setPdsch, update_of_ne different]

theorem schedule_joins {preprocessor : DlPreprocessor} {grant : DlGrant} (positive : 0 < grant.rbSize)
    (served : ¬ (preprocessor = .fr1 ∧ ctrl.msg4Acked = false))
    (present : ¬ (ctrl.lists.retrans.head < 0 ∧ ctrl.lists.available.head < 0)) :
    ∃ next pools' pid, nrScheduleUeSpec harqRoundMax (preProcessorDl preprocessor grant ctrl).1
          (preProcessorDl preprocessor grant ctrl).2 grant.feedbackFrame grant.feedbackSlot = .ok next ∧
        (preProcessorDl preprocessor grant ctrl).2.rbSize ≠ 0 ∧ DlHarqState harqRoundMax next pools' ∧
        next.Own pools' ∧ pools'.waiting = pools.waiting ++ [pid] ∧ pid ∉ pools.waiting ∧
        next.lists.feedback.tail = pid ∧ (next.harqProcesses pid).feedbackFrame = grant.feedbackFrame ∧
        (next.harqProcesses pid).feedbackSlot = grant.feedbackSlot ∧
        ∀ other ∈ pools.waiting, next.harqProcesses other = ctrl.harqProcesses other := by
  obtain ⟨prepared, sends⟩ :=
    preProcessorDl_state state preprocessor grant served (schedule_allowed state own preprocessor grant)
  obtain ⟨prepared_own, waiting_same, allocates⟩ := preProcessorDl_own state own preprocessor positive
  have allocated := allocates present
  obtain ⟨pid, taken, after, sent⟩ := sends allocated
  obtain ⟨next, scheduled, kept, joined⟩ :=
    @nrScheduleUeSpec_state _ _ _ _ prepared _ grant.feedbackFrame _ _ _ allocated sent
  have fresh : pid ∉ pools.waiting := by
    intro member
    have waits := (prepared.waiting pid).mpr member
    cases sent.idle.symm.trans waits
  refine ⟨next, after, pid, scheduled, allocated, kept, ?_, sent.waiting_eq, fresh, joined.tail,
    joined.feedbackFrame, joined.feedbackSlot, ?_⟩
  · have size_eq := joined.size
    intro other inside busy
    by_cases same : other = pid
    · subst same
      rcases joined.stored with fresh | ⟨again, same⟩
      · rw [fresh]
        exact ⟨rfl, allocated⟩
      · rw [same]
        have inside' : other < (preProcessorDl preprocessor grant ctrl).1.size := by omega
        exact prepared_own other inside' (fun free => again (prepared.free_round other free))
    · rw [joined.others other same]
      apply prepared_own other (by omega)
      intro free
      rcases kept.complete.mem_cases inside with still | waits | again
      · exact busy still
      · rw [sent.waiting_eq] at waits
        rcases mem_append.mp waits with before | only
        · exact prepared.complete.not_waiting_of_free free before
        · exact same (mem_singleton.mp only)
      · exact prepared.complete.not_again_of_free free (sent.again_sub again)
  · intro other member
    rw [joined.others other (ne_of_mem_of_not_mem member fresh)]
    exact waiting_same other member

end

end Sending

structure Matched (grid : SlotGrid) (harqRoundMax : Nat) (s : FeedbackState) (pools : Pools) (count : Nat → Nat) :
    Prop where
  harq : DlHarqState harqRoundMax s.ctrl pools
  own : s.ctrl.Own pools
  expects : ∀ pid ∈ pools.waiting,
    (s.ctrl.harqProcesses pid).feedbackFrame = grid.frameOf (s.counted pid).1 ∧
      (s.ctrl.harqProcesses pid).feedbackSlot = grid.slotOf (s.counted pid).1
  ranked : Ranked s.counted s.indicated count pools.waiting
  counts : ∀ time, s.pucch.now ≤ time → count time = acksAt s.pucch.log time
  passed : s.indicated ≤ s.pucch.now
  paired : s.Paired

namespace Matched

variable {grid : SlotGrid} {harqRoundMax : Nat} {s : FeedbackState} {pools : Pools} {count : Nat → Nat}

section

variable (matched : Matched grid harqRoundMax s pools count)

include matched

variable {pucch : PucchState} {next : DlHarqCtrl} {pools' : Pools} {pid time bits : Nat}

theorem setPucch
    (later : s.pucch.now ≤ pucch.now) (same : ∀ time, acksAt pucch.log time = acksAt s.pucch.log time) :
    Matched grid harqRoundMax { s with pucch } pools count :=
  { matched with
    counts := fun time after => (matched.counts time (le_trans later after)).trans (same time).symm
    passed := le_trans matched.passed later }

theorem setCtrl {ctrl : DlHarqCtrl} (harq : DlHarqState harqRoundMax ctrl pools) (own : ctrl.Own pools)
    (same : ∀ pid ∈ pools.waiting, ctrl.harqProcesses pid = s.ctrl.harqProcesses pid) :
    Matched grid harqRoundMax { s with ctrl } pools count :=
  { matched with
    harq := harq
    own := own
    expects := by
      intro pid member
      simp only [same pid member]
      exact matched.expects pid member }

theorem send (harq : DlHarqState harqRoundMax next pools') (own : next.Own pools')
    (waiting : pools'.waiting = pools.waiting ++ [pid]) (fresh : pid ∉ pools.waiting)
    (frame : (next.harqProcesses pid).feedbackFrame = grid.frameOf time)
    (slot : (next.harqProcesses pid).feedbackSlot = grid.slotOf time)
    (same : ∀ other ∈ pools.waiting, next.harqProcesses other = s.ctrl.harqProcesses other)
    (now : pucch.now = s.pucch.now) (above : s.pucch.now ≤ time) (acks : ∀ other, acksAt pucch.log other =
      if time = other then acksAt s.pucch.log other + 1 else acksAt s.pucch.log other) :
    Matched grid harqRoundMax
      { s with pucch, ctrl := next, counted := update s.counted pid (time, acksAt s.pucch.log time) } pools'
      (update count time (count time + 1)) := by
  have counted : ∀ other ∈ pools.waiting,
      update s.counted pid (time, acksAt s.pucch.log time) other = s.counted other :=
    fun other member => update_of_ne (ne_of_mem_of_not_mem member fresh) _ _
  have at_time : count time = acksAt s.pucch.log time := matched.counts time above
  refine ⟨harq, own, ?_, ?_, ?_, now ▸ matched.passed, matched.paired⟩
  · rw [waiting]
    intro other member
    rcases mem_append.mp member with before | only
    · simp only [counted other before, same other before]
      exact matched.expects other before
    · rw [mem_singleton.mp only]
      simp only [update_self]
      exact ⟨frame, slot⟩
  · rw [waiting]
    apply (matched.ranked.congr counted fun _ _ => rfl).push
    rw [update_self, at_time]
  · intro other after
    rw [now] at after
    rw [acks]
    by_cases equal : time = other
    · subst equal
      rw [update_self, if_pos rfl, at_time]
    · rw [update_of_ne (Ne.symm equal), if_neg equal]
      exact matched.counts other after

theorem reset {ctrl : DlHarqCtrl}
    (harq : DlHarqState harqRoundMax ctrl pools') (free : ∀ pid < ctrl.size, pid ∈ pools'.free)
    (waiting : pools'.waiting = []) (idle : ∀ time, s.pucch.now ≤ time → acksAt s.pucch.log time = 0) :
    Matched grid harqRoundMax { s with ctrl } pools' (fun _ => 0) := by
  refine ⟨harq, fun pid inside busy => absurd (free pid inside) busy, ?_, ?_, ?_, matched.passed, matched.paired⟩
  · rw [waiting]
    simp
  · rw [waiting]
    exact fun _ _ => rfl
  · exact fun time after => (idle time after).symm

theorem report {ctrl : DlHarqCtrl} (order : s.indicated ≤ time) (over_ : time < s.pucch.now)
    (distinct : ∀ pid ∈ pools.waiting, grid.Distinct time (s.counted pid).1)
    (harq : DlHarqState harqRoundMax ctrl pools') (settled : s.ctrl.Settled ctrl pools pools')
    (waiting : pools'.waiting =
      (answer (s.ctrl.judge (grid.frameOf time) (grid.slotOf time)) bits pools.waiting).2) :
    Matched grid harqRoundMax
      (s.note time ((answer (s.ctrl.judge (grid.frameOf time) (grid.slotOf time)) bits pools.waiting).1, ctrl))
      pools' count := by
  have judged : ∀ pid ∈ pools.waiting,
      Judged (s.ctrl.judge (grid.frameOf time) (grid.slotOf time)) s.counted time pid := by
    intro pid member
    obtain ⟨frame, slot⟩ := matched.expects pid member
    obtain ⟨due, past⟩ := SlotGrid.verdict_judged (distinct pid member) frame slot
    exact ⟨due, past⟩
  obtain ⟨taken, left⟩ := matched.ranked.answered order judged bits
  refine ⟨harq, matched.own.settled settled, ?_, ?_, matched.counts, over_, ?_⟩
  · intro pid member
    simp only [FeedbackState.note, settled.same pid member]
    exact matched.expects pid (settled.waiting member)
  · rw [waiting]
    exact left
  · intro applied member
    rcases mem_append.mp member with before | now
    · exact matched.paired applied before
    · obtain ⟨pair, chosen, rfl⟩ := mem_map.mp now
      exact taken pair chosen

end

end Matched

namespace FeedbackWork

/-- PDSCHs may always be scheduled; a new configuration neither moves a pending occasion nor leaves it
beyond the lead. -/
def Allowed (grid : SlotGrid) (harqRoundMax : Nat) : List FeedbackWork → FeedbackState → Prop
  | [], _ => True
  | .pdsch alloc input :: rest, s =>
    ∀ after ∈ (grid.schedulePdsch harqRoundMax alloc input s).toOption, Allowed grid harqRoundMax rest after
  | .configure timings :: rest, s =>
    grid.Undisturbed timings s.pucch (grid.lead timings + 1) ∧
      Allowed grid harqRoundMax rest { s with pucch := grid.setSchedPucchList timings s.pucch }

instance decidableAllowed (grid : SlotGrid) (harqRoundMax : Nat) :
    ∀ work s, Decidable (Allowed grid harqRoundMax work s)
  | [], _ => .isTrue trivial
  | .pdsch alloc input :: rest, s =>
    have := decidableAllowed grid harqRoundMax rest
    inferInstanceAs (Decidable (∀ after ∈ (grid.schedulePdsch harqRoundMax alloc input s).toOption, _))
  | .configure timings :: rest, s =>
    have := decidableAllowed grid harqRoundMax rest { s with pucch := grid.setSchedPucchList timings s.pucch }
    inferInstanceAs (Decidable (_ ∧ _))

end FeedbackWork

/-- The condition on an operation: occasions are kept, the lists are reset only while no pending
occasion has acknowledgements, and a report is told apart from the feedback of every other slot that is
waited for. -/
def FeedbackOp.Allowed (grid : SlotGrid) (harqRoundMax : Nat) (s : FeedbackState) : FeedbackOp → Prop
  | .slot csi work =>
    (csi.isSome → grid.isUl (grid.slotOf (s.pucch.now + grid.lead s.pucch.timings)) = true) ∧
      ∀ pucch ∈ (grid.reportCsi csi s.pucch).toOption, FeedbackWork.Allowed grid harqRoundMax work { s with pucch }
  | .configure timings => grid.Undisturbed timings s.pucch (grid.lead timings)
  | .reset => ∀ i < s.pucch.size, (s.pucch.ring i).active = true → (s.pucch.ring i).daiC = 0
  | .uci01 time _ | .uci234 time _ _ => ∀ pid ∈ s.ctrl.lists.feedback.ids, grid.Distinct time (s.counted pid).1

instance (grid : SlotGrid) (harqRoundMax : Nat) (s : FeedbackState) (op : FeedbackOp) :
    Decidable (op.Allowed grid harqRoundMax s) :=
  match op with
  | .slot _ _ => inferInstanceAs (Decidable (_ ∧ _))
  | .configure timings => inferInstanceAs (Decidable (grid.Undisturbed timings s.pucch (grid.lead timings)))
  | .reset => inferInstanceAs (Decidable (∀ i < s.pucch.size, (s.pucch.ring i).active = true → _))
  | .uci01 time _ | .uci234 time _ _ =>
    inferInstanceAs (Decidable (∀ pid ∈ s.ctrl.lists.feedback.ids, grid.Distinct time (s.counted pid).1))

namespace SlotGrid

variable {grid : SlotGrid} {harqRoundMax : Nat} {s : FeedbackState}

def Waiting (grid : SlotGrid) (harqRoundMax : Nat) (s : FeedbackState) : Prop :=
  ∃ pools count, Matched grid harqRoundMax s pools count

variable {alloc : PdschAlloc} {input : AckInput} {after next : FeedbackState} {work : List FeedbackWork}
  {pucch : PucchState} {time : Nat} {setsMsg4Acked : Bool} {bits : List Bool}
  {answered : List Nat × DlHarqCtrl} {op : FeedbackOp}

theorem Waiting.pdsch (waiting : grid.Waiting harqRoundMax s) (inSlot : grid.InSlot s.pucch) (regular : grid.Regular)
    (scheduled : grid.schedulePdsch harqRoundMax alloc input s = .ok after) :
    grid.Waiting harqRoundMax after ∧ grid.InSlot after.pucch := by
  obtain ⟨pools, count, matched⟩ := waiting
  unfold schedulePdsch at scheduled
  split at scheduled
  · cases scheduled
    exact ⟨⟨pools, count, matched⟩, inSlot⟩
  rename_i served
  split at scheduled
  · cases scheduled
    exact ⟨⟨pools, count, matched⟩, inSlot⟩
  rename_i present
  rcases inSlot.acknack_cases regular input with
    none | ⟨pucch, index, time, found, kept, now, above, frame, slot, here, rank, acks⟩
  · rw [none] at scheduled
    cases scheduled
    have positive : 0 < (alloc.grant {}).rbSize := alloc.positive
    obtain ⟨prepared, _⟩ := preProcessorDl_state matched.harq alloc.preprocessor (alloc.grant {}) served
      (schedule_allowed matched.harq matched.own _ _)
    obtain ⟨own, same, _⟩ := preProcessorDl_own matched.harq matched.own alloc.preprocessor positive
    exact ⟨⟨pools, count, matched.setCtrl prepared own same⟩, inSlot⟩
  · rw [found] at scheduled
    have positive : 0 < (alloc.grant (pucch.ring index)).rbSize := alloc.positive
    obtain ⟨next, pools', pid, sent, allocated, harq, own, joined, fresh, tail, toFrame, toSlot, same⟩ :=
      schedule_joins matched.harq matched.own positive served present
    have sent' : nrScheduleUeSpec harqRoundMax
        (preProcessorDl alloc.preprocessor (alloc.grant (pucch.ring index)) s.ctrl).1
        (preProcessorDl alloc.preprocessor (alloc.grant (pucch.ring index)) s.ctrl).2
        (pucch.ring index).frame (pucch.ring index).ulSlot = .ok next := sent
    simp only [sent', if_neg allocated] at scheduled
    cases scheduled
    refine ⟨⟨pools', update count time (count time + 1), ?_⟩, kept⟩
    have result := matched.send harq own joined fresh (toFrame.trans frame) (toSlot.trans slot) same now above acks
    simp only [SlotGrid.count, tail, here, rank]
    exact result

theorem Waiting.works (regular : grid.Regular)
    (waiting : grid.Waiting harqRoundMax s) (inSlot : grid.InSlot s.pucch)
    (allowed : FeedbackWork.Allowed grid harqRoundMax work s)
    (worked : grid.feedbackWorks harqRoundMax work s = .ok after) :
    grid.Waiting harqRoundMax after ∧ grid.InSlot after.pucch := by
  induction work generalizing s with
  | nil =>
    cases worked
    exact ⟨waiting, inSlot⟩
  | cons item rest ih =>
    cases item with
    | pdsch alloc input =>
      simp only [feedbackWorks, feedbackWork] at worked
      cases scheduled : grid.schedulePdsch harqRoundMax alloc input s with
      | error assertion =>
        rw [scheduled] at worked
        cases worked
      | ok middle =>
        rw [scheduled] at worked
        obtain ⟨waiting', inSlot'⟩ := waiting.pdsch inSlot regular scheduled
        exact ih waiting' inSlot' (allowed middle (by rw [scheduled]; rfl)) worked
    | configure timings =>
      obtain ⟨pools, count, matched⟩ := waiting
      obtain ⟨now, _, log⟩ := @setSchedPucchList_same grid timings s.pucch
      refine ih ⟨pools, count, ?_⟩ (inSlot.configure regular allowed.1) allowed.2 worked
      exact matched.setPucch (le_of_eq now.symm) fun time => by rw [log]

theorem Between.acks_zero (between : grid.Between pucch) (regular : grid.Regular)
    (idle : ∀ i < pucch.size, (pucch.ring i).active = true → (pucch.ring i).daiC = 0)
    (above : pucch.now ≤ time) : acksAt pucch.log time = 0 := by
  obtain ⟨calendar, booked⟩ := between
  have entry := booked.entries time above
  by_cases active : (calendar time).active = true
  · obtain ⟨_, _, _, bits⟩ := entry.active active
    have filled : calendar time ≠ {} := by
      intro blank
      rw [blank] at active
      cases active
    obtain ⟨selected, _, below⟩ := booked.holds.inside time filled
    have found := booked.holds.at_place time selected above below
    have none := idle _ (place_lt booked.capacity regular selected)
    rw [found] at none
    rw [acksAt, ← bits]
    exact none active
  · rw [acksAt, (entry.inactive active).1]
    rfl

theorem Waiting.reset (waiting : grid.Waiting harqRoundMax s) (between : grid.Between s.pucch) (regular : grid.Regular)
    (idle : ∀ i < s.pucch.size, (s.pucch.ring i).active = true → (s.pucch.ring i).daiC = 0) {ctrl : DlHarqCtrl}
    (done : resetDlHarqList s.ctrl = .ok ctrl) : grid.Waiting harqRoundMax { s with ctrl } := by
  obtain ⟨pools, count, matched⟩ := waiting
  obtain ⟨after, emptied, harq⟩ := resetDlHarqList_state matched.harq
  cases emptied.symm.trans done
  refine ⟨pools.reclaim, fun _ => 0,
    matched.reset harq ?_ rfl fun time above => between.acks_zero regular idle above⟩
  intro pid inside
  rcases harq.complete.mem_cases inside with free | waits | again
  · exact free
  · cases waits
  · cases again

section

variable (waiting : grid.Waiting harqRoundMax s) (order : ¬ (time < s.indicated ∨ s.pucch.now ≤ time))

include waiting order

theorem Waiting.report (distinct : ∀ pid ∈ s.ctrl.lists.feedback.ids, grid.Distinct time (s.counted pid).1)
    (looped : harqBits harqRoundMax (grid.frameOf time) (grid.slotOf time) setsMsg4Acked bits s.ctrl = .ok answered) :
    grid.Waiting harqRoundMax (s.note time answered) := by
  obtain ⟨pools, count, matched⟩ := waiting
  obtain ⟨after, pools', applied, harq, settled, left⟩ :=
    @harqBits_state _ _ _ (grid.frameOf time) (grid.slotOf time) setsMsg4Acked bits matched.harq
  cases looped.symm.trans applied
  rw [matched.harq.hold.feedback.ids_eq] at distinct
  exact ⟨pools', count, matched.report (by omega) (by omega) distinct harq settled left⟩

theorem Waiting.ignore : grid.Waiting harqRoundMax (s.note time ([], s.ctrl)) := by
  obtain ⟨pools, count, matched⟩ := waiting
  refine ⟨pools, count, { matched with ranked := ?_, passed := ?_, paired := ?_ }⟩
  · intro other after
    exact matched.ranked other (by change time + 1 ≤ other at after; omega)
  · change time + 1 ≤ s.pucch.now
    omega
  · intro applied member
    exact matched.paired applied (by simpa [FeedbackState.note] using member)

end

theorem waiting_step (regular : grid.Regular) (waiting : grid.Waiting harqRoundMax s)
    (between : grid.Between s.pucch) (allowed : op.Allowed grid harqRoundMax s)
    (stepped : grid.feedbackRun harqRoundMax s op = some next) :
    grid.Waiting harqRoundMax next ∧ grid.Between next.pucch := by
  cases op with
  | slot csi work =>
    obtain ⟨uplink, legal⟩ := allowed
    obtain ⟨pucch, reported, inSlot⟩ := between.reportCsi regular csi uplink
    simp only [feedbackRun, reported, Except.toOption, Option.bind_some] at stepped
    cases worked : grid.feedbackWorks harqRoundMax work { s with pucch } with
    | error assertion =>
      rw [worked] at stepped
      cases stepped
    | ok after =>
      rw [worked] at stepped
      cases stepped
      obtain ⟨pools, count, matched⟩ := waiting
      obtain ⟨now, _, acks⟩ := reportCsi_acks reported
      have matched' : grid.Waiting harqRoundMax { s with pucch } :=
        ⟨pools, count, matched.setPucch (le_of_eq now.symm) acks⟩
      obtain ⟨⟨pools', count', done⟩, inSlot'⟩ :=
        matched'.works regular inSlot (legal pucch (by rw [reported]; rfl)) worked
      obtain ⟨over_, same⟩ := @nrSchedulePucch_acks grid after.pucch
      exact ⟨⟨pools', count', done.setPucch (by omega) same⟩, inSlot'.pucch regular⟩
  | configure timings =>
    cases stepped
    obtain ⟨pools, count, matched⟩ := waiting
    obtain ⟨now, _, log⟩ := @setSchedPucchList_same grid timings s.pucch
    refine ⟨⟨pools, count, matched.setPucch (le_of_eq now.symm) fun time => by rw [log]⟩, ?_⟩
    exact between.configure regular allowed
  | reset =>
    simp only [feedbackRun, Option.map_eq_some_iff] at stepped
    obtain ⟨ctrl, done, rfl⟩ := stepped
    cases emptied : resetDlHarqList s.ctrl with
    | error assertion =>
      rw [emptied] at done
      cases done
    | ok after =>
      rw [emptied] at done
      cases done
      exact ⟨waiting.reset between regular allowed emptied, between⟩
  | uci01 time harq =>
    simp only [feedbackRun] at stepped
    split_ifs at stepped with order
    simp only [handleNrUciPucch01] at stepped
    cases looped : harqBits harqRoundMax (grid.frameOf time) (grid.slotOf time) true harq.bits s.ctrl with
    | error assertion =>
      rw [looped] at stepped
      cases stepped
    | ok answered =>
      rw [looped] at stepped
      cases stepped
      exact ⟨waiting.report order allowed looped, between⟩
  | uci234 time csiMeasConfig harq =>
    simp only [feedbackRun] at stepped
    split_ifs at stepped with order
    cases csiMeasConfig with
    | false =>
      cases stepped
      exact ⟨waiting.ignore order, between⟩
    | true =>
      simp only [handleNrUciPucch234] at stepped
      cases looped : harqBits harqRoundMax (grid.frameOf time) (grid.slotOf time) false harq.bits s.ctrl with
      | error assertion =>
        rw [looped] at stepped
        cases stepped
      | ok answered =>
        rw [looped] at stepped
        cases stepped
        exact ⟨waiting.report order allowed looped, between⟩

/-- Without flexible slots, where occasions are kept, the lists are not reset under a pending
acknowledgement and reports are told apart, each bit is applied to the process whose DCI counted as that
acknowledgement. -/
theorem harq_feedback_paired (grid : SlotGrid) (regular : grid.Regular) (harqRoundMax : Nat) (positive : 0 < harqRoundMax)
    (timings : Option DlDataToUlAck) (now : Nat) (configured : Option NrofHarqProcesses) (msg4Acked : Bool)
    (ops : List FeedbackOp)
    (allowed : Steps (grid.feedbackRun harqRoundMax) (fun s op => op.Allowed grid harqRoundMax s)
      (grid.newFeedback timings now configured msg4Acked) ops) :
    Along (grid.feedbackRun harqRoundMax) FeedbackState.Paired (grid.newFeedback timings now configured msg4Acked) ops := by
  have start : grid.Waiting harqRoundMax (grid.newFeedback timings now configured msg4Acked) := by
    have harq := dlHarqState_new positive configured msg4Acked
    refine ⟨_, fun _ => 0, harq, ?_, by simp, fun _ _ => rfl, fun _ _ => rfl, le_refl now, ?_⟩
    rotate_left
    · intro applied member
      cases member
    intro pid inside busy
    rcases harq.complete.mem_cases inside with free | waits | again
    · exact absurd free busy
    · cases waits
    · cases again
  have kept := @invariant_along _ _ (grid.feedbackRun harqRoundMax)
    (fun s => grid.Waiting harqRoundMax s ∧ grid.Between s.pucch) _
    (fun s op next invariant legal stepped => waiting_step regular invariant.1 invariant.2 legal stepped)
    _ ops ⟨start, between_new timings now⟩ allowed
  intro front inside middle reached
  obtain ⟨⟨pools, count, matched⟩, _⟩ := kept front inside middle reached
  exact matched.paired

end SlotGrid

def plainPdsch : FeedbackWork :=
  .pdsch ⟨.fr1, 10, false, by decide⟩ ⟨false, 0, 2, fun _ _ => true, fun _ _ => true⟩

def idleFeedback (count : Nat) : List FeedbackOp := replicate count (.slot none [])

/-- Of two PDSCHs reported on in slot 7 the second one is sent again and acknowledged in slot 17, and
the lists are reset afterwards. -/
theorem harq_feedback_paired_attach :
    mixedGrid.Regular ∧ 0 < 4 ∧
      Along (mixedGrid.feedbackRun 4) FeedbackState.Paired (mixedGrid.newFeedback none 0 none true)
        ([.slot none [plainPdsch], .slot none [plainPdsch]] ++ idleFeedback 6 ++
          [.uci01 7 ⟨[0, 1], 0⟩] ++ idleFeedback 2 ++ [.slot none [plainPdsch]] ++ idleFeedback 7 ++
          [.uci234 17 true ⟨1, [1], 0⟩, .reset]) :=
  ⟨by decide, by decide, SlotGrid.harq_feedback_paired mixedGrid (by decide) 4 (by decide) none 0 none true _
    (steps_of_check (by decide +kernel))⟩

/-- The lists are reset between two PDSCHs that are acknowledged in slot 7: the first bit of the
report goes to the process of the second one. -/
theorem harq_feedback_reset_under_occasion :
    (run (mixedGrid.feedbackRun 4) (mixedGrid.newFeedback none 0 none true)
        ([.slot none [plainPdsch], .reset, .slot none [plainPdsch]] ++ idleFeedback 6 ++ [.uci01 7 ⟨[0, 0], 0⟩])).map
      (fun s => (s.pucch.log, s.applied)) =
      some ([.booked 7 1 0, .booked 7 1 0, .handed 7 2 0], [⟨7, 0, (7, 1)⟩]) := by
  decide

end OranSlice.Mac
