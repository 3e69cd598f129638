import OranSlice.Core.Calendar
import OranSlice.Core.Runs
import OranSlice.Mac.Pucch

/-! No PUCCH occasion is lost while the list keeps its places and its reach. -/

namespace OranSlice.Mac

open Function Periodic Calendar Runs List

theorem ceilLog2_le_iff {x k : Nat} : ceilLog2 x ≤ k ↔ x ≤ 2 ^ k := by
  have positive := Nat.two_pow_pos k
  unfold ceilLog2
  split
  · constructor
    · omega
    · intro _
      exact Nat.zero_le k
  · rw [Nat.succ_le_iff, Nat.log2_lt (by omega)]
    omega

theorem setMaxFbTime_bounds (timings : Option DlDataToUlAck) :
    8 ≤ setMaxFbTime timings ∧ setMaxFbTime timings ≤ 15 ∧
      ∀ times, timings = some times → ∀ k ∈ times.list, k ≤ setMaxFbTime timings := by
  have folded : ∀ (list : List Nat) (least : Nat), (∀ k ∈ list, k ≤ 15) → least ≤ 15 →
      least ≤ list.foldl max least ∧ list.foldl max least ≤ 15 ∧
        ∀ k ∈ list, k ≤ list.foldl max least := by
    intro list
    induction list with
    | nil =>
      intro least _ small
      exact ⟨le_refl least, small, by simp⟩
    | cons k rest ih =>
      intro least bound small
      obtain ⟨head, tail⟩ := forall_mem_cons.mp bound
      obtain ⟨more, most, all⟩ := ih (max least k) tail (Nat.max_le.mpr ⟨small, head⟩)
      refine ⟨le_trans (le_max_left _ _) more, most, ?_⟩
      exact forall_mem_cons.mpr ⟨le_trans (le_max_right _ _) more, all⟩
  cases timings with
  | none => exact ⟨le_refl 8, by decide, by simp⟩
  | some times =>
    obtain ⟨least, most, all⟩ := folded times.list 8 times.bound (by decide)
    refine ⟨least, most, ?_⟩
    rintro other same
    cases same
    exact all

namespace SlotGrid

variable {grid : SlotGrid}

variable (timings : Option DlDataToUlAck)

theorem lead_le : grid.lead timings ≤ 15 + 1023 * 2 ^ grid.scs := by
  have few := (setMaxFbTime_bounds timings).2.1
  have offset : grid.koffset ≤ 1023 * 2 ^ grid.scs := Nat.mul_le_mul_right _ grid.koffset_le
  unfold lead
  omega

theorem lead_lt : grid.lead timings + 1 < maxFrameNumber * grid.slotsFrame := by
  have bound := @lead_le grid timings
  have positive := Nat.two_pow_pos grid.scs
  have cycle : maxFrameNumber * grid.slotsFrame = 10240 * 2 ^ grid.scs := by
    rw [slotsFrame, nrSlotsPerFrame, ← mul_assoc]
    rfl
  omega

private def cycleFits (scs period : Nat) : Bool :=
  period == 0 || maxFrameNumber * (nrSlotsPerFrame scs / period) %
      2 ^ ceilLog2 ((15 + 1023 * 2 ^ scs) / period + 1) == 0

private theorem cycles_fit (periodicity : TddPeriodicity) {scs : Nat} (small : scs ≤ 4) :
    cycleFits scs (nrSlotsPerFrame scs / getNbPeriodsPerFrame periodicity) = true := by
  have all : ∀ scs ≤ 4,
      cycleFits scs (nrSlotsPerFrame scs / getNbPeriodsPerFrame periodicity) = true := by
    cases periodicity <;> decide
  exact all scs small

private theorem cycle_fits {scs : Nat} (small : scs ≤ 4) : cycleFits scs (nrSlotsPerFrame scs) = true := by
  have all : ∀ scs ≤ 4, cycleFits scs (nrSlotsPerFrame scs) = true := by decide
  exact all scs small

theorem periods_dvd :
    2 ^ ceilLog2 (grid.lead timings / grid.slotsPeriod + 1) ∣
      maxFrameNumber * (grid.slotsFrame / grid.slotsPeriod) := by
  have fits : cycleFits grid.scs grid.slotsPeriod = true := by
    unfold slotsPeriod
    split
    · exact cycle_fits grid.scs_le
    · exact cycles_fit _ grid.scs_le
  simp only [cycleFits, Bool.or_eq_true, beq_iff_eq, ne_of_gt slotsPeriod_pos, false_or] at fits
  refine dvd_trans (Nat.pow_dvd_pow 2 (ceilLog2_le_iff.mpr ?_)) (Nat.dvd_of_mod_eq_zero fits)
  have more := Nat.div_le_div_right (c := grid.slotsPeriod) (@lead_le grid timings)
  have enough := ceilLog2_le_iff.mp (le_refl (ceilLog2 ((15 + 1023 * 2 ^ grid.scs) / grid.slotsPeriod + 1)))
  omega

def place (grid : SlotGrid) (size time : Nat) : Nat :=
  grid.getPucchIndex (grid.frameOf time) (grid.slotOf time) size

theorem getPucchIndex_eq (size time : Nat) :
    grid.getPucchIndex (grid.frameOf time) (grid.slotOf time) size = grid.place size time := rfl

def Capacity (grid : SlotGrid) (size lead : Nat) : Prop :=
  ∃ k, size = grid.ulSlotsPeriod * 2 ^ k ∧ lead / grid.slotsPeriod + 1 ≤ 2 ^ k ∧
    2 ^ k ∣ maxFrameNumber * (grid.slotsFrame / grid.slotsPeriod)

theorem capacity_listSize : grid.Capacity (grid.listSize timings) (grid.lead timings) :=
  ⟨_, rfl, ceilLog2_le_iff.mp (le_refl _), periods_dvd timings⟩

variable {size lead : Nat}

section

variable (capacity : grid.Capacity size lead)

include capacity

theorem Capacity.longer {timings : Option DlDataToUlAck} (large : grid.listSize timings ≤ size) :
    grid.Capacity size (grid.lead timings) := by
  obtain ⟨k, sized, _, divides⟩ := capacity
  obtain ⟨k', sized', enough, divides'⟩ := @capacity_listSize grid timings
  rcases Nat.eq_zero_or_pos grid.ulSlotsPeriod with none | some
  · refine ⟨k', ?_, enough, divides'⟩
    rw [sized, none, zero_mul, zero_mul]
  · rw [sized, sized'] at large
    exact ⟨k, sized, le_trans enough (Nat.le_of_mul_le_mul_left large some), divides⟩

theorem place_eq (time : Nat) : grid.place size time = grid.pattern.rank time % size := by
  obtain ⟨k, sized, _, divides⟩ := capacity
  have whole : grid.slotsFrame / grid.slotsPeriod * grid.slotsPeriod = grid.slotsFrame :=
    Nat.div_mul_cancel slotsPeriod_dvd
  have cycle : maxFrameNumber * (grid.slotsFrame / grid.slotsPeriod) * grid.pattern.period =
      maxFrameNumber * grid.slotsFrame := by
    rw [mul_assoc]
    exact congrArg (maxFrameNumber * ·) whole
  have tables : size ∣ maxFrameNumber * (grid.slotsFrame / grid.slotsPeriod) * grid.pattern.count := by
    rw [sized, mul_comm]
    exact Nat.mul_dvd_mul_right divides _
  rw [← Pattern.place_wrap tables time, cycle, ← frameOf_mul_add_slotOf, place]
  generalize grid.frameOf time = frame
  generalize grid.slotOf time = slot
  have periods : (frame * grid.slotsFrame + slot) / grid.slotsPeriod =
      frame * (grid.slotsFrame / grid.slotsPeriod) + slot / grid.slotsPeriod := by
    calc (frame * grid.slotsFrame + slot) / grid.slotsPeriod
        = (grid.slotsPeriod * (frame * (grid.slotsFrame / grid.slotsPeriod)) + slot) /
            grid.slotsPeriod := by rw [mul_left_comm, mul_comm grid.slotsPeriod, whole]
      _ = frame * (grid.slotsFrame / grid.slotsPeriod) + slot / grid.slotsPeriod :=
          Nat.mul_add_div slotsPeriod_pos _ _
  have offset : (frame * grid.slotsFrame + slot) % grid.slotsPeriod = slot % grid.slotsPeriod := by
    rw [← whole, ← mul_assoc, Nat.mul_add_mod_self_right]
  change _ = ((frame * grid.slotsFrame + slot) / grid.slotsPeriod * grid.ulSlotsPeriod +
    ((frame * grid.slotsFrame + slot) % grid.slotsPeriod - grid.firstUlSlotPeriod)) % size
  rw [periods, offset, add_mul, mul_assoc]
  rfl

theorem Capacity.apart (regular : grid.Regular)
    (now : Nat) : Apart grid.pattern.Selected (grid.place size) now (now + lead + 1) := by
  intro a b selected also aboveA belowA aboveB belowB same
  rw [place_eq capacity, place_eq capacity] at same
  obtain ⟨k, sized, enough, _⟩ := capacity
  have large : (lead / grid.pattern.period + 1) * grid.pattern.count ≤ size := by
    rw [sized, mul_comm]
    exact Nat.mul_le_mul_left _ enough
  exact Pattern.place_injective regular.pattern large selected also (by omega) (by omega) same

theorem place_lt (regular : grid.Regular)
    {time : Nat} (selected : grid.pattern.Selected time) : grid.place size time < size := by
  obtain ⟨k, sized, _⟩ := capacity
  have some : 0 < grid.ulSlotsPeriod := by
    have offset := Pattern.offset_lt regular.pattern selected
    exact lt_of_le_of_lt (Nat.zero_le _) offset
  apply Nat.mod_lt
  rw [sized]
  exact Nat.mul_pos some (Nat.two_pow_pos k)

end

def slotsTo (grid : SlotGrid) (now : Nat) (pucch : SchedPucch) : Nat :=
  (pucch.frame * grid.slotsFrame + pucch.ulSlot +
    (maxFrameNumber * grid.slotsFrame - now % (maxFrameNumber * grid.slotsFrame))) %
      (maxFrameNumber * grid.slotsFrame)

theorem slotsTo_eq {now time : Nat} {pucch : SchedPucch} (frame : pucch.frame = grid.frameOf time)
    (slot : pucch.ulSlot = grid.slotOf time) (above : now ≤ time)
    (near : time < now + maxFrameNumber * grid.slotsFrame) : grid.slotsTo now pucch = time - now := by
  have positive : 0 < maxFrameNumber * grid.slotsFrame := Nat.mul_pos (by decide) slotsFrame_pos
  rw [slotsTo, frame, slot, frameOf_mul_add_slotOf]
  generalize maxFrameNumber * grid.slotsFrame = cycle at near positive
  have split := Nat.div_add_mod now cycle
  have rest := Nat.mod_lt now positive
  have shifted : time + (cycle - now % cycle) = (time - now) + cycle * (now / cycle + 1) := by
    rw [mul_add]
    omega
  rw [Nat.mod_add_mod, shifted, Nat.add_mul_mod_self_left, Nat.mod_eq_of_lt (by omega)]

end SlotGrid

@[simp] theorem dueAt_booked (log : List PucchEvent) (booked acks csi time : Nat) :
    dueAt (log ++ [.booked booked acks csi]) time =
      if booked = time then dueAt log time ++ [(acks, csi)] else dueAt log time := by
  unfold dueAt
  by_cases same : booked = time
  · simp [same]
  · simp [same]

@[simp] theorem dueAt_handed (log : List PucchEvent) (handed acks csi time : Nat) :
    dueAt (log ++ [.handed handed acks csi]) time = dueAt log time := by
  simp [dueAt]

@[simp] theorem handedAt_booked (log : List PucchEvent) (booked acks csi time : Nat) :
    handedAt (log ++ [.booked booked acks csi]) time = handedAt log time := by
  simp [handedAt]

@[simp] theorem handedAt_handed (log : List PucchEvent) (handed acks csi time : Nat) :
    handedAt (log ++ [.handed handed acks csi]) time =
      if handed = time then handedAt log time ++ [(acks, csi)] else handedAt log time := by
  unfold handedAt
  by_cases same : handed = time
  · simp [same]
  · simp [same]

theorem totalBits_append (due : List (Nat × Nat)) (acks csi : Nat) :
    totalBits (due ++ [(acks, csi)]) = ((totalBits due).1 + acks, (totalBits due).2 + csi) := by
  simp [totalBits]

namespace SlotGrid

def Entry (grid : SlotGrid) (time : Nat) (due : List (Nat × Nat)) (pucch : SchedPucch) : Prop :=
  if due = [] then pucch = {}
  else
    pucch.active = true ∧ pucch.frame = grid.frameOf time ∧ pucch.ulSlot = grid.slotOf time ∧
      (pucch.daiC, pucch.csiBits) = totalBits due

structure Booked (grid : SlotGrid) (s : PucchState) (stop : Nat) (calendar : Nat → SchedPucch) : Prop where
  capacity : grid.Capacity s.size (grid.lead s.timings)
  window : stop ≤ s.now + grid.lead s.timings + 1
  holds : Holds {} grid.pattern.Selected (grid.place s.size) s.now stop s.ring calendar
  entries : ∀ time, s.now ≤ time → grid.Entry time (dueAt s.log time) (calendar time)
  kept : NoneLost s

variable {grid : SlotGrid} {s : PucchState} {stop : Nat} {calendar : Nat → SchedPucch}

section

variable {time : Nat} {due : List (Nat × Nat)} {pucch : SchedPucch} (entry : grid.Entry time due pucch)

include entry

theorem Entry.active (active : pucch.active = true) :
    due ≠ [] ∧ pucch.frame = grid.frameOf time ∧ pucch.ulSlot = grid.slotOf time ∧
      (pucch.daiC, pucch.csiBits) = totalBits due := by
  unfold Entry at entry
  split_ifs at entry with some
  · rw [entry] at active
    cases active
  · exact ⟨some, entry.2⟩

theorem Entry.inactive (idle : ¬ pucch.active = true) : due = [] ∧ pucch = {} := by
  unfold Entry at entry
  split_ifs at entry with none
  · exact ⟨none, entry⟩
  · exact absurd entry.1 idle

end

theorem Entry.due_of_blank {time : Nat} {due : List (Nat × Nat)} (entry : grid.Entry time due {}) : due = [] :=
  (entry.inactive (by decide)).1

section

variable (booked : grid.Booked s stop calendar) (regular : grid.Regular)

include booked regular

theorem Booked.apart : Apart grid.pattern.Selected (grid.place s.size) s.now stop :=
  (booked.capacity.apart regular s.now).mono (le_refl _) booked.window

theorem Booked.extend {last : Nat} (order : stop ≤ last) (window : last ≤ s.now + grid.lead s.timings + 1) :
    grid.Booked s last calendar :=
  { booked with
    window := window
    holds := booked.holds.extend
      ((booked.capacity.apart regular s.now).mono (le_refl _) window) order }

theorem Booked.book {time : Nat} (selected : grid.pattern.Selected time) (above : s.now ≤ time) (below : time < stop)
    {pucch : SchedPucch} {acks csi : Nat} (entry : grid.Entry time (dueAt s.log time ++ [(acks, csi)]) pucch) :
    grid.Booked (s.book (grid.place s.size time) pucch time acks csi) stop
      (update calendar time pucch) := by
  refine ⟨booked.capacity, booked.window,
    booked.holds.write (booked.apart regular) selected above below pucch, ?_, ?_, ?_, ?_⟩
  · intro other later
    rw [PucchState.book, dueAt_booked]
    by_cases same : time = other
    · subst same
      rw [if_pos rfl, update_self]
      exact entry
    · rw [if_neg same, update_of_ne (Ne.symm same)]
      exact booked.entries other later
  · have before := booked.kept.matching
    simp [PucchState.book, before]
  · intro other early
    have different : time ≠ other := by
      have now : other < s.now := early
      omega
    rw [PucchState.book, dueAt_booked, handedAt_booked, if_neg different]
    exact booked.kept.handed other early
  · intro other late
    rw [PucchState.book, handedAt_booked]
    exact booked.kept.later other late

end

theorem acknackSearch_cases (input : AckInput)
    (booked : grid.Booked s (s.now + grid.lead s.timings + 1) calendar) (candidates : List (Nat × Nat))
    (small : ∀ candidate ∈ candidates, candidate.1 ≤ setMaxFbTime s.timings) :
    grid.acknackSearch input candidates s = (s, none) ∨
      ∃ time pucch, grid.pattern.Selected time ∧ s.now ≤ time ∧ time < s.now + grid.lead s.timings + 1 ∧
        grid.Entry time (dueAt s.log time ++ [(1, 0)]) pucch ∧
        grid.acknackSearch input candidates s =
          (s.book (grid.place s.size time) pucch time 1 0, some (grid.place s.size time)) := by
  induction candidates with
  | nil => exact .inl rfl
  | cons candidate rest ih =>
    obtain ⟨k, indicator⟩ := candidate
    have near : k ≤ setMaxFbTime s.timings := small (k, indicator) mem_cons_self
    have later := ih (forall_mem_cons.mp small).2
    have below : s.now + (k + grid.koffset) < s.now + grid.lead s.timings + 1 := by
      unfold lead
      omega
    simp only [acknackSearch, slotOf_add, frameOf_add, getPucchIndex_eq]
    split
    · exact later
    split
    · exact later
    rename_i uplink
    generalize target : s.now + (k + grid.koffset) = time at below uplink ⊢
    have selected : grid.pattern.Selected time := (isUl_iff time).mp (by simpa using uplink)
    have above : s.now ≤ time := by omega
    have found : s.ring (grid.place s.size time) = calendar time :=
      booked.holds.at_place time selected above below
    have entry := booked.entries time above
    rw [found]
    split
    · rename_i here
      obtain ⟨some, frame, slot, bits⟩ := entry.active here.1
      split
      · refine .inr ⟨time, _, selected, above, below, ?_, rfl⟩
        unfold Entry
        rw [if_neg (by simp), totalBits_append, ← bits]
        exact ⟨here.1, frame, slot, rfl⟩
      · exact later
    · rename_i elsewhere
      split
      · rename_i active
        -- the element is that of this very slot
        obtain ⟨_, frame, slot, _⟩ := entry.active active
        exact absurd ⟨active, frame, slot⟩ elsewhere
      · rename_i idle
        obtain ⟨none, blank⟩ := entry.inactive idle
        split
        · refine .inr ⟨time, _, selected, above, below, ?_, rfl⟩
          rw [none, blank]
          exact ⟨rfl, rfl, rfl, rfl⟩
        · exact later

theorem timings_le (input : AckInput) (configured : Option DlDataToUlAck) :
    ∀ candidate ∈ (input.timings configured).zipIdx, candidate.1 ≤ setMaxFbTime configured := by
  rintro ⟨k, indicator⟩ member
  have known : k ∈ input.timings configured := fst_mem_of_mem_zipIdx member
  have bounds := setMaxFbTime_bounds configured
  unfold AckInput.timings at known
  split at known
  · exact bounds.2.2 _ rfl k known
  · have standard : ∀ k ∈ [1, 2, 3, 4, 5, 6, 7, 8], k ≤ 8 := by decide
    exact le_trans (standard k known) bounds.1

def Between (grid : SlotGrid) (s : PucchState) : Prop :=
  ∃ calendar, grid.Booked s (s.now + grid.lead s.timings) calendar

def InSlot (grid : SlotGrid) (s : PucchState) : Prop :=
  ∃ calendar, grid.Booked s (s.now + grid.lead s.timings + 1) calendar

theorem InSlot.acknack (inSlot : grid.InSlot s) (regular : grid.Regular) (input : AckInput) :
    grid.InSlot (grid.nrAcknackScheduling input s).1 := by
  obtain ⟨calendar, booked⟩ := inSlot
  unfold nrAcknackScheduling
  rcases acknackSearch_cases input booked _ (timings_le input s.timings) with
    nothing | ⟨time, pucch, selected, above, below, entry, done⟩
  · rw [nothing]
    exact ⟨calendar, booked⟩
  · rw [done]
    exact ⟨_, booked.book regular selected above below entry⟩

theorem Between.csi (between : grid.Between s) (regular : grid.Regular) (report : CsiReport)
    (uplink : grid.isUl (grid.slotOf (s.now + grid.lead s.timings)) = true) :
    ∃ after, grid.nrCsiMeasReporting report s = .ok after ∧ grid.InSlot after := by
  obtain ⟨calendar, earlier⟩ := between
  have booked := earlier.extend regular (Nat.le_succ _) (le_refl _)
  generalize target : s.now + grid.lead s.timings = time at uplink
  have selected := (isUl_iff time).mp uplink
  have above : s.now ≤ time := by omega
  have below : time < s.now + grid.lead s.timings + 1 := by omega
  -- nothing can be booked as far ahead before
  have blank : calendar time = {} := by
    by_contra filled
    have early := (earlier.holds.inside time filled).2.2
    omega
  have found : s.ring (grid.place s.size time) = {} := by
    rw [booked.holds.at_place time selected above below, blank]
  have none : dueAt s.log time = [] := by
    have entry := booked.entries time above
    rw [blank] at entry
    exact entry.due_of_blank
  simp only [nrCsiMeasReporting, slotOf_add, frameOf_add, target, uplink, Bool.not_true,
    Bool.false_eq_true, if_false, getPucchIndex_eq, found]
  split
  · refine ⟨_, rfl, calendar, ?_⟩
    have same : update s.ring (grid.place s.size time) {} = s.ring := by
      rw [← found, update_eq_self]
    rw [same]
    exact booked
  · refine ⟨_, rfl, _, booked.book regular selected above below ?_⟩
    rw [none]
    exact ⟨rfl, rfl, rfl, by simp [totalBits]⟩

theorem Between.reportCsi (between : grid.Between s) (regular : grid.Regular) (csi : Option CsiReport)
    (uplink : csi.isSome → grid.isUl (grid.slotOf (s.now + grid.lead s.timings)) = true) :
    ∃ after, grid.reportCsi csi s = .ok after ∧ grid.InSlot after := by
  cases csi with
  | none =>
    obtain ⟨calendar, booked⟩ := between
    exact ⟨s, rfl, calendar, booked.extend regular (Nat.le_succ _) (le_refl _)⟩
  | some report => exact between.csi regular report (uplink rfl)

theorem Booked.skip (booked : grid.Booked s (s.now + grid.lead s.timings + 1) calendar)
    (blank : calendar s.now = {}) : grid.Between { s with now := s.now + 1 } := by
  have none : dueAt s.log s.now = [] := by
    have entry := booked.entries s.now (le_refl _)
    rw [blank] at entry
    exact entry.due_of_blank
  have order : s.now + grid.lead s.timings + 1 = s.now + 1 + grid.lead s.timings := by omega
  refine ⟨calendar, booked.capacity, Nat.le_succ _, ?_, ?_, booked.kept.matching, ?_, ?_⟩
  · have holds := booked.holds.advance blank
    rwa [order] at holds
  · intro time later
    exact booked.entries time (Nat.le_of_succ_le later)
  · intro time early
    rcases Nat.lt_succ_iff_lt_or_eq.mp early with before | now
    · exact booked.kept.handed time before
    · rw [now, none]
      exact booked.kept.later s.now (le_refl _)
  · intro time late
    exact booked.kept.later time (Nat.le_of_succ_le late)

theorem Booked.hand (booked : grid.Booked s (s.now + grid.lead s.timings + 1) calendar)
    (regular : grid.Regular) (selected : grid.pattern.Selected s.now)
    (active : (calendar s.now).active = true) :
    grid.Between { s with
      now := s.now + 1
      ring := update s.ring (grid.place s.size s.now) {}
      log := s.log ++ [.handed s.now (calendar s.now).daiC (calendar s.now).csiBits] } := by
  obtain ⟨some, _, _, bits⟩ := (booked.entries s.now (le_refl _)).active active
  have order : s.now + grid.lead s.timings + 1 = s.now + 1 + grid.lead s.timings := by omega
  have written := booked.holds.write (booked.apart regular) selected (le_refl _) (by omega) {}
  have advanced := written.advance (update_self _ _ _)
  rw [order] at advanced
  refine ⟨_, booked.capacity, Nat.le_succ _, advanced, ?_, ?_, ?_, ?_⟩
  · intro time later
    have different : time ≠ s.now := ne_of_gt later
    rw [dueAt_handed, update_of_ne different]
    exact booked.entries time (Nat.le_of_succ_le later)
  · have before := booked.kept.matching
    simp [before]
  · intro time early
    rw [dueAt_handed, handedAt_handed]
    rcases Nat.lt_succ_iff_lt_or_eq.mp early with before | now
    · rw [if_neg (ne_of_gt before)]
      exact booked.kept.handed time before
    · rw [now, if_pos rfl, booked.kept.later s.now (le_refl _), if_neg some, bits]
      rfl
  · intro time late
    rw [handedAt_handed, if_neg (ne_of_lt late)]
    exact booked.kept.later time (Nat.le_of_succ_le late)

theorem InSlot.pucch (inSlot : grid.InSlot s) (regular : grid.Regular) :
    grid.Between (grid.nrSchedulePucch s) := by
  obtain ⟨calendar, booked⟩ := inSlot
  simp only [nrSchedulePucch, getPucchIndex_eq]
  split
  · rename_i downlink
    apply booked.skip
    by_contra filled
    have selected := (booked.holds.inside s.now filled).1
    rw [(isUl_iff s.now).mpr selected] at downlink
    cases downlink
  · rename_i uplink
    have selected : grid.pattern.Selected s.now := (isUl_iff s.now).mp (by simpa using uplink)
    have found : s.ring (grid.place s.size s.now) = calendar s.now :=
      booked.holds.at_place s.now selected (le_refl _) (by omega)
    have entry := booked.entries s.now (le_refl _)
    simp only [found]
    split
    · rename_i idle
      exact booked.skip (entry.inactive (by simpa using idle)).2
    rename_i busy
    have active : (calendar s.now).active = true := by simpa using busy
    obtain ⟨_, frame, slot, _⟩ := entry.active active
    rw [if_neg (by simp [frame, slot])]
    exact booked.hand regular selected active

theorem setSchedPucchList_same (timings : Option DlDataToUlAck) (s : PucchState) :
    (grid.setSchedPucchList timings s).now = s.now ∧ (grid.setSchedPucchList timings s).timings = timings ∧
      (grid.setSchedPucchList timings s).log = s.log := by
  unfold setSchedPucchList
  dsimp only
  split <;> exact ⟨rfl, rfl, rfl⟩

/-- Every pending occasion keeps its place in the list as it will be, and comes within a
number of slots. -/
def Undisturbed (grid : SlotGrid) (timings : Option DlDataToUlAck) (s : PucchState) (limit : Nat) : Prop :=
  ∀ i < s.size, (s.ring i).active = true →
    grid.getPucchIndex (s.ring i).frame (s.ring i).ulSlot (grid.setSchedPucchList timings s).size = i ∧
      grid.slotsTo s.now (s.ring i) < limit

instance (timings : Option DlDataToUlAck) (s : PucchState) (limit : Nat) :
    Decidable (grid.Undisturbed timings s limit) :=
  inferInstanceAs (Decidable (∀ i < s.size, (s.ring i).active = true → _ ∧ _))

theorem Booked.configured_capacity (booked : grid.Booked s stop calendar) (timings : Option DlDataToUlAck) :
    grid.Capacity (grid.setSchedPucchList timings s).size (grid.lead timings) := by
  unfold setSchedPucchList
  dsimp only
  split_ifs with large
  · exact capacity_listSize timings
  · exact booked.capacity.longer (not_lt.mp large)

theorem Booked.configured_ring (booked : grid.Booked s stop calendar) (regular : grid.Regular)
    (timings : Option DlDataToUlAck) : (grid.setSchedPucchList timings s).ring = s.ring := by
  unfold setSchedPucchList
  dsimp only
  split
  · funext i
    dsimp only
    split
    · by_contra written
      obtain ⟨time, filled, here⟩ := booked.holds.known i (Ne.symm written)
      have below := place_lt booked.capacity regular (booked.holds.inside time filled).1
      omega
    · rfl
  · rfl

theorem Booked.configure {reach : Nat} (small : reach ≤ 1)
    (booked : grid.Booked s (s.now + grid.lead s.timings + reach) calendar) (regular : grid.Regular)
    {timings : Option DlDataToUlAck} (undisturbed : grid.Undisturbed timings s (grid.lead timings + reach)) :
    grid.Booked (grid.setSchedPucchList timings s) (s.now + grid.lead timings + reach) calendar := by
  obtain ⟨now, known, log⟩ := @setSchedPucchList_same grid timings s
  have capacity := booked.configured_capacity timings
  have ring := booked.configured_ring regular timings
  have cycle := @lead_lt grid s.timings
  have apart : Apart grid.pattern.Selected (grid.place (grid.setSchedPucchList timings s).size) s.now
      (s.now + grid.lead timings + reach) :=
    (capacity.apart regular s.now).mono (le_refl _) (by omega)
  -- every entry keeps its place and lies before the new end of the window
  have kept : ∀ time, calendar time ≠ {} →
      grid.place (grid.setSchedPucchList timings s).size time = grid.place s.size time ∧
        time < s.now + grid.lead timings + reach := by
    intro time filled
    obtain ⟨selected, above, below⟩ := booked.holds.inside time filled
    have found := booked.holds.at_place time selected above below
    have active : (calendar time).active = true := by
      by_contra idle
      exact filled ((booked.entries time above).inactive idle).2
    obtain ⟨_, frame, slot, _⟩ := (booked.entries time above).active active
    have both := undisturbed (grid.place s.size time) (place_lt booked.capacity regular selected)
    rw [found, frame, slot, slotsTo_eq frame slot above (by omega)] at both
    have result := both active
    exact ⟨result.1, by omega⟩
  refine ⟨by rwa [known], by rw [known]; omega, ?_, ?_, ?_⟩
  · rw [now, ring]
    have cut := booked.holds.cut (min_le_left _ (s.now + grid.lead timings + reach))
      fun time filled => Nat.lt_min.mpr ⟨(booked.holds.inside time filled).2.2, (kept time filled).2⟩
    have moved := cut.move (apart.mono (le_refl _) (min_le_right _ _))
      fun time filled => (kept time filled).1
    exact moved.extend apart (min_le_right _ _)
  · rw [now, log]
    exact booked.entries
  · obtain ⟨matching, handed, later⟩ := booked.kept
    refine ⟨by rwa [log], ?_, ?_⟩
    · rw [now, log]
      exact handed
    · rw [now, log]
      exact later

theorem Between.configure (between : grid.Between s) (regular : grid.Regular)
    {timings : Option DlDataToUlAck} (undisturbed : grid.Undisturbed timings s (grid.lead timings)) :
    grid.Between (grid.setSchedPucchList timings s) := by
  obtain ⟨calendar, booked⟩ := between
  obtain ⟨now, known, _⟩ := @setSchedPucchList_same grid timings s
  refine ⟨calendar, ?_⟩
  rw [now, known]
  exact Booked.configure (Nat.zero_le 1) booked regular undisturbed

theorem InSlot.configure (inSlot : grid.InSlot s) (regular : grid.Regular)
    {timings : Option DlDataToUlAck} (undisturbed : grid.Undisturbed timings s (grid.lead timings + 1)) :
    grid.InSlot (grid.setSchedPucchList timings s) := by
  obtain ⟨calendar, booked⟩ := inSlot
  obtain ⟨now, known, _⟩ := @setSchedPucchList_same grid timings s
  refine ⟨calendar, ?_⟩
  rw [now, known]
  exact booked.configure (le_refl 1) regular undisturbed

end SlotGrid

namespace SlotWork

/-- Acknowledgements may always be booked; the list is not configured again in a way that
moves a pending occasion or leaves it beyond the lead. -/
def Allowed (grid : SlotGrid) : List SlotWork → PucchState → Prop
  | [], _ => True
  | .ack input :: rest, s => Allowed grid rest (grid.slotWork s (.ack input))
  | .configure timings :: rest, s =>
    grid.Undisturbed timings s (grid.lead timings + 1) ∧
      Allowed grid rest (grid.slotWork s (.configure timings))

instance decidableAllowed (grid : SlotGrid) : ∀ work s, Decidable (Allowed grid work s)
  | [], _ => .isTrue trivial
  | .ack input :: rest, s => decidableAllowed grid rest (grid.slotWork s (.ack input))
  | .configure timings :: rest, s =>
    have := decidableAllowed grid rest (grid.slotWork s (.configure timings))
    inferInstanceAs (Decidable (_ ∧ _))

end SlotWork

/-- The condition on an operation, in the state before it. CSI reports are configured for
uplink slots. -/
def PucchOp.Allowed (grid : SlotGrid) (s : PucchState) : PucchOp → Prop
  | .configure timings => grid.Undisturbed timings s (grid.lead timings)
  | .slot csi work =>
    (csi.isSome → grid.isUl (grid.slotOf (s.now + grid.lead s.timings)) = true) ∧
      ∀ after ∈ (grid.reportCsi csi s).toOption, SlotWork.Allowed grid work after

instance (grid : SlotGrid) (s : PucchState) (op : PucchOp) : Decidable (op.Allowed grid s) :=
  match op with
  | .configure timings => inferInstanceAs (Decidable (grid.Undisturbed timings s (grid.lead timings)))
  | .slot _ _ => inferInstanceAs (Decidable (_ ∧ _))

namespace SlotGrid

variable {grid : SlotGrid} {s : PucchState}

theorem InSlot.work (regular : grid.Regular) (work : List SlotWork) (inSlot : grid.InSlot s)
    (allowed : SlotWork.Allowed grid work s) : grid.InSlot (work.foldl grid.slotWork s) := by
  induction work generalizing s with
  | nil => exact inSlot
  | cons item rest ih =>
    cases item with
    | ack input => exact ih (inSlot.acknack regular input) allowed
    | configure timings => exact ih (inSlot.configure regular allowed.1) allowed.2

theorem Between.step (between : grid.Between s) (regular : grid.Regular) (op : PucchOp)
    (allowed : op.Allowed grid s) : ∃ after, grid.pucchStep s op = .ok after ∧ grid.Between after := by
  cases op with
  | configure timings => exact ⟨_, rfl, between.configure regular allowed⟩
  | slot csi work =>
    obtain ⟨uplink, legal⟩ := allowed
    obtain ⟨after, reported, inSlot⟩ := between.reportCsi regular csi uplink
    rw [reported] at legal
    refine ⟨_, by rw [pucchStep, reported]; rfl, InSlot.pucch ?_ regular⟩
    exact inSlot.work regular work (legal after rfl)

theorem between_new (timings : Option DlDataToUlAck) (now : Nat) :
    grid.Between (grid.newPucchList timings now) := by
  refine ⟨fun _ => {}, capacity_listSize timings, Nat.le_succ _, holds_blank _ _ _ _ _, ?_, ?_⟩
  · intro time _
    exact rfl
  · exact ⟨not_mem_nil, fun _ _ => rfl, fun _ _ => rfl⟩

/-- No PUCCH occasion is lost and no assertion fires in a run without flexible slots in which a new
configuration leaves pending occasions at their places. -/
theorem pucch_none_lost (grid : SlotGrid) (regular : grid.Regular) (timings : Option DlDataToUlAck)
    (now : Nat) (ops : List PucchOp)
    (allowed : Attempts grid.pucchRun (fun s op => op.Allowed grid s) (grid.newPucchList timings now) ops) :
    Along grid.pucchRun NoneLost (grid.newPucchList timings now) ops ∧
      Attempts grid.pucchRun (fun s op => ∃ after, grid.pucchStep s op = .ok after)
        (grid.newPucchList timings now) ops := by
  refine @safe_of_attempts _ _ grid.pucchRun _ grid.Between _ _ ?_ ?_ _ ops (between_new timings now) allowed
  · rintro s ⟨calendar, booked⟩
    exact booked.kept
  · intro s op between legal
    obtain ⟨after, stepped, next⟩ := between.step regular op legal
    refine ⟨⟨after, stepped⟩, fun other taken => ?_⟩
    rw [pucchRun, stepped] at taken
    cases taken
    exact next

end SlotGrid

def mixedGrid : SlotGrid where
  scs := 1
  tdd := some ⟨.ms5, 7, 6, 2, 4⟩
  cellSpecificKoffset := 0
  scs_le := by decide
  koffset_le := SlotGrid.zero_koffset_le
  period_slot := by
    rintro _ ⟨⟩
    decide

def longTimings : DlDataToUlAck := ⟨[10, 11, 12, 13, 4, 5, 6, 7], by decide⟩

def plainAck : SlotWork := .ack ⟨false, 0, 2, fun _ _ => true, fun _ _ => true⟩

def idleSlots (count : Nat) : List PucchOp := replicate count (.slot none [])

theorem pucch_none_lost_attach :
    mixedGrid.Regular ∧ Along mixedGrid.pucchRun NoneLost (mixedGrid.newPucchList none 0)
        ([.slot (some ⟨7, 0, true, true⟩) [plainAck], .slot none [plainAck]] ++ idleSlots 18 ++
          [.configure (some longTimings), .slot none [plainAck]]) ∧
      Attempts mixedGrid.pucchRun (fun s op => ∃ after, mixedGrid.pucchStep s op = .ok after)
        (mixedGrid.newPucchList none 0)
        ([.slot (some ⟨7, 0, true, true⟩) [plainAck], .slot none [plainAck]] ++ idleSlots 18 ++
          [.configure (some longTimings), .slot none [plainAck]]) :=
  ⟨by decide, SlotGrid.pucch_none_lost mixedGrid (by decide) none 0 _ (attempts_of_check (by decide +kernel))⟩

/-- An acknowledgement is booked for slot 17 at place 0 of three. The list is enlarged to six, where
slot 17 has place 3: slot 17 is handed nothing, and slot 27 finds the old element. -/
theorem pucch_lost_when_enlarged :
    (run mixedGrid.pucchRun (mixedGrid.newPucchList none 10)
        ([.slot none [plainAck], .configure (some longTimings)] ++ idleSlots 7)).map
      (fun s => (s.now, s.size, s.log)) = some (18, 6, [.booked 17 1 0]) ∧
    (run mixedGrid.pucchRun (mixedGrid.newPucchList none 10)
        ([.slot none [plainAck], .configure (some longTimings)] ++ idleSlots 17)).map
      (fun s => (s.now, s.size, s.log)) = some (28, 6, [.booked 17 1 0, .mismatch]) := by
  decide

end OranSlice.Mac
