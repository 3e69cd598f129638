import OranSlice.Mac.DlPduSafety
import OranSlice.Mac.DlPduWrite
import OranSlice.Mac.Tbs

/-! What the UE makes of a transport block of the gNB: it gives its RLC the SDUs of the gNB's RLC, in
their order, and takes the timing advance command. -/

namespace OranSlice.Mac.DlPdu

open BitCodec UlPdu List

variable {ctx : DlContext} {ue mid after : UeDl} {first rest : List Byte}

def Parses (ctx : DlContext) (ue : UeDl) (bytes : List Byte) (after : UeDl) : Prop :=
  ∀ fuel, bytes.length < fuel → subPdusDl ctx fuel ue bytes bytes.length = .ok after

def Consumed (ctx : DlContext) (ue : UeDl) (bytes : List Byte) (mid : UeDl) : Prop :=
  ∀ rest after, Parses ctx mid rest after → Parses ctx ue (bytes ++ rest) after

theorem parses_nil (ctx : DlContext) (ue : UeDl) : Parses ctx ue [] ue := by
  intro fuel enough
  cases fuel with
  | zero => omega
  | succ fuel => rfl

theorem Parses.nrUeProcessMacPdu {bytes : List Byte} (parses : Parses ctx ue bytes after)
    (bounded : bytes.length < 2 ^ 31) : nrUeProcessMacPdu ctx ue bytes = .ok after := by
  have same : toInt bytes.length = bytes.length := by
    rw [toInt]
    omega
  rw [DlPdu.nrUeProcessMacPdu, same]
  exact parses (bytes.length + 1) (Nat.lt_succ_self _)

theorem parses_padding {first : Byte} (rest : List Byte) (padding : DlLcid.ofByte first = .padding) :
    Parses ctx ue (first :: rest) ue := by
  intro fuel enough
  cases fuel with
  | zero => omega
  | succ fuel =>
    have step : processSubPduDl ctx ue (first :: rest) (first :: rest).length = .ok (ue, .advance 1 0 true) := by
      change processLcidDl ctx ue (first :: rest) (first :: rest).length (DlLcid.ofByte first) = _
      rw [padding]
      rfl
    rw [subPdusDl, Int.toNat_natCast, step]
    rfl

theorem consumed_subPdu {sub : List Byte} {macSubheaderLen macLen : Nat} (size : macSubheaderLen + macLen = sub.length)
    (nonempty : 0 < sub.length) (step : ∀ rest, processSubPduDl ctx ue (sub ++ rest) (sub ++ rest).length =
      .ok (mid, .advance macSubheaderLen macLen false)) : Consumed ctx ue sub mid := by
  intro rest after later fuel enough
  cases fuel with
  | zero => omega
  | succ fuel =>
    have some : ¬ ((sub ++ rest).length : Int) ≤ 0 := by
      rw [length_append]
      omega
    have behind : ((sub ++ rest).length : Int) - (sub.length : Nat) = rest.length := by
      rw [length_append]
      omega
    rw [subPdusDl, if_neg some, Int.toNat_natCast, step]
    change subPdusDl ctx fuel mid ((sub ++ rest).drop (macSubheaderLen + macLen))
      ((sub ++ rest).length - (macSubheaderLen + macLen : Nat)) = _
    rw [size, drop_left, behind]
    exact later fuel (by omega)

theorem consumed_nil (ctx : DlContext) (ue : UeDl) : Consumed ctx ue [] ue := fun _ _ later => later

theorem Consumed.append (front : Consumed ctx ue first mid) (back : Consumed ctx mid rest after) :
    Consumed ctx ue (first ++ rest) after := by
  intro bytes last later
  rw [append_assoc]
  exact front (rest ++ bytes) last (back bytes last later)

theorem Consumed.scheduled {ce : List Byte} (isScheduled : Bool) (consumed : Consumed ctx ue ce mid) :
    Consumed ctx ue (scheduledCe isScheduled ce) (if isScheduled then mid else ue) := by
  cases isScheduled with
  | false => exact consumed_nil ctx ue
  | true => exact consumed

theorem Consumed.scheduled_skip {ce : List Byte} (isScheduled : Bool) (consumed : Consumed ctx ue ce ue) :
    Consumed ctx ue (scheduledCe isScheduled ce) ue := by
  cases isScheduled with
  | false => exact consumed_nil ctx ue
  | true => exact consumed

section ControlElements

theorem consumed_ta (tagId : Nat) (taUpdate : Int) :
    Consumed ctx ue [fixedSubheader 0x3d, taByte tagId taUpdate] (takeTa ctx ue (taByte tagId taUpdate)) :=
  @consumed_subPdu ctx ue _ _ 1 1 rfl Nat.two_pos (fun _ => rfl)

theorem consumed_pdcchTci (ce : PdcchStateInd) : Consumed ctx ue (pdcchTciCe ce) ue :=
  @consumed_subPdu ctx ue ue _ 1 2 rfl (by simp [pdcchTciCe]) (fun _ => rfl)

theorem consumed_spCsiReporting (ce : SpCsiReportingPucch) : Consumed ctx ue (spCsiReportingCe ce) ue :=
  @consumed_subPdu ctx ue ue _ 1 2 rfl (by simp [spCsiReportingCe]) (fun _ => rfl)

theorem consumed_spZpCsiRs (ce : SpZpCsiRs) : Consumed ctx ue (spZpCsiRsCe ce) ue :=
  @consumed_subPdu ctx ue ue _ 1 2 rfl (by simp [spZpCsiRsCe]) (fun _ => rfl)

theorem macLen_statesCe {lcid : Nat} (short : hasLongLength (packed [(1, 0), (1, 0), (6, lcid)]) = false)
    (ce : StatesActDeact) (rest : List Byte) : macLen (statesCe lcid ce ++ rest) = some (1 + ce.numOctets, 2) := by
  have bound := ce.numOctets_le
  have length : (packed [(8, 1 + ce.numOctets)]).toNat = 1 + ce.numOctets := by
    simp [packed]
    omega
  simp [statesCe, macLen, short, length]

theorem consumed_statesCe {lcid : Nat} (short : hasLongLength (packed [(1, 0), (1, 0), (6, lcid)]) = false)
    (skipped : ∀ pduP pduLen, processLcidDl ctx ue pduP pduLen (DlLcid.ofByte (packed [(1, 0), (1, 0), (6, lcid)])) =
      skipWithLength ue pduP pduLen) (ce : StatesActDeact) : Consumed ctx ue (statesCe lcid ce) ue := by
  refine @consumed_subPdu ctx ue ue _ 2 (1 + ce.numOctets) ?_ ?_ ?_
  · rw [statesCe_length]
    omega
  · rw [statesCe_length]
    omega
  · intro rest
    have step : processSubPduDl ctx ue (statesCe lcid ce ++ rest) (statesCe lcid ce ++ rest).length =
        skipWithLength ue (statesCe lcid ce ++ rest) (statesCe lcid ce ++ rest).length :=
      skipped (statesCe lcid ce ++ rest) (statesCe lcid ce ++ rest).length
    rw [step, skipWithLength, getMacLen_eq, macLen_statesCe short]
    rfl

theorem consumed_pdschTci (ce : StatesActDeact) : Consumed ctx ue (pdschTciCe ce) ue :=
  consumed_statesCe (by decide) (fun _ _ => rfl) ce

theorem consumed_aperiodicCsi (ce : StatesActDeact) : Consumed ctx ue (aperiodicCsiCe ce) ue :=
  consumed_statesCe (by decide) (fun _ _ => rfl) ce

end ControlElements

section Data

theorem ofByte_channel {lcid : Nat} (positive : 1 ≤ lcid) (bound : lcid ≤ 32) :
    DlLcid.ofByte (packed [(1, 0), (1, 1), (6, lcid)]) = .channel lcid ∧
      hasLongLength (packed [(1, 0), (1, 1), (6, lcid)]) = true := by
  have each : ∀ id ∈ range 33, 1 ≤ id → DlLcid.ofByte (packed [(1, 0), (1, 1), (6, id)]) = .channel id ∧
      hasLongLength (packed [(1, 0), (1, 1), (6, id)]) = true := by decide
  exact each lcid (mem_range.mpr (Nat.lt_succ_of_le bound)) positive

theorem macLen_longSubheader {lcid len : Nat} (positive : 1 ≤ lcid) (bound : lcid ≤ 32) (short : len < 2 ^ 16)
    (rest : List Byte) : macLen (longSubheader lcid len ++ rest) = some (len, 3) := by
  have high : (packed [(8, len / 256)]).toNat = len / 256 := by
    simp [packed]
    omega
  have low : (packed [(8, len)]).toNat = len % 256 := by simp [packed]
  have value : len / 256 * 256 + len % 256 = len := Nat.div_add_mod' len 256
  simp [longSubheader, macLen, (ofByte_channel positive bound).2, high, low, value]

theorem consumed_sdu {sdu : Sdu} (positive : 1 ≤ sdu.1) (bound : sdu.1 ≤ 32) (short : sdu.2.length < 2 ^ 16) :
    Consumed ctx ue (sduSubPdu sdu) (indicateDl ue sdu.1 sdu.2) := by
  have size : (sduSubPdu sdu).length = 3 + sdu.2.length := by
    rw [sduSubPdu, length_append]
    rfl
  refine @consumed_subPdu ctx ue _ _ 3 sdu.2.length size.symm (by omega) ?_
  intro rest
  have step : processSubPduDl ctx ue (sduSubPdu sdu ++ rest) (sduSubPdu sdu ++ rest).length =
      processLcidDl ctx ue (sduSubPdu sdu ++ rest) (sduSubPdu sdu ++ rest).length
        (DlLcid.ofByte (packed [(1, 0), (1, 1), (6, sdu.1)])) := rfl
  have header : macLen (sduSubPdu sdu ++ rest) = some (sdu.2.length, 3) := by
    exact macLen_longSubheader positive bound short (sdu.2 ++ rest)
  have data : ((sduSubPdu sdu ++ rest).drop 3).take sdu.2.length = sdu.2 := by
    exact take_left
  have inside : 3 + sdu.2.length ≤ (sduSubPdu sdu ++ rest).length := by
    rw [length_append]
    omega
  rw [step, (ofByte_channel positive bound).1, processLcidDl, processChannel, getMacLen_eq, header]
  change (readSdu (sduSubPdu sdu ++ rest) 3 sdu.2.length).bind _ = _
  rw [readSdu_ok inside, data]
  rfl

def UeDl.receives (ue : UeDl) (sdus : List Sdu) : UeDl := { ue with indicated := ue.indicated ++ sdus }

theorem consumed_sdus (sdus : List Sdu) (channels : ∀ sdu ∈ sdus, 1 ≤ sdu.1 ∧ sdu.1 ≤ 32)
    (short : ∀ sdu ∈ sdus, sdu.2.length < 2 ^ 16) (ue : UeDl) :
    Consumed ctx ue (sdus.flatMap sduSubPdu) (ue.receives sdus) := by
  induction sdus generalizing ue with
  | nil =>
    rw [UeDl.receives, append_nil]
    exact consumed_nil ctx ue
  | cons sdu sdus ih =>
    obtain ⟨positive, bound⟩ := channels sdu mem_cons_self
    have head : Consumed ctx ue (sduSubPdu sdu) (indicateDl ue sdu.1 sdu.2) :=
      consumed_sdu positive bound (short sdu mem_cons_self)
    have tail := ih (forall_mem_cons.mp channels).2
      (forall_mem_cons.mp short).2 (indicateDl ue sdu.1 sdu.2)
    have both : (indicateDl ue sdu.1 sdu.2).receives sdus = ue.receives (sdu :: sdus) := by
      simp [UeDl.receives, indicateDl]
    exact both ▸ head.append tail

end Data

theorem parses_end (mode : DlMode) (info : UeInfo) (written tbs room : Nat) :
    Parses ctx ue (testData mode info written tbs ++ paddingFor room) ue := by
  have padded : Parses ctx ue (paddingFor room) ue := by
    cases room with
    | zero => exact parses_nil ctx ue
    | succ room => exact parses_padding _ (by decide)
  rw [testData, randomSubPdu]
  split
  · split
    · exact parses_padding _ (by decide)
    · exact padded
  · exact padded

end OranSlice.Mac.DlPdu

namespace OranSlice.Mac

open BitCodec

variable {ρ : Type} {macRlcDataReq : ρ → Nat → Nat → List Byte × ρ}

def answerLength (macRlcDataReq : ρ → Nat → Nat → List Byte × ρ) (rlc : ρ) (lcid size : Nat) : Nat × ρ :=
  ((macRlcDataReq rlc lcid size).1.length, (macRlcDataReq rlc lcid size).2)

def Sdu.subPdu (sdu : Sdu) : SubPdu := ⟨sdu.1, sdu.2.length⟩

theorem fillFromLc_eq (lcid : Nat) (bytesInBuffer : BitVec 32) (fuel room : Nat) (rlc : ρ) :
    fillFromLc (answerLength macRlcDataReq) lcid bytesInBuffer fuel room rlc =
      ((writeFromLc macRlcDataReq lcid bytesInBuffer fuel room rlc).1.map Sdu.subPdu,
        (writeFromLc macRlcDataReq lcid bytesInBuffer fuel room rlc).2) := by
  induction fuel generalizing room rlc with
  | zero => rfl
  | succ fuel ih =>
    rw [fillFromLc, writeFromLc]
    by_cases enough : longSubheaderSize + 1 < room
    · rw [if_pos enough, if_pos enough]
      cases asked : macRlcDataReq rlc lcid (min bytesInBuffer.toNat (room - longSubheaderSize)) with
      | mk data next =>
        by_cases none : data.length = 0
        · simp [answerLength, asked, none]
        · simp [answerLength, asked, none, ih, Sdu.subPdu]
    · rw [if_neg enough, if_neg enough]
      rfl

theorem fillFromLcs_eq (ue : UeInfo) (lcs : List LcConfig) (room : Nat) (rlc : ρ) :
    fillFromLcs (answerLength macRlcDataReq) ue lcs room rlc =
      (writeFromLcs macRlcDataReq ue lcs room rlc).1.map Sdu.subPdu := by
  induction lcs generalizing room rlc with
  | nil => rfl
  | cons lc lcs ih =>
    rw [fillFromLcs, writeFromLcs]
    split
    · simp [fillFromLc_eq, ih]
    · exact ih room rlc

theorem writeFromLcs_admitted (ue : UeInfo) (lcs : List LcConfig) (room : Nat) (rlc : ρ) {sdu : Sdu}
    (given : sdu ∈ (writeFromLcs macRlcDataReq ue lcs room rlc).1) :
    (sdu.1 ≤ 3 ∨ ue.dlSlInfo sdu.1 = ue.sliceForThisSched) ∧ ∃ lc ∈ lcs, lc.lcid = sdu.1 := by
  have carried : sdu.subPdu ∈ fillFromLcs (answerLength macRlcDataReq) ue lcs room rlc := by
    rw [fillFromLcs_eq]
    exact List.mem_map_of_mem given
  obtain ⟨admitted, configured⟩ := fillFromLcs_admitted ue lcs room rlc sdu.subPdu carried
  constructor
  · by_cases srb : sdu.1 ≤ 3
    · exact .inl srb
    right
    have drb : 3 < sdu.1 := Nat.lt_of_not_le srb
    simp only [UeInfo.admitsLc, Sdu.subPdu, drb, decide_true, Bool.true_and, Bool.and_eq_true, Bool.not_eq_true',
      bne_eq_false_iff_eq] at admitted
    exact admitted.2
  · exact configured

section

variable {property : List Byte → Prop} (answers : ∀ rlc lcid size, property (macRlcDataReq rlc lcid size).1)

include answers

theorem writeFromLc_forall (lcid : Nat) (bytesInBuffer : BitVec 32)
    (fuel room : Nat) (rlc : ρ) :
    ∀ sdu ∈ (writeFromLc macRlcDataReq lcid bytesInBuffer fuel room rlc).1, property sdu.2 := by
  induction fuel generalizing room rlc with
  | zero => exact fun sdu member => nomatch member
  | succ fuel ih =>
    intro sdu member
    rw [writeFromLc] at member
    by_cases enough : longSubheaderSize + 1 < room
    · rw [if_pos enough] at member
      have asked := answers rlc lcid (min bytesInBuffer.toNat (room - longSubheaderSize))
      by_cases none : (macRlcDataReq rlc lcid (min bytesInBuffer.toNat (room - longSubheaderSize))).1.length = 0
      · simp only [if_pos none, List.not_mem_nil] at member
      simp only [if_neg none, List.mem_cons] at member
      rcases member with rfl | later
      · exact asked
      · exact ih _ _ sdu later
    · rw [if_neg enough] at member
      exact nomatch member

theorem writeFromLcs_forall (ue : UeInfo) (lcs : List LcConfig)
    (room : Nat) (rlc : ρ) : ∀ sdu ∈ (writeFromLcs macRlcDataReq ue lcs room rlc).1, property sdu.2 := by
  induction lcs generalizing room rlc with
  | nil => exact fun sdu member => nomatch member
  | cons lc lcs ih =>
    intro sdu member
    rw [writeFromLcs] at member
    split at member
    · rcases List.mem_append.mp member with here | later
      · exact writeFromLc_forall answers _ _ _ _ _ sdu here
      · exact ih _ _ sdu later
    · exact ih _ _ sdu member

end

section Room

theorem sduSubPdu_length (sdu : Sdu) : (sduSubPdu sdu).length = longSubheaderSize + sdu.2.length := by
  rw [sduSubPdu, List.length_append]
  rfl

variable (answers : ∀ rlc lcid size, (macRlcDataReq rlc lcid size).1.length ≤ size)

include answers

theorem writeFromLc_room (lcid : Nat) (bytesInBuffer : BitVec 32) (fuel room : Nat) (rlc : ρ) :
    ((writeFromLc macRlcDataReq lcid bytesInBuffer fuel room rlc).1.flatMap sduSubPdu).length +
      (writeFromLc macRlcDataReq lcid bytesInBuffer fuel room rlc).2.1 = room := by
  induction fuel generalizing room rlc with
  | zero => simp [writeFromLc]
  | succ fuel ih =>
    rw [writeFromLc]
    by_cases enough : longSubheaderSize + 1 < room
    · rw [if_pos enough]
      have fits := answers rlc lcid (min bytesInBuffer.toNat (room - longSubheaderSize))
      cases asked : macRlcDataReq rlc lcid (min bytesInBuffer.toNat (room - longSubheaderSize)) with
      | mk data next =>
        rw [asked] at fits
        by_cases none : data.length = 0
        · simp [none]
        have later := ih (room - (data.length + longSubheaderSize)) next
        cases written : writeFromLc macRlcDataReq lcid bytesInBuffer fuel
          (room - (data.length + longSubheaderSize)) next with
        | mk sdus left =>
          simp only [none, if_false, written, List.flatMap_cons, List.length_append, sduSubPdu_length]
            at fits later ⊢
          omega
    · rw [if_neg enough]
      simp

theorem writeFromLcs_room (ue : UeInfo) (lcs : List LcConfig) (room : Nat) (rlc : ρ) :
    ((writeFromLcs macRlcDataReq ue lcs room rlc).1.flatMap sduSubPdu).length ≤ room := by
  induction lcs generalizing room rlc with
  | nil => exact Nat.zero_le room
  | cons lc lcs ih =>
    rw [writeFromLcs]
    split
    · have here := writeFromLc_room answers lc.lcid (ue.rlcStatus lc.lcid).bytesInBuffer room room rlc
      cases written : writeFromLc macRlcDataReq lc.lcid (ue.rlcStatus lc.lcid).bytesInBuffer room room rlc with
      | mk sdus left =>
        have later := ih left.1 left.2
        rw [written] at here
        simp only [List.flatMap_append, List.length_append] at here ⊢
        omega
    · exact ih room rlc

end Room

section RoundTrip

open DlPdu UlPdu

/-- The size of the control elements that wait, without those for CSI-RS resource sets. -/
def MacCeCtrl.ceSize (ctrl : MacCeCtrl) : Nat :=
  (if ctrl.taApply then 2 else 0) + (if ctrl.pdcchStateInd.isScheduled then 3 else 0) +
    (if ctrl.spCsiReportingPucch.isScheduled then 3 else 0) +
    (if ctrl.pdschTciStatesActDeact.isScheduled then 3 + ctrl.pdschTciStatesActDeact.numOctets else 0) +
    (if ctrl.aperiCsiTrigger.isScheduled then 3 + ctrl.aperiCsiTrigger.numOctets else 0) +
    (if ctrl.spZpCsiRs.isScheduled then 3 else 0)

def MacCeCtrl.takenBy (ctrl : MacCeCtrl) (tagId : Nat) (ctx : DlContext) (ue : UeDl) : UeDl :=
  if ctrl.taApply then
    { ue with
      ulTimeAlignment :=
        { taApply := .adjustmentTa
          taCommand := (ctrl.taUpdate % 64).toNat
          tagId := tagId % 4
          frame := (ctx.frame + (ctx.slot + ctx.ntnUeKoffset) / ctx.nSlotsFrame) % 1024
          slot := (ctx.slot + ctx.ntnUeKoffset) % ctx.nSlotsFrame } }
  else ue

theorem takeTa_taByte (ctx : DlContext) (ue : UeDl) (ctrl : MacCeCtrl) (tagId : Nat) :
    (if ctrl.taApply then takeTa ctx ue (taByte tagId ctrl.taUpdate) else ue) = ctrl.takenBy tagId ctx ue := by
  have byte : (taByte tagId ctrl.taUpdate).toNat = tagId % 4 * 64 + (ctrl.taUpdate % 64).toNat := by
    simp [taByte, packed]
    omega
  have command : (taByte tagId ctrl.taUpdate).toNat % 64 = (ctrl.taUpdate % 64).toNat := by omega
  have tag : (taByte tagId ctrl.taUpdate).toNat / 64 = tagId % 4 := by omega
  rw [MacCeCtrl.takenBy, takeTa, command, tag]

theorem nrWriteCeDlschPdu_consumed (ctrl : MacCeCtrl) (tagId : Nat) (noCsiIm : ctrl.csiIm.isScheduled = false)
    (command : ctrl.taApply = true → ctrl.taUpdate < 64) (ctx : DlContext) (ue : UeDl) :
    ∃ ces, nrWriteCeDlschPdu tagId ctrl 255 none = some ces ∧ ces.length = ctrl.ceSize ∧
      Consumed ctx ue ces (ctrl.takenBy tagId ctx ue) := by
  have allowed : (ctrl.taApply && decide (64 ≤ ctrl.taUpdate)) = false := by
    cases pending : ctrl.taApply with
    | false => rfl
    | true => simpa using command pending
  rw [nrWriteCeDlschPdu, allowed, noCsiIm]
  refine ⟨_, rfl, ?_, ?_⟩
  · have size (isScheduled : Bool) (ce : List Byte) :
        (scheduledCe isScheduled ce).length = if isScheduled then ce.length else 0 := by
      cases isScheduled <;> rfl
    simp [size, MacCeCtrl.ceSize, pdcchTciCe, spCsiReportingCe, spZpCsiRsCe, pdschTciCe, aperiodicCsiCe,
      statesCe_length, add_assoc]
  · rw [← takeTa_taByte]
    have ta : Consumed ctx ue (scheduledCe ctrl.taApply [fixedSubheader 0x3d, taByte tagId ctrl.taUpdate]) _ :=
      (consumed_ta tagId ctrl.taUpdate).scheduled ctrl.taApply
    generalize (if ctrl.taApply then takeTa ctx ue (taByte tagId ctrl.taUpdate) else ue) = timed at ta ⊢
    apply Consumed.append _ (consumed_nil ctx timed)
    apply Consumed.append _ ((consumed_spZpCsiRs ctrl.spZpCsiRs).scheduled_skip _)
    apply Consumed.append _ ((consumed_aperiodicCsi ctrl.aperiCsiTrigger).scheduled_skip _)
    apply Consumed.append _ ((consumed_pdschTci ctrl.pdschTciStatesActDeact).scheduled_skip _)
    apply Consumed.append _ ((consumed_spCsiReporting ctrl.spCsiReportingPucch).scheduled_skip _)
    apply Consumed.append _ ((consumed_pdcchTci ctrl.pdcchStateInd).scheduled_skip _)
    apply Consumed.append _ (consumed_nil ctx timed)
    exact Consumed.append (consumed_nil ctx ue) ta

def DlMode.RandomFits (mode : DlMode) (ue : UeInfo) (written tbs : Nat) : Prop :=
  ue.numTotalBytes = 0 → mode.phyTest = true ∨ mode.doRa = true → longSubheaderSize < tbs - written →
    randomEnd (written + longSubheaderSize) tbs = tbs

theorem paddingFor_length (room : Nat) : (paddingFor room).length = room := by
  cases room with
  | zero => rfl
  | succ room => rw [paddingFor, List.length_cons, List.length_replicate]

theorem randomSubPdu_length (mode : DlMode) {written tbs : Nat}
    (fits : longSubheaderSize < tbs - written → randomEnd (written + longSubheaderSize) tbs = tbs) :
    (randomSubPdu mode written tbs).length ≤ tbs - written := by
  rw [randomSubPdu]
  split
  · have header : (longSubheader 0x3f (tbs - (written + longSubheaderSize))).length = longSubheaderSize := rfl
    simp only [List.length_append, List.length_map, List.length_range]
    omega
  · exact Nat.zero_le _

structure Given (ue : UeInfo) (room : Nat) (given : List Sdu) : Prop where
  fits : (given.flatMap sduSubPdu).length ≤ room
  none : ue.numTotalBytes = 0 → given = []
  admitted : ∀ sdu ∈ given, (sdu.1 ≤ 3 ∨ ue.dlSlInfo sdu.1 = ue.sliceForThisSched) ∧
    ∃ lc ∈ ue.lcConfig, lc.lcid = sdu.1
  short : ∀ sdu ∈ given, sdu.2.length < 2 ^ 16

theorem rlcData_given {ρ : Type} {macRlcDataReq : ρ → Nat → Nat → List Byte × ρ}
    (answers : ∀ rlc lcid size, (macRlcDataReq rlc lcid size).1.length ≤ size ∧
      (macRlcDataReq rlc lcid size).1.length < 2 ^ 16) (ue : UeInfo) (room : Nat) (rlc : ρ) :
    Given ue room (rlcData macRlcDataReq ue room rlc).1 := by
  rw [rlcData]
  by_cases none : ue.numTotalBytes = 0
  · rw [if_pos none]
    constructor
    · exact Nat.zero_le room
    · exact fun _ => rfl
    · exact fun sdu member => nomatch member
    · exact fun sdu member => nomatch member
  · rw [if_neg none]
    constructor
    · exact writeFromLcs_room (fun rlc lcid size => (answers rlc lcid size).1) ue ue.lcConfig room rlc
    · exact fun zero => absurd zero none
    · exact fun sdu member => writeFromLcs_admitted ue ue.lcConfig room rlc member
    · exact @writeFromLcs_forall ρ macRlcDataReq (fun data => data.length < 2 ^ 16)
        (fun rlc lcid size => (answers rlc lcid size).2) ue ue.lcConfig room rlc

theorem Given.body_le {mode : DlMode} {ue : UeInfo} {written tbs : Nat} {sdus : List Sdu}
    (given : Given ue (tbs - written) sdus) (random : mode.RandomFits ue written tbs) :
    (sdus.flatMap sduSubPdu ++ testData mode ue written tbs).length ≤ tbs - written := by
  rw [List.length_append, testData]
  by_cases test : ue.numTotalBytes = 0 ∧ (mode.phyTest = true ∨ mode.doRa = true)
  · rw [if_pos test, given.none test.1]
    simpa using randomSubPdu_length mode (random test.1 test.2)
  · rw [if_neg test]
    exact given.fits

/-- A transport block with room behind the control elements is written to its end and no further; the UE
gives RLC exactly what RLC gave the gNB, in order, only from SRBs and channels of the selected slice,
and takes exactly the timing advance command. -/
theorem transport_block_round_trip {ρ : Type} {macRlcDataReq : ρ → Nat → Nat → List Byte × ρ}
    (answers : ∀ rlc lcid size, (macRlcDataReq rlc lcid size).1.length ≤ size ∧
      (macRlcDataReq rlc lcid size).1.length < 2 ^ 16)
    (mode : DlMode) (ctrl : MacCeCtrl) (ue : UeInfo) (tbs : Nat) (rlc : ρ) (ctx : DlContext) (ueDl : UeDl)
    (noCsiIm : ctrl.csiIm.isScheduled = false) (command : ctrl.taApply = true → ctrl.taUpdate < 64)
    (channels : ∀ lc ∈ ue.lcConfig, 1 ≤ lc.lcid ∧ lc.lcid ≤ 32) (room : ctrl.ceSize < tbs) (bounded : tbs < 2 ^ 31)
    (random : mode.RandomFits ue ctrl.ceSize tbs) :
    ∃ block, writeTransportBlock macRlcDataReq mode ctrl ue tbs rlc = some block ∧ block.bytes.length = tbs ∧
      (∀ sdu ∈ block.given, sdu.1 ≤ 3 ∨ ue.dlSlInfo sdu.1 = ue.sliceForThisSched) ∧
      nrUeProcessMacPdu ctx ueDl block.bytes =
        .ok ((ctrl.takenBy mode.tagId ctx ueDl).receives block.given) := by
  obtain ⟨ces, written, size, consumed⟩ := nrWriteCeDlschPdu_consumed ctrl mode.tagId noCsiIm command ctx ueDl
  have given := rlcData_given answers ue (tbs - ces.length) rlc
  generalize asked : rlcData macRlcDataReq ue (tbs - ces.length) rlc = data at given
  have behind := given.body_le (size ▸ random : mode.RandomFits ue ces.length tbs)
  generalize bodyIs : ces ++ (data.1.flatMap sduSubPdu ++ testData mode ue ces.length tbs) = body
  have total : (body ++ paddingFor (tbs - body.length)).length = tbs := by
    rw [List.length_append, paddingFor_length, ← bodyIs, List.length_append]
    omega
  refine ⟨⟨body ++ paddingFor (tbs - body.length), data.1, data.2⟩, ?_, total, ?_, ?_⟩
  · rw [writeTransportBlock, written, Option.bind_some, if_pos (size ▸ room), asked, ← bodyIs]
  · exact fun sdu member => (given.admitted sdu member).1
  · have numbered : ∀ sdu ∈ data.1, 1 ≤ sdu.1 ∧ sdu.1 ≤ 32 := by
      intro sdu member
      obtain ⟨lc, configured, same⟩ := (given.admitted sdu member).2
      exact same ▸ channels lc configured
    have sdus := @consumed_sdus ctx data.1 numbered given.short (ctrl.takenBy mode.tagId ctx ueDl)
    have parsed : Parses ctx ueDl (body ++ paddingFor (tbs - body.length))
        ((ctrl.takenBy mode.tagId ctx ueDl).receives data.1) := by
      rw [← bodyIs, List.append_assoc, List.append_assoc]
      exact consumed _ _ (sdus _ _ (parses_end mode ue ces.length tbs _))
    exact parsed.nrUeProcessMacPdu (by rw [total]; exact bounded)

def readyPdus : List (List Byte) → Nat → Nat → List Byte × List (List Byte)
  | [], _, _ => ([], [])
  | data :: rest, _, size =>
    if data.length ≤ size ∧ data.length < 2 ^ 16 then (data, rest) else ([], data :: rest)

theorem readyPdus_answers (rlc : List (List Byte)) (lcid size : Nat) :
    (readyPdus rlc lcid size).1.length ≤ size ∧ (readyPdus rlc lcid size).1.length < 2 ^ 16 := by
  cases rlc with
  | nil => exact ⟨Nat.zero_le size, Nat.two_pow_pos 16⟩
  | cons data rest =>
    rw [readyPdus]
    split
    · assumption
    · exact ⟨Nat.zero_le size, Nat.two_pow_pos 16⟩

def sixBytesReady : UeInfo where
  rnti := 1
  lcConfig := [⟨4, ⟨1, 0⟩⟩]
  dlSlInfo := fun _ => 1
  rlcStatus := fun _ => ⟨6, 1⟩
  sliceForThisSched := 1
  numTotalBytes := 6

/-- A block of 20 bytes with a timing advance command and an RLC PDU of 6 bytes. -/
theorem transport_block_round_trip_command_and_data :
    ∃ block, writeTransportBlock readyPdus {} { taApply := true, taUpdate := 33 } sixBytesReady 20 [[1, 2, 3, 4, 5, 6]] =
        some block ∧ block.bytes.length = 20 ∧
      (∀ sdu ∈ block.given, sdu.1 ≤ 3 ∨ sixBytesReady.dlSlInfo sdu.1 = sixBytesReady.sliceForThisSched) ∧
      nrUeProcessMacPdu slotFive {} block.bytes =
        .ok ((MacCeCtrl.takenBy { taApply := true, taUpdate := 33 } 0 slotFive {}).receives block.given) :=
  transport_block_round_trip readyPdus_answers {} { taApply := true, taUpdate := 33 } sixBytesReady 20
    [[1, 2, 3, 4, 5, 6]] slotFive {} rfl (fun _ => by decide) (by simp [sixBytesReady]) (by decide) (by decide)
    (fun none => absurd none (by decide))

/-- The blocks that indicate the TCI states 5 and 6 for the PDCCH differ, and leave the UE as it is. Of
a block of 7 bytes the control elements of a beam switch leave none. -/
theorem transport_block_tci_states :
    ((writeTransportBlock readyPdus {} { pdcchStateInd := { isScheduled := true, tciStateId := 5 } } sixBytesReady 20
        []).map (fun block => (block.bytes.take 3, nrUeProcessMacPdu slotFive {} block.bytes)) =
      some ([0x34, 0x00, 0x05], .ok {}) ∧
    (writeTransportBlock readyPdus {} { pdcchStateInd := { isScheduled := true, tciStateId := 6 } } sixBytesReady 20
        []).map (fun block => (block.bytes.take 3, nrUeProcessMacPdu slotFive {} block.bytes)) =
      some ([0x34, 0x00, 0x06], .ok {})) ∧
    (TbsParams.tbs ⟨2, 1200, 1, 5, 12⟩ 5 = 7 ∧ (writeTransportBlock readyPdus {}
        { taApply := true
          pdcchStateInd := { isScheduled := true, tciStateId := 5 }
          pdschTciStatesActDeact := { isScheduled := true, highest := 8 } } sixBytesReady 7 []).isNone) := by
  decide

end RoundTrip

end OranSlice.Mac
