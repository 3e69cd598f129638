import OranSlice.Mac.DlPdu
import OranSlice.Mac.UlPduSafety

/-! The parsers of the UE stay within a downlink MAC PDU and a random access response exactly if what
they look at is there, up to the sub-PDU where they stop. -/

namespace OranSlice.Mac.DlPdu

open BitCodec UlPdu List

variable {ctx : DlContext} {ue : UeDl} {bytes : List Byte}

def LastSubPduDl : List Byte → Prop
  | [] => False
  | first :: rest =>
    match DlLcid.ofByte first with
    | .padding => True
    | .channel _ => macLen (first :: rest) = none
    | .ccch => macLen (first :: rest) = none ∨ (first :: rest).take 2 = [0, 0]
    | _ => False

def subPduSizeDl : List Byte → Nat
  | [] => 0
  | first :: rest =>
    match DlLcid.ofByte first with
    | .ccch | .channel _ | .tciStateActUeSpecPdsch | .aperiodicCsiTriStateSubsel | .spCsiRsCsiImResSetAct
    | .spSrsActivation => ((macLen (first :: rest)).map (fun (length, header) => header + length)).getD 1
    | .recommendedBitrate | .spZpCsiRsResSetAct | .spCsiRepPucchAct | .tciStateIndUeSpecPdcch => 3
    | .pucchSpatialRelationAct => 4
    | .duplicationAct | .sCellAct1Oct | .taCommand => 2
    | .sCellAct4Oct => 5
    | .conResId => 7
    | .lDrx | .drx | .padding | .unknown _ => 1

/-- What is looked at of the sub-PDU at the front: an SDU, a timing advance command, and an identity
while the UE waits for it. -/
def lookedAt (ra : RaConfig) : List Byte → Nat
  | [] => 0
  | first :: rest =>
    match DlLcid.ofByte first with
    | .ccch | .channel _ | .taCommand => subPduSizeDl (first :: rest)
    | .conResId => if ra.raState = .waitContentionResolution then subPduSizeDl (first :: rest) else 1
    | _ => 1

def RaConfig.resolved (ctx : DlContext) (ra : RaConfig) (identity : List Byte) : RaConfig :=
  if ra.raActive && ctx.raSuccess ra identity then ra.succeeded
  else if ctx.raSuccess ra identity = false then { ra with raState := .ueIdle, raActive := false }
  else ra

def raAfter (ctx : DlContext) (ra : RaConfig) : List Byte → RaConfig
  | [] => ra
  | first :: rest =>
    if DlLcid.ofByte first = .conResId ∧ ra.raState = .waitContentionResolution then
      ra.resolved ctx (rest.take 6)
    else ra

inductive CompleteSubPdusDl (ctx : DlContext) : RaConfig → List Byte → Prop where
  | nil {ra : RaConfig} : CompleteSubPdusDl ctx ra []
  | last {ra : RaConfig} {bytes : List Byte} (stops : LastSubPduDl bytes) : CompleteSubPdusDl ctx ra bytes
  | more {ra : RaConfig} {bytes : List Byte} (inside : lookedAt ra bytes ≤ bytes.length)
      (rest : CompleteSubPdusDl ctx (raAfter ctx ra bytes) (bytes.drop (subPduSizeDl bytes))) :
      CompleteSubPdusDl ctx ra bytes

inductive TreatedDl (ctx : DlContext) (ue : UeDl) (bytes : List Byte) : Except Fault (UeDl × DlNext) → Prop where
  | returns (last : LastSubPduDl bytes) : TreatedDl ctx ue bytes (.ok (ue, .ret))
  | done (last : LastSubPduDl bytes) (macSubheaderLen macLen : Nat) :
      TreatedDl ctx ue bytes (.ok (ue, .advance macSubheaderLen macLen true))
  | aborts (last : LastSubPduDl bytes) : TreatedDl ctx ue bytes (.error .assertion)
  | goesOn {after : UeDl} {macSubheaderLen macLen : Nat} (more : ¬ LastSubPduDl bytes)
      (inside : lookedAt ue.ra bytes ≤ bytes.length) (size : macSubheaderLen + macLen = subPduSizeDl bytes)
      (ra : after.ra = raAfter ctx ue.ra bytes) :
      TreatedDl ctx ue bytes (.ok (after, .advance macSubheaderLen macLen false))
  | outside (more : ¬ LastSubPduDl bytes) (short : bytes.length < lookedAt ue.ra bytes) :
      TreatedDl ctx ue bytes (.error .outOfBounds)

theorem contentionResolution_ra (ctx : DlContext) (ue : UeDl) (identity : List Byte) :
    (contentionResolution ctx ue identity).ra = ue.ra.resolved ctx identity := by
  simp [contentionResolution, RaConfig.resolved, apply_ite UeDl.ra, nrRaSucceeded]

theorem allZero_subheader {length subheader : Nat} (header : macLen bytes = some (length, subheader)) :
    allZero bytes 0 (subheader + length) = .ok (decide (bytes.take 2 = [0, 0])) := by
  match bytes with
  | [] | [_] => cases header
  | first :: second :: rest =>
    by_cases zero : first = 0#8
    · subst zero
      obtain ⟨rfl, rfl⟩ := header
      by_cases none : second = 0#8
      · subst none
        rfl
      · rw [add_comm]
        simp [allZero, readByte, none, bind, Except.bind, pure, Except.pure]
    · obtain ⟨count, counted⟩ : ∃ count, subheader + length = count + 1 := by
        have bounds := macLen_bounds header
        exact ⟨subheader + length - 1, by omega⟩
      rw [counted]
      simp [allZero, readByte, zero, bind, Except.bind, pure, Except.pure]

section

variable {first : Byte} {rest : List Byte}

theorem skip_treated {macSubheaderLen macLen : Nat} (more : ¬ LastSubPduDl (first :: rest))
    (skipped : lookedAt ue.ra (first :: rest) = 1) (size : macSubheaderLen + macLen = subPduSizeDl (first :: rest))
    (ra : raAfter ctx ue.ra (first :: rest) = ue.ra) :
    TreatedDl ctx ue (first :: rest) (.ok (ue, .advance macSubheaderLen macLen false)) := by
  apply TreatedDl.goesOn more
  · rw [skipped]
    exact Nat.le_add_left 1 rest.length
  · exact size
  · exact ra.symm

theorem readSdu_treatedDl {offset length macSubheaderLen macLen : Nat} (change : List Byte → UeDl)
    (more : ¬ LastSubPduDl bytes) (looked : lookedAt ue.ra bytes = offset + length)
    (size : macSubheaderLen + macLen = subPduSizeDl bytes)
    (ra : (change ((bytes.drop offset).take length)).ra = raAfter ctx ue.ra bytes) :
    TreatedDl ctx ue bytes (do
      let sdu ← readSdu bytes offset length
      return (change sdu, .advance macSubheaderLen macLen false)) := by
  by_cases inside : offset + length ≤ bytes.length
  · rw [readSdu_ok inside]
    exact .goesOn more (looked ▸ inside) size ra
  · rw [readSdu_error (Nat.lt_of_not_le inside)]
    exact .outside more (looked ▸ Nat.lt_of_not_le inside)

theorem raAfter_of_ne (ra : RaConfig) (other : DlLcid.ofByte first ≠ .conResId) :
    raAfter ctx ra (first :: rest) = ra :=
  if_neg (fun both => other both.1)

theorem processCcchDl_treated (lcid : DlLcid.ofByte first = .ccch) :
    TreatedDl ctx ue (first :: rest) (processCcchDl ue (first :: rest) (first :: rest).length) := by
  have last : LastSubPduDl (first :: rest) ↔
      macLen (first :: rest) = none ∨ (first :: rest).take 2 = [0, 0] := by simp only [LastSubPduDl, lcid]
  have ra : raAfter ctx ue.ra (first :: rest) = ue.ra := raAfter_of_ne ue.ra (by rw [lcid]; simp)
  rw [processCcchDl, getMacLen_eq]
  cases header : macLen (first :: rest) with
  | none => exact .aborts (last.mpr (.inl header))
  | some lengths =>
    obtain ⟨length, subheader⟩ := lengths
    have size : subPduSizeDl (first :: rest) = subheader + length := by
      simp [subPduSizeDl, lcid, header]
    have looked : lookedAt ue.ra (first :: rest) = subheader + length := by
      simp [lookedAt, lcid, size]
    simp only [bind, Except.bind, allZero_subheader header]
    by_cases zero : (first :: rest).take 2 = [0, 0]
    · rw [if_pos (decide_eq_true zero)]
      exact .done (last.mpr (.inr zero)) subheader length
    have more : ¬ LastSubPduDl (first :: rest) := by
      rw [last, header]
      exact fun stops => stops.elim (fun none => nomatch none) zero
    rw [if_neg (by simpa using zero)]
    by_cases some : length > 0
    · rw [if_pos some]
      exact readSdu_treatedDl (indicateDl ue 0) more looked size.symm ra.symm
    rw [if_neg some]
    refine .goesOn more ?_ size.symm ra.symm
    -- without an SDU only the subheader is looked at, which is complete
    have complete : subheader ≤ (first :: rest).length := (macLen_bounds header).2.2.2
    omega

theorem skipWithLength_treated (more : ¬ LastSubPduDl (first :: rest))
    (skipped : lookedAt ue.ra (first :: rest) = 1) (size : subPduSizeDl (first :: rest) =
      ((macLen (first :: rest)).map (fun (length, header) => header + length)).getD 1)
    (ra : raAfter ctx ue.ra (first :: rest) = ue.ra) :
    TreatedDl ctx ue (first :: rest) (skipWithLength ue (first :: rest) (first :: rest).length) := by
  rw [skipWithLength, getMacLen_eq]
  cases header : macLen (first :: rest) with
  | none | some lengths => exact skip_treated more skipped (by rw [size, header]; rfl) ra

theorem processTaCommand_treated (lcid : DlLcid.ofByte first = .taCommand) :
    TreatedDl ctx ue (first :: rest) (processTaCommand ctx ue (first :: rest)) := by
  have more : ¬ LastSubPduDl (first :: rest) := by simp [LastSubPduDl, lcid]
  have looked : lookedAt ue.ra (first :: rest) = 2 := by simp only [lookedAt, subPduSizeDl, lcid]
  rw [processTaCommand]
  by_cases inside : 1 < (first :: rest).length
  · rw [readByte_ok inside]
    refine .goesOn more (looked ▸ inside) ?_ (raAfter_of_ne ue.ra (by rw [lcid]; simp)).symm
    simp [subPduSizeDl, lcid]
  · rw [readByte_error (Nat.le_of_not_lt inside)]
    exact .outside more (by omega)

theorem processConResId_treated (lcid : DlLcid.ofByte first = .conResId) :
    TreatedDl ctx ue (first :: rest) (processConResId ctx ue (first :: rest)) := by
  have more : ¬ LastSubPduDl (first :: rest) := by simp [LastSubPduDl, lcid]
  have size : subPduSizeDl (first :: rest) = 7 := by simp only [subPduSizeDl, lcid]
  rw [processConResId]
  by_cases waits : ue.ra.raState = .waitContentionResolution
  · rw [if_pos waits]
    apply readSdu_treatedDl (contentionResolution ctx ue) more
    · simp [lookedAt, lcid, size, if_pos waits]
    · exact size.symm
    · rw [contentionResolution_ra]
      exact (if_pos ⟨lcid, waits⟩).symm
  · rw [if_neg waits]
    apply skip_treated more
    · simp [lookedAt, lcid, if_neg waits]
    · exact size.symm
    · exact if_neg (fun both => waits both.2)

theorem processChannel_treated {id : Nat} (lcid : DlLcid.ofByte first = .channel id) :
    TreatedDl ctx ue (first :: rest) (processChannel ue id (first :: rest) (first :: rest).length) := by
  rw [processChannel, getMacLen_eq]
  cases header : macLen (first :: rest) with
  | none => exact .returns (by simpa only [LastSubPduDl, lcid] using header)
  | some lengths =>
    have size : subPduSizeDl (first :: rest) = lengths.2 + lengths.1 := by
      simp [subPduSizeDl, lcid, header]
    apply readSdu_treatedDl (indicateDl ue id)
    · simp [LastSubPduDl, lcid, header]
    · simp [lookedAt, lcid, size]
    · exact size.symm
    · exact (raAfter_of_ne ue.ra (by rw [lcid]; simp)).symm

theorem processSubPduDl_treated (ctx : DlContext) (ue : UeDl) (first : Byte) (rest : List Byte) :
    TreatedDl ctx ue (first :: rest) (processSubPduDl ctx ue (first :: rest) (first :: rest).length) := by
  change TreatedDl ctx ue (first :: rest)
    (processLcidDl ctx ue (first :: rest) (first :: rest).length (DlLcid.ofByte first))
  cases lcid : DlLcid.ofByte first with
  | ccch => exact processCcchDl_treated lcid
  | channel => exact processChannel_treated lcid
  | taCommand => exact processTaCommand_treated lcid
  | conResId => exact processConResId_treated lcid
  | padding => exact .done (by simp only [LastSubPduDl, lcid]) 1 0
  | tciStateActUeSpecPdsch | aperiodicCsiTriStateSubsel | spCsiRsCsiImResSetAct | spSrsActivation =>
    apply skipWithLength_treated
    · simp [LastSubPduDl, lcid]
    · simp [lookedAt, lcid]
    · simp [subPduSizeDl, lcid]
    · exact raAfter_of_ne ue.ra (by rw [lcid]; simp)
  | recommendedBitrate | spZpCsiRsResSetAct | spCsiRepPucchAct | tciStateIndUeSpecPdcch | pucchSpatialRelationAct
  | duplicationAct | sCellAct1Oct | sCellAct4Oct | lDrx | drx | unknown =>
    apply skip_treated
    · simp [LastSubPduDl, lcid]
    · simp [lookedAt, lcid]
    · simp [subPduSizeDl, lcid]
    · exact raAfter_of_ne ue.ra (by rw [lcid]; simp)

theorem subPduSizeDl_pos (first : Byte) (rest : List Byte) : 0 < subPduSizeDl (first :: rest) := by
  have lengths : 0 < ((macLen (first :: rest)).map (fun (length, header) => header + length)).getD 1 := by
    cases header : macLen (first :: rest) with
    | none => exact Nat.one_pos
    | some both =>
      have bounds := macLen_bounds header
      simp only [Option.map_some, Option.getD_some]
      omega
  cases lcid : DlLcid.ofByte first <;> simp only [subPduSizeDl, lcid] <;> first | exact lengths | decide

end

variable (fuel : Nat) (ra : RaConfig) (nSubheaders nSubPdus : Nat)

theorem subPdusDl_safe_iff {pduLen : Int} (agrees : pduLen.toNat = bytes.length)
    (enough : bytes.length < fuel) :
    Safe (subPdusDl ctx fuel ue bytes pduLen) ↔ CompleteSubPdusDl ctx ue.ra bytes := by
  induction fuel generalizing ue bytes pduLen with
  | zero => omega
  | succ fuel ih =>
    cases bytes with
    | nil =>
      have none : pduLen ≤ 0 := Int.toNat_eq_zero.mp agrees
      rw [subPdusDl, if_pos none]
      exact ⟨fun _ => .nil, fun _ => .inl ⟨_, rfl⟩⟩
    | cons first rest =>
      have remaining : ¬ pduLen ≤ 0 := by
        rw [length_cons] at agrees
        omega
      have treated := processSubPduDl_treated ctx ue first rest
      rw [subPdusDl, if_neg remaining, agrees]
      generalize processSubPduDl ctx ue (first :: rest) (first :: rest).length = outcome at treated
      cases treated with
      | returns last | done last => exact ⟨fun _ => .last last, fun _ => .inl ⟨_, rfl⟩⟩
      | aborts last => exact ⟨fun _ => .last last, fun _ => .inr rfl⟩
      | @goesOn after macSubheaderLen macLen more inside size ra =>
        have positive := subPduSizeDl_pos first rest
        change Safe (subPdusDl ctx fuel after ((first :: rest).drop (macSubheaderLen + macLen))
          (pduLen - (macSubheaderLen + macLen : Nat))) ↔ _
        rw [size, ih (by rw [length_drop]; omega) (by rw [length_drop]; omega), ra]
        constructor
        · exact .more inside
        · intro complete
          cases complete with
          | last stops => exact absurd stops more
          | more _ later => exact later
      | outside more short =>
        constructor
        · exact fun safe => absurd safe not_safe_outOfBounds
        · intro complete
          cases complete with
          | last stops => exact absurd stops more
          | more inside _ => exact absurd inside (not_le.mpr short)

def LastRarSubPdu (preambleIndex : Nat) (header : Byte) : Prop :=
  isExtended header = false ∨ (carriesRapid header = true ∧ header.toNat % 64 = preambleIndex)

instance (preambleIndex : Nat) (header : Byte) : Decidable (LastRarSubPdu preambleIndex header) :=
  inferInstanceAs (Decidable (_ ∨ _))

def rarSubPduSize (header : Byte) : Nat := if carriesRapid header then rarSize + 1 else 1

inductive ClosedRar (preambleIndex : Nat) : List Byte → Prop where
  | last {header : Byte} {rest : List Byte} (stops : LastRarSubPdu preambleIndex header) :
      ClosedRar preambleIndex (header :: rest)
  | more {header : Byte} {rest : List Byte}
      (later : ClosedRar preambleIndex ((header :: rest).drop (rarSubPduSize header))) :
      ClosedRar preambleIndex (header :: rest)

theorem rarSubPdus_cons (header : Byte) (rest : List Byte) :
    (LastRarSubPdu ra.preambleIndex header ∧
      ∃ result, rarSubPdus (fuel + 1) ra nSubheaders nSubPdus (header :: rest) = .ok result) ∨
    (¬ LastRarSubPdu ra.preambleIndex header ∧ ∃ after nSubheaders' nSubPdus',
      after.preambleIndex = ra.preambleIndex ∧
      rarSubPdus (fuel + 1) ra nSubheaders nSubPdus (header :: rest) =
        rarSubPdus fuel after nSubheaders' nSubPdus' ((header :: rest).drop (rarSubPduSize header))) := by
  have read : readByte (header :: rest) 0 = .ok header := rfl
  rw [rarSubPdus, read]
  cases rapid : carriesRapid header with
  | false =>
    cases extended : isExtended header with
    | false => exact .inl ⟨.inl extended, (takeBackoff ra header, 1), by simp [rapid, extended, bind, Except.bind]; rfl⟩
    | true =>
      right
      refine ⟨by simp [LastRarSubPdu, extended, rapid], takeBackoff ra header, (nSubheaders + 1) % 256, nSubPdus,
        rfl, ?_⟩
      simp [rarSubPduSize, rapid, extended, bind, Except.bind]
  | true =>
    by_cases sought : header.toNat % 64 = ra.preambleIndex
    · exact .inl ⟨.inr ⟨rapid, sought⟩, _, by simp [rapid, sought, bind, Except.bind]; rfl⟩
    cases extended : isExtended header with
    | false => exact .inl ⟨.inl extended, (ra, 1), by simp [rapid, sought, extended, bind, Except.bind]; rfl⟩
    | true =>
      right
      refine ⟨by simp [LastRarSubPdu, extended, sought], ra, (nSubheaders + 1) % 256, (nSubPdus + 1) % 256,
        rfl, ?_⟩
      simp [rarSubPduSize, rapid, sought, extended, bind, Except.bind]

theorem rarSubPdus_safe_iff (enough : bytes.length < fuel) :
    Safe (rarSubPdus fuel ra nSubheaders nSubPdus bytes) ↔ ClosedRar ra.preambleIndex bytes := by
  induction fuel generalizing ra nSubheaders nSubPdus bytes with
  | zero => omega
  | succ fuel ih =>
    cases bytes with
    | nil => exact ⟨fun safe => absurd safe not_safe_outOfBounds, fun closed => nomatch closed⟩
    | cons header rest =>
      rcases rarSubPdus_cons fuel ra nSubheaders nSubPdus header rest with
        ⟨last, result, walked⟩ | ⟨more, after, nSubheaders', nSubPdus', same, walked⟩
      · rw [walked]
        exact ⟨fun _ => .last last, fun _ => .inl ⟨result, rfl⟩⟩
      have positive : 0 < rarSubPduSize header := by
        simp only [rarSubPduSize]
        split <;> decide
      have less : ((header :: rest).drop (rarSubPduSize header)).length < fuel := by
        rw [length_cons] at enough
        rw [length_drop, length_cons]
        omega
      rw [walked, ih after nSubheaders' nSubPdus' less, same]
      constructor
      · exact .more
      · intro closed
        cases closed with
        | last stops => exact absurd stops more
        | more later => exact later

/-- The parser of downlink MAC PDUs ends without an access beyond the PDU and gives RLC no SDU beyond
it, exactly if what it looks at of each sub-PDU is there; so does the walk over a RAR exactly if its
subheaders come to one where it stops. -/
theorem ue_parsers_safe_iff (ctx : DlContext) (ue : UeDl) (pdu : List Byte) (bounded : pdu.length < 2 ^ 32)
    (ackNack : Bool) (ra : RaConfig) (rar : List Byte) :
    (Safe (nrUeProcessMacPdu ctx ue pdu) ↔ 2 ^ 31 ≤ pdu.length ∨ CompleteSubPdusDl ctx ue.ra pdu) ∧
    (Safe (nrUeProcessRar ackNack ra rar) ↔ ackNack = false ∨ ClosedRar ra.preambleIndex rar) := by
  constructor
  · by_cases negative : 2 ^ 31 ≤ pdu.length
    · have none : toInt pdu.length ≤ 0 := by
        rw [toInt]
        omega
      rw [nrUeProcessMacPdu, subPdusDl, if_pos none]
      exact ⟨fun _ => .inl negative, fun _ => .inl ⟨ue, rfl⟩⟩
    · have same : toInt pdu.length = pdu.length := by
        rw [toInt]
        omega
      rw [nrUeProcessMacPdu, same, subPdusDl_safe_iff (pdu.length + 1) (Int.toNat_natCast _) (Nat.lt_succ_self _)]
      simp only [negative, false_or]
  · cases ackNack with
    | false => exact ⟨fun _ => .inl rfl, fun _ => .inl ⟨_, rfl⟩⟩
    | true =>
      rw [nrUeProcessRar, if_pos rfl, rarSubPdus_safe_iff _ ra 0 0 (Nat.lt_succ_self _)]
      simp

def slotFive : DlContext where
  frame := 100
  slot := 5
  ntnUeKoffset := 0
  nSlotsFrame := 20
  iqPlayer := false

/-- A timing advance command, an SDU of 2 bytes on channel 4 and padding; a backoff indicator and the RAR for
preamble 3. -/
theorem ue_parsers_safe_commands_and_data :
    Safe (nrUeProcessMacPdu slotFive {} [0x3d, 0x1f, 0x04, 0x02, 0xaa, 0xbb, 0x3f, 0x00]) ∧
    Safe (nrUeProcessRar true { raPreambleIndex := 3 } [0x82, 0x43, 0, 0, 0, 0, 0, 0, 0]) := by
  have parsers := ue_parsers_safe_iff slotFive {} [0x3d, 0x1f, 0x04, 0x02, 0xaa, 0xbb, 0x3f, 0x00] (by decide)
    true { raPreambleIndex := 3 } [0x82, 0x43, 0, 0, 0, 0, 0, 0, 0]
  have padded : CompleteSubPdusDl slotFive {} [0x3f, 0x00] := .last trivial
  have data : CompleteSubPdusDl slotFive {} [0x04, 0x02, 0xaa, 0xbb, 0x3f, 0x00] := .more (by decide) padded
  have command : CompleteSubPdusDl slotFive {} [0x3d, 0x1f, 0x04, 0x02, 0xaa, 0xbb, 0x3f, 0x00] :=
    .more (by decide) data
  have found : ClosedRar 3 [0x43, 0, 0, 0, 0, 0, 0, 0] := .last (by decide)
  exact ⟨parsers.1.mpr (.inr command), parsers.2.mpr (.inr (.more found))⟩

/-- An SDU of 255 bytes is indicated from a PDU of 2 bytes; a backoff indicator that announces another sub-PDU ends
the RAR. -/
theorem ue_parsers_read_past_end :
    ¬ Safe (nrUeProcessMacPdu slotFive {} [0x04, 0xff]) ∧ ¬ Safe (nrUeProcessRar true {} [0x82]) := by
  constructor
  · exact not_safe_outOfBounds
  · exact not_safe_outOfBounds

end OranSlice.Mac.DlPdu
