import Mathlib.Data.List.GetD
import OranSlice.Mac.UlPdu

/-! The parser stays within an uplink MAC PDU exactly if the sub-PDUs up to the one where it stops are complete. -/

namespace OranSlice.Mac.UlPdu

open BitCodec UlLcid List

variable {ctx : UlContext} {ue : UeUl} {bytes : List Byte}

def macLen : List Byte → Option (Nat × Nat)
  | first :: second :: rest =>
    if hasLongLength first then
      match rest with
      | third :: _ => some (second.toNat * 256 + third.toNat, 3)
      | [] => none
    else some (second.toNat, 2)
  | _ => none

/-- The parser stops at the sub-PDU; an SRB ends the program while the UE has no cell group. -/
def LastSubPdu (ctx : UlContext) (hasCellGroup : Bool) : List Byte → Prop
  | [] => False
  | first :: rest =>
    match ofByte first with
    | .padding | .unknown _ | .multiEntryPhr1Oct | .multiEntryPhr4Oct => True
    | .singleEntryPhr => ctx.harqPid < 0
    | .cRnti => ctx.hasIdleRa = true ∧ 3 ≤ (first :: rest).length
    | .lBsr | .lTruncatedBsr | .dtch _ => macLen (first :: rest) = none
    | .srb1 | .srb2 => macLen (first :: rest) = none ∨ hasCellGroup = false
    | .ccch1 => (first :: rest).length < 9 ∨ ((first :: rest).take 9).all (· = 0) = true
    | .recommendedBitrateQuery | .configuredGrantConfirmation | .sBsr | .sTruncatedBsr | .ccch => False

def subPduSize : List Byte → Nat
  | [] => 0
  | first :: rest =>
    match ofByte first with
    | .configuredGrantConfirmation => 1
    | .sBsr | .sTruncatedBsr => 2
    | .recommendedBitrateQuery | .cRnti | .singleEntryPhr => 3
    | .ccch => 7
    | .ccch1 => 9
    | .lBsr | .lTruncatedBsr | .dtch _ | .srb1 | .srb2 =>
      ((macLen (first :: rest)).map (fun (length, header) => header + length)).getD 0
    | .padding | .unknown _ | .multiEntryPhr1Oct | .multiEntryPhr4Oct => 0

def cellGroupAfter (hasCellGroup : Bool) : List Byte → Bool
  | [] => hasCellGroup
  | first :: _ =>
    match ofByte first with
    | .ccch | .ccch1 => true
    | _ => hasCellGroup

def reportSize : List Byte → Nat
  | [] => 0
  | first :: rest =>
    match ofByte first with
    | .lBsr | .lTruncatedBsr =>
      ((macLen (first :: rest)).map (fun (_, header) =>
        header + 1 + activeGroups ((first :: rest).getD header 0))).getD 0
    | _ => 0

inductive CompleteSubPdus (ctx : UlContext) : Bool → List Byte → Prop where
  | nil {hasCellGroup : Bool} : CompleteSubPdus ctx hasCellGroup []
  | last {hasCellGroup : Bool} {bytes : List Byte} (stops : LastSubPdu ctx hasCellGroup bytes) :
      CompleteSubPdus ctx hasCellGroup bytes
  | more {hasCellGroup : Bool} {bytes : List Byte} (complete : subPduSize bytes ≤ bytes.length)
      (reported : reportSize bytes ≤ bytes.length)
      (rest : CompleteSubPdus ctx (cellGroupAfter hasCellGroup bytes) (bytes.drop (subPduSize bytes))) :
      CompleteSubPdus ctx hasCellGroup bytes

def Safe {α : Type} (outcome : Except Fault α) : Prop :=
  (∃ result, outcome = .ok result) ∨ outcome = .error .assertion

def Stops (outcome : Except Fault (UeUl × Next)) : Prop :=
  (∃ ue code, outcome = .ok (ue, .ret code)) ∨
  (∃ ue macSubheaderLen macLen, outcome = .ok (ue, .advance macSubheaderLen macLen true)) ∨
  outcome = .error .assertion

def GoesOn (ue : UeUl) (bytes : List Byte) (outcome : Except Fault (UeUl × Next)) : Prop :=
  ∃ ue' macSubheaderLen macLen, outcome = .ok (ue', .advance macSubheaderLen macLen false) ∧
    macSubheaderLen + macLen = subPduSize bytes ∧ ue'.hasCellGroup = cellGroupAfter ue.hasCellGroup bytes

variable {i length : Nat} {outcome : Except Fault (UeUl × Next)}

theorem readByte_ok (inside : i < bytes.length) : readByte bytes i = .ok (bytes.getD i 0) := by
  unfold readByte
  rw [getElem?_eq_getElem inside, getD_eq_getElem _ _ inside]

theorem readByte_error (outside : bytes.length ≤ i) : readByte bytes i = .error .outOfBounds := by
  unfold readByte
  rw [getElem?_eq_none outside]

theorem readSdu_ok (inside : i + length ≤ bytes.length) :
    readSdu bytes i length = .ok ((bytes.drop i).take length) := if_pos inside

theorem readSdu_error (outside : bytes.length < i + length) :
    readSdu bytes i length = .error .outOfBounds := if_neg (not_le.mpr outside)

theorem getMacLen_eq (bytes : List Byte) : getMacLen bytes bytes.length = .ok (macLen bytes) := by
  match bytes with
  | [] => rfl
  | [_] => rfl
  | first :: second :: [] =>
    unfold getMacLen macLen
    cases long : hasLongLength first <;> simp [readByte, long, bind, Except.bind, pure, Except.pure]
  | first :: second :: third :: rest =>
    have enough : ¬ (first :: second :: third :: rest).length < 2 := by
      rw [length_cons, length_cons]
      omega
    unfold getMacLen macLen
    rw [if_neg enough]
    cases long : hasLongLength first <;> simp [readByte, long, bind, Except.bind, pure, Except.pure]

theorem longBsrSum_iff (bytes : List Byte) (i active : Nat) (size : Int) :
    (i + active ≤ bytes.length ∨ active = 0 → ∃ sum, longBsrSum bytes i active size = .ok sum) ∧
    (bytes.length < i + active → active ≠ 0 → longBsrSum bytes i active size = .error .outOfBounds) := by
  induction active generalizing i size with
  | zero => exact ⟨fun _ => ⟨size, rfl⟩, fun _ none => absurd rfl none⟩
  | succ active ih =>
    unfold longBsrSum
    by_cases inside : i < bytes.length
    · rw [readByte_ok inside]
      obtain ⟨enough, short⟩ := ih (i + 1) (toInt (size + estimate longBsrTable (bytes.getD i 0).toNat))
      refine ⟨fun fits => enough ?_, fun outside _ => short ?_ ?_⟩ <;> omega
    · rw [readByte_error (Nat.le_of_not_lt inside)]
      refine ⟨fun fits => ?_, fun _ _ => rfl⟩
      omega

def Treated (ctx : UlContext) (ue : UeUl) (bytes : List Byte) (outcome : Except Fault (UeUl × Next)) : Prop :=
  (LastSubPdu ctx ue.hasCellGroup bytes ∧ Stops outcome) ∨
  (¬ LastSubPdu ctx ue.hasCellGroup bytes ∧ subPduSize bytes ≤ bytes.length ∧ reportSize bytes ≤ bytes.length ∧
    GoesOn ue bytes outcome) ∨
  (¬ LastSubPdu ctx ue.hasCellGroup bytes ∧ ¬ (subPduSize bytes ≤ bytes.length ∧ reportSize bytes ≤ bytes.length) ∧
    (outcome = .error .outOfBounds ∨ (GoesOn ue bytes outcome ∧ bytes.length < subPduSize bytes)))

theorem Treated.skipped (goesOn : ¬ LastSubPdu ctx ue.hasCellGroup bytes)
    (noReport : reportSize bytes = 0) (next : GoesOn ue bytes outcome) : Treated ctx ue bytes outcome := by
  right
  by_cases fits : subPduSize bytes ≤ bytes.length
  · exact .inl ⟨goesOn, fits, by omega, next⟩
  · exact .inr ⟨goesOn, fun both => fits both.1, .inr ⟨next, Nat.lt_of_not_le fits⟩⟩

theorem Treated.read (goesOn : ¬ LastSubPdu ctx ue.hasCellGroup bytes)
    (fits : subPduSize bytes ≤ bytes.length → reportSize bytes ≤ bytes.length → GoesOn ue bytes outcome)
    (short : ¬ (subPduSize bytes ≤ bytes.length ∧ reportSize bytes ≤ bytes.length) →
      outcome = .error .outOfBounds ∨ (GoesOn ue bytes outcome ∧ bytes.length < subPduSize bytes)) :
    Treated ctx ue bytes outcome := by
  right
  by_cases complete : subPduSize bytes ≤ bytes.length ∧ reportSize bytes ≤ bytes.length
  · exact .inl ⟨goesOn, complete.1, complete.2, fits complete.1 complete.2⟩
  · exact .inr ⟨goesOn, complete, short complete⟩

section

variable {first : Byte} {rest : List Byte}

theorem processShortBsr_treated (lcid : ofByte first = .sBsr ∨ ofByte first = .sTruncatedBsr) :
    Treated ctx ue (first :: rest) (processShortBsr ue (first :: rest) (first :: rest).length) := by
  have size : subPduSize (first :: rest) = 2 := by rcases lcid with lcid | lcid <;> simp only [subPduSize, lcid]
  have report : reportSize (first :: rest) = 0 := by rcases lcid with lcid | lcid <;> simp only [reportSize, lcid]
  unfold processShortBsr estimateUlBufferShortBsr
  apply Treated.read
  · rcases lcid with lcid | lcid <;> simp [LastSubPdu, lcid]
  · intro fits _
    rw [readByte_ok (by omega)]
    refine ⟨_, _, _, rfl, size.symm, ?_⟩
    rcases lcid with lcid | lcid <;> simp only [cellGroupAfter, lcid]
  · intro short
    rw [readByte_error (by omega)]
    exact .inl rfl

theorem processLongBsr_treated (lcid : ofByte first = .lBsr ∨ ofByte first = .lTruncatedBsr) :
    Treated ctx ue (first :: rest) (processLongBsr ue (first :: rest) (first :: rest).length) := by
  unfold processLongBsr
  rw [getMacLen_eq]
  cases header : macLen (first :: rest) with
  | none =>
    refine .inl ⟨?_, .inl ⟨_, _, rfl⟩⟩
    rcases lcid with lcid | lcid <;> simpa only [LastSubPdu, lcid] using header
  | some lengths =>
    obtain ⟨length, subheader⟩ := lengths
    have size : subPduSize (first :: rest) = subheader + length := by
      rcases lcid with lcid | lcid <;> simp only [subPduSize, lcid, header, Option.map_some, Option.getD_some]
    have report : reportSize (first :: rest) =
        subheader + 1 + activeGroups ((first :: rest).getD subheader 0) := by
      rcases lcid with lcid | lcid <;> simp only [reportSize, lcid, header, Option.map_some, Option.getD_some]
    change Treated ctx ue (first :: rest) ((estimateUlBufferLongBsr (first :: rest) subheader).bind _)
    have group : cellGroupAfter ue.hasCellGroup (first :: rest) = ue.hasCellGroup := by
      rcases lcid with lcid | lcid <;> simp only [cellGroupAfter, lcid]
    unfold estimateUlBufferLongBsr
    apply Treated.read
    · rcases lcid with lcid | lcid <;> simp [LastSubPdu, lcid, header]
    · intro _ fits
      obtain ⟨sum, summed⟩ := (longBsrSum_iff (first :: rest) (subheader + 1) _ 0).1 (.inl (report ▸ fits))
      rw [readByte_ok (by omega)]
      simp only [bind, Except.bind, summed]
      exact ⟨_, _, _, rfl, size.symm, group.symm⟩
    · intro short
      by_cases groups : subheader < (first :: rest).length
      · rw [readByte_ok groups]
        simp only [bind, Except.bind]
        by_cases reported : reportSize (first :: rest) ≤ (first :: rest).length
        · obtain ⟨sum, summed⟩ := (longBsrSum_iff (first :: rest) (subheader + 1) _ 0).1 (.inl (report ▸ reported))
          rw [summed]
          exact .inr ⟨⟨_, _, _, rfl, size.symm, group.symm⟩, by omega⟩
        · left
          rw [(longBsrSum_iff (first :: rest) (subheader + 1) _ 0).2 (by omega) (by omega)]
      · rw [readByte_error (by omega)]
        exact .inl rfl

theorem readTwo {α : Type} (bytes : List Byte) (use : Byte → Byte → Except Fault α) :
    (3 ≤ bytes.length → ∃ a b, (do let a ← readByte bytes 1; let b ← readByte bytes 2; use a b) = use a b) ∧
    (¬ 3 ≤ bytes.length →
      (do let a ← readByte bytes 1; let b ← readByte bytes 2; use a b) = .error .outOfBounds) := by
  constructor
  · intro fits
    rw [readByte_ok (by omega), readByte_ok (by omega)]
    exact ⟨_, _, rfl⟩
  · intro short
    by_cases second : 1 < bytes.length
    · rw [readByte_ok second, readByte_error (by omega)]
      rfl
    · rw [readByte_error (by omega)]
      rfl

theorem processCRnti_treated (lcid : ofByte first = .cRnti) :
    Treated ctx ue (first :: rest) (processCRnti ctx ue (first :: rest)) := by
  have size : subPduSize (first :: rest) = 3 := by simp only [subPduSize, lcid]
  unfold processCRnti
  cases idle : ctx.hasIdleRa with
  | false =>
    apply Treated.skipped
    · simp [LastSubPdu, lcid, idle]
    · simp [reportSize, lcid]
    · exact ⟨_, _, _, rfl, size.symm, by simp only [cellGroupAfter, lcid]⟩
  | true =>
    obtain ⟨enough, short⟩ := readTwo (first :: rest)
      (fun _ _ => (.error .assertion : Except Fault (UeUl × Next)))
    by_cases fits : 3 ≤ (first :: rest).length
    · obtain ⟨_, _, asserted⟩ := enough fits
      refine .inl ⟨?_, .inr (.inr asserted)⟩
      simpa [LastSubPdu, lcid, idle] using fits
    apply Treated.read
    · simpa [LastSubPdu, lcid, idle] using fits
    · intro complete
      exact absurd (size ▸ complete) fits
    · intro _
      exact .inl (short fits)

theorem processSingleEntryPhr_treated (lcid : ofByte first = .singleEntryPhr) :
    Treated ctx ue (first :: rest) (processSingleEntryPhr ctx ue (first :: rest)) := by
  have size : subPduSize (first :: rest) = 3 := by simp only [subPduSize, lcid]
  have report : reportSize (first :: rest) = 0 := by simp only [reportSize, lcid]
  unfold processSingleEntryPhr
  by_cases noHarq : ctx.harqPid < 0
  · rw [if_pos noHarq]
    exact .inl ⟨by simpa only [LastSubPdu, lcid] using noHarq, .inr (.inl ⟨_, _, _, rfl⟩)⟩
  rw [if_neg noHarq]
  obtain ⟨enough, short⟩ := readTwo (first :: rest)
    (fun ph pcmax => (pure (storePhr ctx ue ph pcmax, .advance 1 2 false) : Except Fault (UeUl × Next)))
  apply Treated.read
  · simpa only [LastSubPdu, lcid] using noHarq
  · intro fits _
    obtain ⟨_, _, stored⟩ := enough (size ▸ fits)
    exact ⟨_, _, _, stored, size.symm, by simp only [cellGroupAfter, lcid, storePhr]⟩
  · intro incomplete
    exact .inl (short (by omega))

theorem processMultiEntryPhr_treated
    (lcid : ofByte first = .multiEntryPhr1Oct ∨ ofByte first = .multiEntryPhr4Oct) :
    Treated ctx ue (first :: rest) (processMultiEntryPhr ue (first :: rest) (first :: rest).length) := by
  unfold processMultiEntryPhr
  rw [getMacLen_eq]
  left
  constructor
  · rcases lcid with lcid | lcid <;> simp only [LastSubPdu, lcid]
  · cases macLen (first :: rest) with
    | none => exact .inl ⟨_, _, rfl⟩
    | some lengths => exact .inr (.inl ⟨_, _, _, rfl⟩)

theorem readSdu_treated {length subheader : Nat} (change : List Byte → UeUl)
    (goesOn : ¬ LastSubPdu ctx ue.hasCellGroup bytes) (noReport : reportSize bytes = 0)
    (size : subPduSize bytes = subheader + length)
    (group : ∀ sdu, (change sdu).hasCellGroup = cellGroupAfter ue.hasCellGroup bytes) :
    Treated ctx ue bytes (do
      let sdu ← readSdu bytes subheader length
      return (change sdu, .advance subheader length false)) := by
  apply Treated.read goesOn
  · intro fits _
    rw [readSdu_ok (size ▸ fits)]
    exact ⟨_, _, _, rfl, size.symm, group _⟩
  · intro short
    rw [readSdu_error (by omega)]
    exact .inl rfl

theorem processDtch_treated {id : Nat} (lcid : ofByte first = .dtch id) :
    Treated ctx ue (first :: rest) (processDtch ue id (first :: rest) (first :: rest).length) := by
  unfold processDtch
  rw [getMacLen_eq]
  cases header : macLen (first :: rest) with
  | none => exact .inl ⟨by simpa only [LastSubPdu, lcid] using header, .inl ⟨_, _, rfl⟩⟩
  | some lengths =>
    apply readSdu_treated
    · simp [LastSubPdu, lcid, header]
    · simp [reportSize, lcid]
    · simp [subPduSize, lcid, header]
    · simp [cellGroupAfter, lcid, lowerBuffer, indicate]

theorem processSrb_treated {id : Nat} (lcid : ofByte first = .srb1 ∨ ofByte first = .srb2) :
    Treated ctx ue (first :: rest) (processSrb ue id (first :: rest) (first :: rest).length) := by
  unfold processSrb
  rw [getMacLen_eq]
  cases header : macLen (first :: rest) with
  | none =>
    refine .inl ⟨?_, .inl ⟨_, _, rfl⟩⟩
    rcases lcid with lcid | lcid <;> simp only [LastSubPdu, lcid] <;> exact .inl header
  | some lengths =>
    cases group : ue.hasCellGroup with
    | false =>
      refine .inl ⟨?_, .inr (.inr rfl)⟩
      rcases lcid with lcid | lcid <;> simp only [LastSubPdu, lcid] <;> exact .inr group
    | true =>
      apply readSdu_treated
      · rcases lcid with lcid | lcid <;> simp [LastSubPdu, lcid, header, group]
      · rcases lcid with lcid | lcid <;> simp only [reportSize, lcid]
      · rcases lcid with lcid | lcid <;> simp only [subPduSize, lcid, header, Option.map_some, Option.getD_some]
      · rcases lcid with lcid | lcid <;> simp [cellGroupAfter, lcid, indicate]

theorem processCcch1_treated (lcid : ofByte first = .ccch1) :
    Treated ctx ue (first :: rest) (processCcch1 ue (first :: rest) (first :: rest).length) := by
  have last : LastSubPdu ctx ue.hasCellGroup (first :: rest) ↔
      (first :: rest).length < 9 ∨ ((first :: rest).take 9).all (· = 0) = true := by
    simp [LastSubPdu, lcid]
  unfold processCcch1
  by_cases small : (first :: rest).length < 9
  · rw [if_pos small]
    exact .inl ⟨last.mpr (.inl small), .inl ⟨_, _, rfl⟩⟩
  rw [if_neg small, readSdu_ok (by omega)]
  by_cases zero : ((first :: rest).take 9).all (· = 0) = true
  · refine .inl ⟨last.mpr (.inr zero), .inr (.inl ?_)⟩
    simp only [bind, Except.bind, drop_zero]
    rw [if_pos zero]
    exact ⟨_, _, _, rfl⟩
  · simp only [bind, Except.bind, drop_zero]
    rw [if_neg zero]
    apply readSdu_treated
    · exact fun stops => (last.mp stops).elim small zero
    · simp [reportSize, lcid]
    · simp [subPduSize, lcid]
    · simp [cellGroupAfter, lcid, indicate]

theorem processSubPdu_treated (ctx : UlContext) (ue : UeUl) (first : Byte) (rest : List Byte) :
    Treated ctx ue (first :: rest) (processSubPdu ctx ue (first :: rest) (first :: rest).length) := by
  change Treated ctx ue (first :: rest) (processLcid ctx ue (first :: rest) (first :: rest).length (ofByte first))
  cases lcid : ofByte first with
  | recommendedBitrateQuery | configuredGrantConfirmation =>
    apply Treated.skipped
    · simp [LastSubPdu, lcid]
    · simp [reportSize, lcid]
    · exact ⟨_, _, _, rfl, by simp only [subPduSize, lcid], by simp only [cellGroupAfter, lcid]⟩
  | padding => exact .inl ⟨by simp only [LastSubPdu, lcid], .inr (.inl ⟨_, _, _, rfl⟩)⟩
  | unknown => exact .inl ⟨by simp only [LastSubPdu, lcid], .inl ⟨_, _, rfl⟩⟩
  | multiEntryPhr1Oct => exact processMultiEntryPhr_treated (.inl lcid)
  | multiEntryPhr4Oct => exact processMultiEntryPhr_treated (.inr lcid)
  | sBsr => exact processShortBsr_treated (.inl lcid)
  | sTruncatedBsr => exact processShortBsr_treated (.inr lcid)
  | lBsr => exact processLongBsr_treated (.inl lcid)
  | lTruncatedBsr => exact processLongBsr_treated (.inr lcid)
  | cRnti => exact processCRnti_treated lcid
  | singleEntryPhr => exact processSingleEntryPhr_treated lcid
  | srb1 => exact processSrb_treated (.inl lcid)
  | srb2 => exact processSrb_treated (.inr lcid)
  | ccch =>
    apply readSdu_treated
    · simp [LastSubPdu, lcid]
    · simp [reportSize, lcid]
    · simp [subPduSize, lcid]
    · simp [cellGroupAfter, lcid, indicate]
  | ccch1 => exact processCcch1_treated lcid
  | dtch id => exact processDtch_treated lcid

end

theorem macLen_bounds {length subheader : Nat} (header : macLen bytes = some (length, subheader)) :
    length < 2 ^ 16 ∧ 2 ≤ subheader ∧ subheader ≤ 3 ∧ subheader ≤ bytes.length := by
  unfold macLen at header
  split at header
  · split at header
    · split at header
      · cases header
        simp only [length_cons]
        omega
      · cases header
    · cases header
      simp only [length_cons]
      omega
  · cases header

theorem subPduSize_bounds (first : Byte) (rest : List Byte) {hasCellGroup : Bool}
    (goesOn : ¬ LastSubPdu ctx hasCellGroup (first :: rest)) :
    1 ≤ subPduSize (first :: rest) ∧ subPduSize (first :: rest) < 2 ^ 17 := by
  have lengths (notNone : macLen (first :: rest) ≠ none) :
      1 ≤ ((macLen (first :: rest)).map (fun (length, header) => header + length)).getD 0 ∧
      ((macLen (first :: rest)).map (fun (length, header) => header + length)).getD 0 < 2 ^ 17 := by
    cases header : macLen (first :: rest) with
    | none => exact absurd header notNone
    | some both =>
      have bounds := macLen_bounds header
      simp only [Option.map_some, Option.getD_some]
      omega
  unfold subPduSize
  unfold LastSubPdu at goesOn
  cases lcid : ofByte first <;> simp only [lcid] at goesOn ⊢
  case srb1 | srb2 => exact lengths (fun none => goesOn (.inl none))
  case dtch | lBsr | lTruncatedBsr => exact lengths goesOn
  all_goals first | decide | exact absurd trivial goesOn

variable {pduLen size macSubheaderLen macLen : Nat} {ue' : UeUl} {α : Type}

theorem remainingLen_of_le (bounded : pduLen < 2 ^ 32) (fits : size ≤ pduLen) :
    remainingLen pduLen size = pduLen - size := by
  unfold remainingLen
  omega

theorem remainingLen_ne_zero (beyond : pduLen < size) (small : size < 2 ^ 17) :
    remainingLen pduLen size ≠ 0 := by
  unfold remainingLen
  omega

theorem subPdus_advance (fuel : Nat) (remaining : pduLen ≠ 0)
    (next : processSubPdu ctx ue bytes pduLen = .ok (ue', .advance macSubheaderLen macLen false)) :
    subPdus ctx (fuel + 1) ue bytes pduLen = subPdus ctx fuel ue' (bytes.drop (macSubheaderLen + macLen))
        (remainingLen pduLen (macSubheaderLen + macLen)) := by
  rw [subPdus, if_neg remaining, next]
  rfl

theorem safe_of_stops (fuel : Nat) (remaining : pduLen ≠ 0)
    (stops : Stops (processSubPdu ctx ue bytes pduLen)) : Safe (subPdus ctx (fuel + 1) ue bytes pduLen) := by
  rw [subPdus, if_neg remaining]
  rcases stops with ⟨_, _, stops⟩ | ⟨_, _, _, stops⟩ | stops <;> rw [stops]
  · exact .inl ⟨_, rfl⟩
  · exact .inl ⟨_, rfl⟩
  · exact .inr rfl

theorem subPdus_past_end (ctx : UlContext) (fuel : Nat) (ue : UeUl) (remaining : pduLen ≠ 0) :
    subPdus ctx (fuel + 1) ue [] pduLen = .error .outOfBounds := by
  unfold subPdus
  rw [if_neg remaining]
  rfl

theorem not_safe_outOfBounds : ¬ Safe (.error .outOfBounds : Except Fault α) := by
  rintro (⟨_, returned⟩ | asserted)
  · cases returned
  · cases asserted

theorem subPdus_safe_iff (fuel : Nat) (enough : bytes.length < fuel) (bounded : bytes.length < 2 ^ 32) :
    Safe (subPdus ctx fuel ue bytes bytes.length) ↔ CompleteSubPdus ctx ue.hasCellGroup bytes := by
  induction fuel generalizing ue bytes with
  | zero => omega
  | succ fuel ih =>
    cases bytes with
    | nil => exact ⟨fun _ => .nil, fun _ => .inl ⟨_, rfl⟩⟩
    | cons first rest =>
      have nonempty : (first :: rest).length ≠ 0 := by simp
      rcases processSubPdu_treated ctx ue first rest with
        ⟨last, stops⟩ | ⟨goesOn, fits, reported, next⟩ | ⟨goesOn, short, next⟩
      · exact ⟨fun _ => .last last, fun _ => safe_of_stops fuel nonempty stops⟩
      · obtain ⟨ue', macSubheaderLen, macLen, next, size, group⟩ := next
        have positive := (subPduSize_bounds first rest goesOn).1
        have dropped : ((first :: rest).drop (subPduSize (first :: rest))).length < fuel := by
          rw [length_drop]
          omega
        rw [subPdus_advance fuel nonempty next, size, remainingLen_of_le bounded fits, ← length_drop,
          ih dropped (by rw [length_drop]; omega), group]
        constructor
        · exact .more fits reported
        · rintro (_ | last | ⟨_, _, rest⟩)
          · exact absurd last goesOn
          · exact rest
      · constructor
        · intro safe
          rcases next with outOfBounds | ⟨⟨ue', macSubheaderLen, macLen, next, size, _⟩, beyond⟩
          · rw [subPdus, outOfBounds] at safe
            exact absurd safe not_safe_outOfBounds
          have small := (subPduSize_bounds first rest goesOn).2
          obtain ⟨fuel, rfl⟩ : ∃ less, fuel = less + 1 := ⟨fuel - 1, by omega⟩
          rw [subPdus_advance (fuel + 1) nonempty next, size, drop_eq_nil_of_le (le_of_lt beyond),
            subPdus_past_end ctx fuel ue' (remainingLen_ne_zero beyond small)] at safe
          exact absurd safe not_safe_outOfBounds
        · rintro (_ | last | ⟨fits, reported, _⟩)
          · exact absurd last goesOn
          · exact absurd ⟨fits, reported⟩ short

/-- The parser ends without an access beyond the PDU, and gives RLC no SDU longer than the rest of it,
exactly if the PDU is not empty and its sub-PDUs are complete up to the one where the parser stops. -/
theorem process_mac_pdu_safe_iff (ctx : UlContext) (ue : UeUl) (pdu : List Byte) (bounded : pdu.length < 2 ^ 32) :
    Safe (nrProcessMacPdu ctx ue pdu) ↔ pdu ≠ [] ∧ CompleteSubPdus ctx ue.hasCellGroup pdu := by
  cases pdu with
  | nil => exact ⟨fun safe => absurd safe not_safe_outOfBounds, fun complete => absurd rfl complete.1⟩
  | cons first rest =>
    change Safe (subPdus ctx ((first :: rest).length + 1) ue (first :: rest) (first :: rest).length) ↔ _
    rw [subPdus_safe_iff _ (Nat.lt_succ_self _) bounded]
    simp

def grantedUl : UlContext where
  harqPid := 0
  rnti := 0x1234
  ra := []
  phFactor := 0

def connected : UeUl where
  hasCellGroup := true

def reportAndData : List Byte := [0x3d#8, 0x21#8, 0x04#8, 0x02#8, 0xaa#8, 0xbb#8, 0x3f#8]

theorem process_mac_pdu_safe_report_and_data :
    CompleteSubPdus grantedUl true reportAndData ∧ Safe (nrProcessMacPdu grantedUl connected reportAndData) := by
  have complete : CompleteSubPdus grantedUl true reportAndData := by
    apply CompleteSubPdus.more (by decide) (by decide)
    apply CompleteSubPdus.more (by decide) (by decide)
    apply CompleteSubPdus.last
    exact trivial
  exact ⟨complete, (process_mac_pdu_safe_iff grantedUl connected reportAndData (by decide)).mpr ⟨by decide, complete⟩⟩

/-- A PDU of two bytes makes the parser give RLC an SDU of 255 bytes. -/
theorem process_mac_pdu_long_sdu : nrProcessMacPdu grantedUl connected [0x04#8, 0xff#8] = .error .outOfBounds ∧
    ¬ Safe (nrProcessMacPdu grantedUl connected [0x04#8, 0xff#8]) := by
  have outside : nrProcessMacPdu grantedUl connected [0x04#8, 0xff#8] = .error .outOfBounds := by rfl
  exact ⟨outside, outside ▸ not_safe_outOfBounds⟩

/-- Behind a CCCH the SRB of a UE without a cell group is no longer refused, but handed on. -/
example : nrProcessMacPdu grantedUl { hasCellGroup := false }
    [0x34#8, 1#8, 2#8, 3#8, 4#8, 5#8, 6#8, 0x01#8, 0xff#8] = .error .outOfBounds := rfl

end OranSlice.Mac.UlPdu
