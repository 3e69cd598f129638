import OranSlice.Fapi.P5Message

/-! Pulls stay in the message, and lists of TLVs are read to their end: every P5 message but CONFIG.request is
unpacked. -/

namespace OranSlice.Fapi

open BitCodec Walk List

variable {message : List Byte} {position : Nat}

variable {count width length numBadTags after bad i left : Nat} {tl : Tl} {elements : List GenericTlv}

theorem readBytes_inside (inside : position + count ≤ message.length) :
    readBytes message position count = .ok ((message.drop position).take count) := by
  induction count generalizing position with
  | zero => rw [readBytes, take_zero]
  | succ count ih =>
    have here : position < message.length := by omega
    rw [readBytes, readAt_inside here 0, ih (by omega), drop_eq_getElem_cons here,
      getD_eq_getElem _ _ here]
    rfl

def valueAt (width : Nat) (message : List Byte) (position : Nat) : Nat := number ((message.drop position).take width)

theorem pull_there (inside : position + width ≤ message.length) :
    pull width message position = .ok (some (valueAt width message position), position + width) := by
  rw [pull, if_pos inside, readBytes_inside inside]
  rfl

theorem pull_missing (outside : message.length < position + width) :
    pull width message position = .ok (none, position) :=
  if_neg (by omega)

theorem pull_ok (width : Nat) (message : List Byte) (position : Nat) :
    ∃ value after, pull width message position = .ok (value, after) ∧ position ≤ after := by
  by_cases inside : position + width ≤ message.length
  · exact ⟨_, _, pull_there inside, Nat.le_add_right _ _⟩
  · exact ⟨_, _, pull_missing (by omega), le_refl _⟩

theorem pull_total (width : Nat) (message : List Byte) (position : Nat) :
    ∃ result, pull width message position = .ok result := by
  obtain ⟨value, after, pulled, _⟩ := pull_ok width message position
  exact ⟨_, pulled⟩

def tlAt (message : List Byte) (position : Nat) : Tl where
  tag := valueAt 2 message position
  length := valueAt 2 message (position + 2)

theorem unpackTl_there (inside : position + 4 ≤ message.length) :
    unpackTl message position = .ok (some (tlAt message position), position + 4) := by
  have first : pull16 message position = .ok (some (valueAt 2 message position), position + 2) :=
    pull_there (by omega)
  have second : pull16 message (position + 2) = .ok (some (valueAt 2 message (position + 2)), position + 2 + 2) :=
    pull_there (by omega)
  simp only [unpackTl, first, second, bind, Except.bind]
  rfl

theorem unpackTl_missing (outside : message.length < position + 4) :
    ∃ after, unpackTl message position = .ok (none, after) := by
  by_cases tag : position + 2 ≤ message.length
  · have first : pull16 message position = .ok (some (valueAt 2 message position), position + 2) := pull_there tag
    have second : pull16 message (position + 2) = .ok (none, position + 2) := pull_missing (by omega)
    refine ⟨position + 2, ?_⟩
    simp only [unpackTl, first, second, bind, Except.bind]
    rfl
  · have first : pull16 message position = .ok (none, position) := pull_missing (by omega)
    refine ⟨position, ?_⟩
    simp only [unpackTl, first]
    rfl

theorem skipUnknown_forward
    (skipped : skipUnknown message length position numBadTags = some (after, bad)) : position ≤ after := by
  unfold skipUnknown at skipped
  split at skipped
  · cases skipped
  split at skipped
  · cases skipped
    omega
  · cases skipped

theorem skipTlv_forward {config : Option VendorCodec}
    (skipped : skipTlv config message tl position numBadTags = some (after, bad)) : position ≤ after := by
  have forward : position ≤ (unpackVendorExtensionTlv config tl message position).2 := by
    cases config with
    | none => exact le_refl _
    | some codec => exact codec.forward tl message position
  unfold skipTlv at skipped
  dsimp only at skipped
  split at skipped
  · split at skipped
    · cases skipped
    split at skipped
    · exact le_trans forward (skipUnknown_forward skipped)
    · cases skipped
      exact forward
  · exact skipUnknown_forward skipped

theorem reportAt_ok (inside : i < count) : reportAt count i = .ok {} := by
  apply if_pos
  simp only [sizeofUint8Tlv, sizeofPointer]
  omega

theorem unpackReports_ok (message : List Byte) (fits : left ≤ count) (position : Nat) :
    ∃ reports after, unpackReports message count left position = .ok (reports, after) ∧ position ≤ after := by
  induction left generalizing position with
  | zero => exact ⟨[], position, rfl, le_refl _⟩
  | succ left ih =>
    obtain ⟨tag, second, pulledTag, tagForward⟩ := pull_ok 2 message position
    obtain ⟨length, third, pulledLength, lengthForward⟩ := pull_ok 1 message second
    obtain ⟨value, fourth, pulledValue, valueForward⟩ := pull_ok 1 message third
    obtain ⟨rest, after, later, forward⟩ := ih (by omega) (fourth + getTlvPadding (length.getD 0))
    have entry : reportAt count (count - (left + 1)) = .ok {} := reportAt_ok (by omega)
    simp only [unpackReports, pull16, pull8, entry, pulledTag, pulledLength, pulledValue, bind, Except.bind]
    rw [later]
    exact ⟨_, after, rfl, by omega⟩

theorem unpackParamTlv_ok (message : List Byte) (tl : Tl) (s : TlvList) (row : ParamTlv) :
    ∃ result after, unpackParamTlv message tl s row = .ok (result, after) ∧ s.position ≤ after.position := by
  cases row with
  | value kind =>
    obtain ⟨value, after, pulled, forward⟩ := pull_ok kind.width message s.position
    simp only [unpackParamTlv, pulled]
    exact ⟨_, _, rfl, Nat.le_add_right_of_le forward⟩
  | configTlvsToReport =>
    obtain ⟨value, second, pulled, forward⟩ := pull_ok 2 message s.position
    obtain ⟨reports, after, unpacked, later⟩ :=
      unpackReports_ok message (le_refl (value.getD (s.fields numConfigTlvsToReportTag)))
        (second + getTlvPadding tl.length)
    simp only [unpackParamTlv, unpackConfigTlvsToReport, pull16, pulled, unpacked, bind, Except.bind]
    refine ⟨_, _, rfl, ?_⟩
    dsimp only
    omega

section

variable (config : Option VendorCodec) (unpackFns : List (Nat × ParamTlv)) (message : List Byte)

theorem tlvListTurn_progress (s : TlvList) :
    (∃ result, tlvListTurn config unpackFns message s = .ok (.stop result)) ∨
      ∃ next, tlvListTurn config unpackFns message s = .ok (.again next) ∧
        message.length - next.position < message.length - s.position := by
  unfold tlvListTurn
  by_cases more : s.position < message.length
  · rw [if_pos more]
    by_cases inside : s.position + 4 ≤ message.length
    · rw [unpackTl_there inside]
      simp only [bind, Except.bind]
      split
      · rename_i row _
        obtain ⟨result, after, unpacked, forward⟩ := unpackParamTlv_ok message (tlAt message s.position)
          { s with position := s.position + 4 } row
        rw [unpacked]
        cases result with
        | false => exact .inl ⟨_, rfl⟩
        | true =>
          refine .inr ⟨after, rfl, ?_⟩
          dsimp only at forward
          omega
      · split
        · exact .inl ⟨_, rfl⟩
        rename_i skipped
        have forward := skipTlv_forward skipped
        refine .inr ⟨_, rfl, ?_⟩
        dsimp only
        omega
    · obtain ⟨after, missing⟩ := @unpackTl_missing message s.position (by omega)
      rw [missing]
      exact .inl ⟨_, rfl⟩
  · rw [if_neg more]
    exact .inl ⟨_, rfl⟩

theorem unpackNrTlvList_returns (position : Nat) :
    ∃ fuel result, unpackNrTlvList config unpackFns fuel message position = .ok result := by
  obtain ⟨result, ⟨fuel, returned⟩, _⟩ := @returns_of_reaches _ _ (tlvListTurn config unpackFns message) { position }
    (fun _ => True) (fun _ => True) (fun s => message.length - s.position)
    (fun s _ => (tlvListTurn_progress config unpackFns message s).imp
      (fun ⟨result, stopped⟩ => ⟨result, stopped, trivial⟩) id)
    (fun _ _ => trivial)
  exact ⟨fuel, result, returned⟩

end

theorem unpackTl_total (message : List Byte) (position : Nat) : ∃ result, unpackTl message position = .ok result := by
  refine ok_bind (pull_total 2 message position) fun ⟨tag, second⟩ => ?_
  cases tag with
  | none => exact ⟨_, rfl⟩
  | some tag =>
    refine ok_bind (pull_total 2 message second) fun ⟨length, after⟩ => ?_
    cases length with
    | none => exact ⟨_, rfl⟩
    | some length => exact ⟨_, rfl⟩

theorem pullArray16_ok (message : List Byte) (left position : Nat) :
    ∃ result, pullArray16 message left position = .ok result := by
  induction left generalizing position with
  | zero => exact ⟨_, rfl⟩
  | succ left ih => exact ok_bind (pull_total 2 message position) fun _ => ok_bind (ih _) fun _ => ⟨_, rfl⟩

theorem unpackGenericValue_ok (message : List Byte) (length position : Nat) :
    ∃ result, unpackGenericValue message length position = .ok result := by
  have single := fun width => @ok_bind _ _ _ (fun pulled => .ok ([pulled.1.getD 0], pulled.2))
    (pull_total width message position) fun _ => ⟨_, rfl⟩
  unfold unpackGenericValue
  split
  · exact single 1
  · exact single 2
  · exact single 4
  · exact pullArray16_ok message 5 position
  · exact ⟨_, rfl⟩

theorem genericTlvs_ok (message : List Byte) (fits : left ≤ elements.length) (numBadTags position : Nat) :
    ∃ result, genericTlvs message left elements numBadTags position = .ok result := by
  induction left generalizing elements numBadTags position with
  | zero => exact ⟨_, rfl⟩
  | succ left ih =>
    have inside : elements.length - (left + 1) < elements.length := by omega
    refine ok_bind ⟨_, readAt_inside inside {}⟩ fun element => ok_bind (unpackTl_total message position) ?_
    rintro ⟨tl, after⟩
    cases tl with
    | none => exact ⟨_, rfl⟩
    | some tl =>
      dsimp only
      generalize (if tl.tag < configDlBandwidthTag ∨ tl.tag > configRssiMeasurementTag then numBadTags + 1
        else numBadTags) = bad
      split
      · exact ⟨_, rfl⟩
      · refine ok_bind (unpackGenericValue_ok message tl.length after) fun _ => ih ?_ _ _
        simp only [length_set]
        omega

theorem unpackNrGenericTlvList_ok (tlvCount : Nat) (message : List Byte) (position : Nat) :
    ∃ result, unpackNrGenericTlvList tlvCount message position = .ok result :=
  genericTlvs_ok message (by rw [length_replicate]) 0 position

theorem pullOctets_ok (message : List Byte) (count position : Nat) :
    ∃ result, pullOctets message count position = .ok result := by
  induction count generalizing position with
  | zero => exact ⟨_, rfl⟩
  | succ count ih =>
    refine ok_bind (pull_total 1 message position) fun ⟨value, after⟩ => ?_
    cases value with
    | none => exact ⟨_, rfl⟩
    | some value => exact ok_bind (ih after) fun _ => ⟨_, rfl⟩

theorem returns_bind {α β : Type} {unpack : Nat → Except Fault α} (returns : ∃ fuel result, unpack fuel = .ok result)
    (use : α → β) : ∃ fuel result, (unpack fuel).bind (fun result => .ok (use result)) = .ok result := by
  obtain ⟨fuel, returned⟩ := returns
  exact ⟨fuel, (ok_bind_iff use).mpr returned⟩

section

variable (config : Option VendorCodec)

include config

theorem unpackNrParamResponse_returns (inside : position ≤ message.length) :
    ∃ fuel result, unpackNrParamResponse config fuel message position = .ok result := by
  refine ok_bind_fuel ⟨_, readBytes_inside (by omega)⟩ fun _ =>
    ok_bind_fuel (pullOctets_ok message 2 position) fun ⟨octets, second⟩ => ?_
  dsimp only
  split
  · exact returns_bind (unpackNrTlvList_returns config paramUnpackFns message second) _
  · exact ⟨0, _, rfl⟩

section

variable (message : List Byte) (position : Nat)

theorem unpackNrConfigResponse_returns :
    ∃ fuel result, unpackNrConfigResponse config fuel message position = .ok result :=
  ok_bind_fuel (pullOctets_ok message 5 position) fun _ =>
    ok_bind_fuel (unpackNrGenericTlvList_ok _ message _) fun _ =>
    ok_bind_fuel (unpackNrGenericTlvList_ok _ message _) fun _ =>
    ok_bind_fuel (unpackNrGenericTlvList_ok _ message _) fun _ =>
    ok_bind_fuel (unpackNrGenericTlvList_ok _ message _) fun _ =>
    returns_bind (unpackNrTlvList_returns config [] message _) _

theorem unpackVendorExtensions_returns :
    ∃ fuel result, unpackVendorExtensions config fuel message position = .ok result :=
  returns_bind (unpackNrTlvList_returns config [] message position) _

theorem unpackNrStartResponse_returns :
    ∃ fuel result, unpackNrStartResponse config fuel message position = .ok result := by
  refine ok_bind_fuel (pull_total 1 message position) fun ⟨value, after⟩ => ?_
  cases value with
  | none => exact ⟨0, _, rfl⟩
  | some errorCode => exact returns_bind (unpackNrTlvList_returns config [] message after) _

theorem unpackNrErrorIndication_returns :
    ∃ fuel result, unpackNrErrorIndication config fuel message position = .ok result :=
  ok_bind_fuel (pull_total 2 message position) fun _ => ok_bind_fuel (pull_total 2 message _) fun _ =>
    ok_bind_fuel (pull_total 1 message _) fun _ => ok_bind_fuel (pull_total 1 message _) fun _ =>
    returns_bind (unpackNrTlvList_returns config [] message _) _

end

end

def configRequestId : Nat := 0x02

theorem unpackBody_returns (config : Option VendorCodec) (inside : headerLength ≤ message.length) {messageId : Nat}
    (other : messageId ≠ configRequestId) : ∃ fuel result, unpackBody config fuel message messageId = .ok result := by
  have extended := fun use => @returns_bind _ (Int × Option Unpacked) _
    (unpackVendorExtensions_returns config message headerLength) use
  unfold unpackBody
  split
  · exact ⟨0, _, rfl⟩
  · exact returns_bind (unpackNrParamResponse_returns config inside) _
  · exact absurd rfl other
  · exact returns_bind (unpackNrConfigResponse_returns config message headerLength) _
  · exact extended _
  · exact returns_bind (unpackNrStartResponse_returns config message headerLength) _
  · exact extended _
  · exact extended _
  · exact returns_bind (unpackNrErrorIndication_returns config message headerLength) _
  · exact ⟨0, _, rfl⟩

end OranSlice.Fapi
