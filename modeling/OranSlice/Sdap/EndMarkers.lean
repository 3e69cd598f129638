import Mathlib.Tactic

/-! The UE's mapping of QoS flows to DRBs, and the end markers that a change of it submits. -/

namespace OranSlice.Sdap

/-- A row of `qfi2drb_table`, where DRB 0 is no rule. -/
structure Qfi2drb where
  drbId : Nat
  (hasSdapRx hasSdapTx : Bool)

structure SdapEntity where
  defaultDrb : Nat
  qfi2drbTable : Fin 64 → Qfi2drb

structure DrbIdentity where
  id : Nat
  positive : 0 < id

inductive MapType where
  | defDrb
  | ruleDrb

def submitCtrlPdu (drb : Nat) : List Nat := if drb ≠ 0 then [drb] else []

namespace SdapEntity

variable (entity : SdapEntity) (qfi : Fin 64) (drb : DrbIdentity) (hasSdapRx hasSdapTx : Bool)

def qfi2drbMapUpdate (drb : Nat) : SdapEntity :=
  if 0 < qfi.val ∧ 0 < drb ∧ drb ≤ 5 then
    { entity with qfi2drbTable := Function.update entity.qfi2drbTable qfi ⟨drb, hasSdapRx, hasSdapTx⟩ }
  else entity

def qfi2drbMap : Nat × SdapEntity :=
  let row := entity.qfi2drbTable qfi
  if row.drbId ≠ 0 then (row.drbId, entity)
  -- the default DRB is stored as the rule, with the flags that the row has
  else if entity.defaultDrb ≠ 0 then
    (entity.defaultDrb, entity.qfi2drbMapUpdate qfi row.hasSdapRx row.hasSdapTx entity.defaultDrb)
  else (0, entity)

def mapCtrlPdu : MapType → Nat × SdapEntity
  | .defDrb => (entity.defaultDrb, entity)
  | .ruleDrb => entity.qfi2drbMap qfi

def endMarker (due : Bool) (mapType : MapType) : List Nat × SdapEntity :=
  if due then
    let (drb, mapped) := entity.mapCtrlPdu qfi mapType
    (submitCtrlPdu drb, mapped)
  else ([], entity)

def reflectiveMapping : List Nat × SdapEntity :=
  let rule := (entity.qfi2drbTable qfi).drbId
  let (toDefault, entity) := entity.endMarker qfi (rule = 0 ∧ entity.defaultDrb ≠ 0) .defDrb
  let (toRule, entity) := entity.endMarker qfi (drb.id ≠ rule) .ruleDrb
  (toDefault ++ toRule, { entity with
    qfi2drbTable := Function.update entity.qfi2drbTable qfi { entity.qfi2drbTable qfi with drbId := drb.id } })

/-- One round of the loop of `nr_sdap_ue_qfi2drb_config` over the QFIs to add. -/
def ueQfi2drbConfig : List Nat × SdapEntity :=
  let row := entity.qfi2drbTable qfi
  let (toDefault, entity) := entity.endMarker qfi (entity.defaultDrb ≠ 0 ∧ row.drbId = 0) .defDrb
  let (toRule, entity) := entity.endMarker qfi (row.drbId ≠ drb.id ∧ row.hasSdapTx) .ruleDrb
  (toDefault ++ toRule, entity.qfi2drbMapUpdate qfi hasSdapRx hasSdapTx drb.id)

/-- The DRB that carries a QoS flow: that of the stored rule, else the default DRB. -/
def carrier : Nat :=
  if (entity.qfi2drbTable qfi).drbId ≠ 0 then (entity.qfi2drbTable qfi).drbId else entity.defaultDrb

def EndMarkersRight (update : List Nat × SdapEntity) : Prop :=
  update.1.length ≤ 1 ∧ ∀ marked ∈ update.1, marked = entity.carrier qfi ∧ marked ≠ update.2.carrier qfi

instance (update : List Nat × SdapEntity) : Decidable (entity.EndMarkersRight qfi update) :=
  inferInstanceAs (Decidable (_ ∧ _))

variable {entity qfi drb hasSdapRx hasSdapTx}

theorem carrier_mapUpdate : (entity.qfi2drbMapUpdate qfi hasSdapRx hasSdapTx drb.id).carrier qfi =
    if 0 < qfi.val ∧ drb.id ≤ 5 then drb.id else entity.carrier qfi := by
  have positive : drb.id ≠ 0 := ne_of_gt drb.positive
  by_cases valid : 0 < qfi.val ∧ drb.id ≤ 5
  · rw [if_pos valid, qfi2drbMapUpdate, if_pos ⟨valid.1, drb.positive, valid.2⟩]
    simp [carrier, positive]
  · rw [if_neg valid, qfi2drbMapUpdate, if_neg (fun all => valid ⟨all.1, all.2.2⟩)]

theorem qfi2drbMap_carrier : (entity.qfi2drbMap qfi).1 = entity.carrier qfi ∧
    (entity.qfi2drbMap qfi).2.carrier qfi = entity.carrier qfi := by
  by_cases stored : (entity.qfi2drbTable qfi).drbId = 0
  · by_cases default : entity.defaultDrb = 0
    · simp [qfi2drbMap, carrier, stored, default]
    · have mapped := @carrier_mapUpdate entity qfi ⟨entity.defaultDrb, Nat.pos_of_ne_zero default⟩
        (entity.qfi2drbTable qfi).hasSdapRx (entity.qfi2drbTable qfi).hasSdapTx
      simp_all [qfi2drbMap, carrier]
  · simp [qfi2drbMap, carrier, stored]

theorem endMarker_default : entity.endMarker qfi (decide ((entity.qfi2drbTable qfi).drbId = 0 ∧ entity.defaultDrb ≠ 0))
    .defDrb = (if (entity.qfi2drbTable qfi).drbId = 0 then submitCtrlPdu (entity.carrier qfi) else [], entity) := by
  by_cases stored : (entity.qfi2drbTable qfi).drbId = 0
  · by_cases default : entity.defaultDrb = 0 <;> simp [endMarker, mapCtrlPdu, submitCtrlPdu, carrier, stored, default]
  · simp [endMarker, stored]

theorem endMarker_rule (due : Bool) :
    (entity.endMarker qfi due .ruleDrb).1 = (if due then submitCtrlPdu (entity.carrier qfi) else []) ∧
    (entity.endMarker qfi due .ruleDrb).2.carrier qfi = entity.carrier qfi := by
  cases due with
  | false => exact ⟨rfl, rfl⟩
  | true => exact ⟨congrArg submitCtrlPdu qfi2drbMap_carrier.1, qfi2drbMap_carrier.2⟩

theorem endMarkersRight_iff (missing moved : Prop) [Decidable missing] [Decidable moved] (after : SdapEntity) :
    entity.EndMarkersRight qfi ((if missing then submitCtrlPdu (entity.carrier qfi) else []) ++
      (if moved then submitCtrlPdu (entity.carrier qfi) else []), after) ↔
    (entity.carrier qfi ≠ 0 → missing ∨ moved →
      ¬ (missing ∧ moved) ∧ entity.carrier qfi ≠ after.carrier qfi) := by
  by_cases first : missing <;> by_cases second : moved <;> by_cases none : entity.carrier qfi = 0 <;>
    simp [EndMarkersRight, submitCtrlPdu, first, second, none]

variable (entity qfi drb hasSdapRx hasSdapTx)

theorem end_markers_right_iff :
    (entity.EndMarkersRight qfi (entity.reflectiveMapping qfi drb) ↔
      (entity.qfi2drbTable qfi).drbId ≠ 0 ∨ entity.defaultDrb = 0) ∧
    (entity.EndMarkersRight qfi (entity.ueQfi2drbConfig qfi drb hasSdapRx hasSdapTx) ↔
      ((entity.qfi2drbTable qfi).drbId ≠ 0 → (entity.qfi2drbTable qfi).drbId ≠ drb.id →
        (entity.qfi2drbTable qfi).hasSdapTx → 0 < qfi.val ∧ drb.id ≤ 5) ∧
      ((entity.qfi2drbTable qfi).drbId = 0 → entity.defaultDrb ≠ 0 →
        (entity.qfi2drbTable qfi).hasSdapTx = false ∧ drb.id ≠ entity.defaultDrb ∧ 0 < qfi.val ∧ drb.id ≤ 5)) := by
  have positive : drb.id ≠ 0 := ne_of_gt drb.positive
  constructor
  · obtain ⟨marked, _⟩ := @endMarker_rule entity qfi (decide (drb.id ≠ (entity.qfi2drbTable qfi).drbId))
    simp only [reflectiveMapping, endMarker_default, marked]
    rw [endMarkersRight_iff]
    by_cases stored : (entity.qfi2drbTable qfi).drbId = 0
    · simp [carrier, stored, positive]
    · simp [carrier, stored, positive, ne_comm]
  · obtain ⟨marked, kept⟩ := @endMarker_rule entity qfi
      (decide ((entity.qfi2drbTable qfi).drbId ≠ drb.id ∧ (entity.qfi2drbTable qfi).hasSdapTx))
    simp only [ueQfi2drbConfig, @and_comm (entity.defaultDrb ≠ 0), endMarker_default, marked]
    rw [endMarkersRight_iff, carrier_mapUpdate, kept]
    by_cases stored : (entity.qfi2drbTable qfi).drbId = 0
    · by_cases valid : 0 < qfi.val ∧ drb.id ≤ 5
      · simp [carrier, stored, valid, Ne.symm positive, @eq_comm _ drb.id]
      · simp [-Fin.val_pos_iff, carrier, stored, valid]
    · by_cases valid : 0 < qfi.val ∧ drb.id ≤ 5
      · simp +contextual [carrier, stored, valid]
      · simp [-Fin.val_pos_iff, carrier, stored, valid]

def defaultOnly : SdapEntity := ⟨1, fun _ => ⟨0, false, false⟩⟩

/-- The flow stays on the default DRB, and two markers are submitted there. -/
theorem reflective_mapping_marks_twice :
    (defaultOnly.reflectiveMapping 9 ⟨1, Nat.one_pos⟩).1 = [1, 1] ∧
    ¬ defaultOnly.EndMarkersRight 9 (defaultOnly.reflectiveMapping 9 ⟨1, Nat.one_pos⟩) := by
  decide

end SdapEntity

end OranSlice.Sdap
