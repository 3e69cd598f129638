import OranSlice.Core.Runs
import OranSlice.Core.Walk

/-! The slice table of the MAC, an array of pointers that is read up to a null pointer, and the E2 control
path that rewrites its policies. Ratios and the sums over them are bytes. -/

namespace OranSlice.Mac

open Runs Walk List

structure Nssai where
  sst : BitVec 8
  sd : BitVec 32
deriving DecidableEq, Repr

structure SlicePrbPolicy where
  (dedicatedRatio minRatio maxRatio : BitVec 8)
deriving DecidableEq, Repr

/-- One entry of the slice table; `sid` 0 is the default slice for SRB traffic. -/
structure SliceInfo where
  sid : Nat
  nssai : Nssai
  spolicy : SlicePrbPolicy
deriving DecidableEq, Repr

def configuredPolicy : SlicePrbPolicy := ⟨0, 0, 100⟩

variable (snssai : List Nssai)

def configuredSlices : List SliceInfo :=
  ⟨0, ⟨0, 0⟩, configuredPolicy⟩ ::
    snssai.mapIdx (fun s nssai => ⟨s + 1, nssai, configuredPolicy⟩)

def maxNumSlice : Nat := 8

/-- `SL_info.list`, an array of `MAX_NUM_SLICE + 1` pointers that are null at first. -/
abbrev SlicePointers := List (Option SliceInfo)

/-- The table of a configuration; `none` is the fatal assertion on the number of slices. -/
def configureSlices (snssai : List Nssai) : Option SlicePointers :=
  if snssai.length ≤ maxNumSlice then
    some ((configuredSlices snssai).map some ++
      replicate (maxNumSlice + 1 - (configuredSlices snssai).length) none)
  else none

def slIterator : SlicePointers → Except Fault (List SliceInfo)
  | [] => .error .outOfBounds
  | none :: _ => .ok []
  | some slice :: rest => do
      let later ← slIterator rest
      return slice :: later

/-- An `SL_iterator` loop whose body rewrites the slice. -/
def rewriteSlices (body : SliceInfo → SliceInfo) : SlicePointers → Except Fault SlicePointers
  | [] => .error .outOfBounds
  | none :: rest => .ok (none :: rest)
  | some slice :: rest => do
      let later ← rewriteSlices body rest
      return some (body slice) :: later

def slicesOf : SlicePointers → List SliceInfo
  | some slice :: rest => slice :: slicesOf rest
  | _ => []

/-- The SLICING_CONTROL message; all fields are `int32` on the wire. -/
structure SlicingControlM where
  sst : BitVec 32
  sd : Option (BitVec 32)
  (minRatio maxRatio : BitVec 32)
deriving DecidableEq, Repr

namespace SlicingControlM

variable (message : SlicingControlM)

/-- The slice the message addresses, after the truncation of `sst` to a byte. -/
def nssai : Nssai :=
  ⟨message.sst.setWidth 8, message.sd.getD 0xffffff⟩

def minByte : BitVec 8 := message.minRatio.setWidth 8

def maxByte : BitVec 8 := message.maxRatio.setWidth 8

end SlicingControlM

def SliceInfo.update (message : SlicingControlM) (slice : SliceInfo) : SliceInfo :=
  if slice.nssai = message.nssai then
    { slice with spolicy :=
        { slice.spolicy with minRatio := message.minByte, maxRatio := message.maxByte } }
  else slice

variable (slices : List SliceInfo)

/-- The `uint8_t` accumulator of `apply_slicing_ctrl`. -/
def sumMinRatio : BitVec 8 :=
  slices.foldl (fun sum slice => sum + slice.spolicy.minRatio) 0

/-- Why `apply_slicing_ctrl` does not return: it reads behind the table, or the fatal assertion on the sum of
the minimum ratios. -/
inductive ControlStop where
  | outOfBounds | sumMinRatio
deriving DecidableEq, Repr

/-- The table is rewritten first and checked afterwards. -/
def applySlicingCtrl (table : SlicePointers) (message : SlicingControlM) : Except ControlStop SlicePointers :=
  match rewriteSlices (SliceInfo.update message) table with
  | .error _ => .error .outOfBounds
  | .ok updated => if sumMinRatio (slicesOf updated) > 100 then .error .sumMinRatio else .ok updated

def controlStep (table : SlicePointers) (message : SlicingControlM) : Option SlicePointers :=
  (applySlicingCtrl table message).toOption

structure UeGbr where
  rnti : BitVec 16
  isGbr : Bool
  (guaranteedTbsBytesDl guaranteedTbsBytesUl : BitVec 32)
deriving DecidableEq, Repr

structure E2State where
  (gnbId something : Int)
  (maxPrb trueGbr : BitVec 32)
  ues : List UeGbr
  slInfo : SlicePointers

/-- A target parameter with the value its key calls for. -/
inductive RanParam where
  | gnbId (value : Int)
  | something (value : Int)
  | ueList (settings : List UeGbr)
  | maxPrb (value : BitVec 64)
  | useTrueGbr (value : BitVec 64)
  | slicingControl (message : SlicingControlM)
  | unrecognized (key : Nat)

def setGbrUe (setting : UeGbr) : List UeGbr → List UeGbr
  | [] => []
  | ue :: rest => if ue.rnti = setting.rnti then setting :: rest else ue :: setGbrUe setting rest

def applyUeInfo (ues : List UeGbr) (settings : List UeGbr) : List UeGbr :=
  settings.foldl (fun ues setting => setGbrUe setting ues) ues

variable (state : E2State) (targetParamMap : List RanParam)

def ranWrite : RanParam → Option E2State
  | .gnbId value => some { state with gnbId := value }
  | .something value => some { state with something := value }
  | .ueList settings => some { state with ues := applyUeInfo state.ues settings }
  | .maxPrb value => some { state with maxPrb := value.setWidth 32 }
  | .useTrueGbr value => some { state with trueGbr := value.setWidth 32 }
  | .slicingControl message =>
    (controlStep state.slInfo message).map (fun table => { state with slInfo := table })
  | .unrecognized _ => some state

def handleControl : Option E2State :=
  run ranWrite state targetParamMap

def slicingMessages : List SlicingControlM :=
  targetParamMap.filterMap fun
    | .slicingControl message => some message
    | _ => none

def totalMinRatio : Nat :=
  (slices.map (fun slice => slice.spolicy.minRatio.toNat)).sum

def SlicePrbPolicy.InRange (policy : SlicePrbPolicy) : Prop :=
  policy.minRatio ≤ policy.maxRatio ∧ policy.maxRatio ≤ 100

instance (policy : SlicePrbPolicy) : Decidable policy.InRange :=
  inferInstanceAs (Decidable (_ ∧ _))

def PolicySound : Prop :=
  totalMinRatio slices ≤ 100 ∧ ∀ slice ∈ slices, slice.spolicy.InRange

instance (slices : List SliceInfo) : Decidable (PolicySound slices) :=
  inferInstanceAs (Decidable (_ ∧ _))

/-- A slicing message that misses every slice, or asks for a sound range whose sum with the other
reservations fits the byte counter. -/
def SlicingControlM.Fits (message : SlicingControlM) : Prop :=
  (∀ slice ∈ slices, slice.nssai ≠ message.nssai) ∨ (message.minByte ≤ message.maxByte ∧ message.maxByte ≤ 100 ∧
      totalMinRatio (slices.filter (fun slice => slice.nssai ≠ message.nssai)) +
        slices.countP (fun slice => slice.nssai = message.nssai) * message.minByte.toNat < 256)

instance (slices : List SliceInfo) (message : SlicingControlM) : Decidable (message.Fits slices) :=
  inferInstanceAs (Decidable (_ ∨ _))

@[simp] theorem totalMinRatio_nil : totalMinRatio [] = 0 := rfl

@[simp] theorem totalMinRatio_cons (slice : SliceInfo) (rest : List SliceInfo) :
    totalMinRatio (slice :: rest) = slice.spolicy.minRatio.toNat + totalMinRatio rest := by
  simp [totalMinRatio]

private theorem foldl_minRatio_toNat (start : BitVec 8) :
    (slices.foldl (fun sum slice => sum + slice.spolicy.minRatio) start).toNat =
      (start.toNat + totalMinRatio slices) % 256 := by
  induction slices generalizing start with
  | nil => simp [Nat.mod_eq_of_lt start.isLt]
  | cons slice rest ih =>
    rw [foldl_cons, ih, BitVec.toNat_add, totalMinRatio_cons]
    omega

theorem sumMinRatio_toNat : (sumMinRatio slices).toNat = totalMinRatio slices % 256 := by
  rw [sumMinRatio, foldl_minRatio_toNat]
  simp

variable {slices updated : List SliceInfo} {message : SlicingControlM} {slice : SliceInfo}

theorem sumMinRatio_gt_iff (slices : List SliceInfo) :
    sumMinRatio slices > 100 ↔ 100 < totalMinRatio slices % 256 := by
  rw [← sumMinRatio_toNat]
  rfl

theorem totalMinRatio_update (slices : List SliceInfo) (message : SlicingControlM) :
    totalMinRatio (slices.map (SliceInfo.update message)) =
      totalMinRatio (slices.filter (fun slice => slice.nssai ≠ message.nssai)) +
        slices.countP (fun slice => slice.nssai = message.nssai) * message.minByte.toNat := by
  induction slices with
  | nil => simp
  | cons slice rest ih =>
    by_cases addressed : slice.nssai = message.nssai
    · simp [SliceInfo.update, addressed, ih, Nat.add_mul]
      omega
    · simp [SliceInfo.update, addressed, ih]
      omega

theorem update_missed (missed : ∀ slice ∈ slices, slice.nssai ≠ message.nssai) :
    slices.map (SliceInfo.update message) = slices := by
  refine (map_congr_left ?_).trans (map_id slices)
  intro slice member
  simp [SliceInfo.update, missed slice member]

theorem update_inRange_iff (sound : slice.spolicy.InRange) :
    (slice.update message).spolicy.InRange ↔
      (slice.nssai = message.nssai → message.minByte ≤ message.maxByte ∧ message.maxByte ≤ 100) := by
  by_cases addressed : slice.nssai = message.nssai
  · simp [SliceInfo.update, addressed, SlicePrbPolicy.InRange]
  · simp [SliceInfo.update, addressed, sound]

theorem policySound_update_iff (sound : PolicySound slices)
    (checked : totalMinRatio (slices.map (SliceInfo.update message)) % 256 ≤ 100) :
    PolicySound (slices.map (SliceInfo.update message)) ↔ message.Fits slices := by
  by_cases missed : ∀ slice ∈ slices, slice.nssai ≠ message.nssai
  · rw [update_missed missed]
    exact ⟨fun _ => .inl missed, fun _ => sound⟩
  have addressed : ∃ slice ∈ slices, slice.nssai = message.nssai := by
    simpa using missed
  have ranges : (∀ slice ∈ slices.map (SliceInfo.update message), slice.spolicy.InRange) ↔
      message.minByte ≤ message.maxByte ∧ message.maxByte ≤ 100 := by
    rw [forall_mem_map]
    constructor
    · intro all
      obtain ⟨slice, member, same⟩ := addressed
      exact (update_inRange_iff (sound.2 slice member)).mp (all slice member) same
    · intro range slice member
      exact (update_inRange_iff (sound.2 slice member)).mpr (fun _ => range)
  rw [PolicySound, ranges, SlicingControlM.Fits, or_iff_right missed, ← totalMinRatio_update]
  constructor
  · rintro ⟨fits, range⟩
    exact ⟨range.1, range.2, by omega⟩
  · rintro ⟨lower, upper, unwrapped⟩
    exact ⟨by omega, lower, upper⟩

section Table

variable {table after : SlicePointers} {body : SliceInfo → SliceInfo}

theorem slIterator_eq (table : SlicePointers) :
    slIterator table = if none ∈ table then .ok (slicesOf table) else .error .outOfBounds := by
  induction table with
  | nil => rfl
  | cons pointer rest ih =>
    cases pointer with
    | none => rw [if_pos mem_cons_self]; rfl
    | some slice =>
      rw [slIterator, ih, slicesOf]
      by_cases ends : none ∈ rest <;> simp [ends]

theorem rewriteSlices_full (full : none ∉ table) : rewriteSlices body table = .error .outOfBounds := by
  induction table with
  | nil => rfl
  | cons pointer rest ih =>
    cases pointer with
    | none => exact absurd mem_cons_self full
    | some slice =>
      rw [rewriteSlices, ih (fun inside => full (mem_cons_of_mem _ inside))]
      rfl

theorem rewriteSlices_eq (ends : none ∈ table) : ∃ after, rewriteSlices body table = .ok after ∧
    none ∈ after ∧ slicesOf after = (slicesOf table).map body := by
  induction table with
  | nil => cases ends
  | cons pointer rest ih =>
    cases pointer with
    | none => exact ⟨none :: rest, rfl, mem_cons_self, rfl⟩
    | some slice =>
      obtain ⟨after, rewritten, inside, mapped⟩ := ih (by simpa using ends)
      refine ⟨some (body slice) :: after, ?_, mem_cons_of_mem _ inside, ?_⟩
      · rw [rewriteSlices, rewritten]
        rfl
      · rw [slicesOf, slicesOf, mapped, map_cons]

theorem configuredSlices_length : (configuredSlices snssai).length = snssai.length + 1 := by
  simp [configuredSlices]

theorem slicesOf_configured (accepted : configureSlices snssai = some table) :
    slicesOf table = configuredSlices snssai ∧ (none ∈ table ↔ snssai.length < maxNumSlice) := by
  have before (slices : List SliceInfo) (count : Nat) :
      slicesOf (slices.map some ++ replicate count none) = slices := by
    induction slices with
    | nil => cases count <;> rfl
    | cons slice slices ih => rw [map_cons, cons_append, slicesOf, ih]
  rw [configureSlices] at accepted
  split at accepted
  · cases accepted
    refine ⟨before _ _, ?_⟩
    simp only [mem_append, mem_map, reduceCtorEq, and_false, exists_false, false_or, mem_replicate, and_true,
      configuredSlices_length]
    omega
  · cases accepted

theorem applySlicingCtrl_stops_iff :
    applySlicingCtrl table message = .error .outOfBounds ↔ none ∉ table := by
  constructor
  · intro stopped ends
    obtain ⟨after, rewritten, _, _⟩ := @rewriteSlices_eq table (SliceInfo.update message) ends
    rw [applySlicingCtrl, rewritten] at stopped
    dsimp only at stopped
    split at stopped <;> cases stopped
  · intro full
    rw [applySlicingCtrl, rewriteSlices_full full]

theorem controlStep_inv (taken : controlStep table message = some after) :
    none ∈ table ∧ none ∈ after ∧ slicesOf after = (slicesOf table).map (SliceInfo.update message) ∧
      totalMinRatio (slicesOf after) % 256 ≤ 100 := by
  by_cases ends : none ∈ table
  · obtain ⟨updated, rewritten, inside, mapped⟩ := @rewriteSlices_eq table (SliceInfo.update message) ends
    rw [controlStep, applySlicingCtrl, rewritten] at taken
    dsimp only at taken
    split at taken
    · cases taken
    · rename_i small
      rw [sumMinRatio_gt_iff] at small
      cases taken
      exact ⟨ends, inside, mapped, by omega⟩
  · rw [controlStep, applySlicingCtrl_stops_iff.mpr ends] at taken
    cases taken

end Table

theorem configuredSlices_sound : PolicySound (configuredSlices snssai) := by
  have policies : ∀ slice ∈ configuredSlices snssai, slice.spolicy = configuredPolicy := by
    intro slice member
    simp only [configuredSlices, mem_cons, mem_mapIdx] at member
    rcases member with rfl | ⟨s, bound, rfl⟩ <;> rfl
  have unreserved : totalMinRatio (configuredSlices snssai) = 0 := by
    refine sum_eq_zero ?_
    intro ratio member
    obtain ⟨slice, inside, rfl⟩ := mem_map.mp member
    simp [policies slice inside, configuredPolicy]
  refine ⟨by omega, ?_⟩
  intro slice member
  rw [policies slice member]
  decide

def ControlSound (table : SlicePointers) (messages : List SlicingControlM) : Prop :=
  Along controlStep (fun table => PolicySound (slicesOf table)) table messages ∧
    Attempts controlStep (fun table message => applySlicingCtrl table message ≠ .error .outOfBounds) table messages

theorem attempts_inside_iff (table : SlicePointers) (messages : List SlicingControlM) :
    Attempts controlStep (fun table message => applySlicingCtrl table message ≠ .error .outOfBounds) table messages ↔
      messages = [] ∨ none ∈ table := by
  cases messages with
  | nil => exact iff_of_true attempts_nil (.inl rfl)
  | cons message rest =>
    rw [attempts_cons, ne_eq, applySlicingCtrl_stops_iff, not_not, or_iff_right (cons_ne_nil _ _)]
    refine ⟨And.left, fun ends => ⟨ends, fun next taken => ?_⟩⟩
    -- a null pointer is never overwritten
    have kept : none ∈ next := (controlStep_inv taken).2.1
    intro front later inside middle reached
    have still : Along controlStep (none ∈ ·) next rest :=
      invariant_along (fun table message after _ _ taken => (controlStep_inv taken).2.1) next rest kept
        (fun _ _ _ _ _ _ _ => trivial)
    rw [ne_eq, applySlicingCtrl_stops_iff, not_not]
    exact still front ((prefix_append front [later]).trans inside) middle reached

/-- From the configured table on, slicing control stays inside the table and every table it reaches is sound,
exactly when a null pointer is left in the table and each accepted message fits. -/
theorem slicing_control_sound_iff {snssai : List Nssai} {table : SlicePointers}
    (accepted : configureSlices snssai = some table) (messages : List SlicingControlM) :
    ControlSound table messages ↔ (messages = [] ∨ snssai.length < maxNumSlice) ∧
      Steps controlStep (fun table message => message.Fits (slicesOf table)) table messages := by
  obtain ⟨slices, ends⟩ := slicesOf_configured snssai accepted
  rw [ControlSound, attempts_inside_iff, ends, and_comm]
  refine and_congr_right' (along_iff_steps ?_ table messages (slices ▸ configuredSlices_sound snssai))
  intro table message after sound taken
  obtain ⟨_, _, updated, checked⟩ := controlStep_inv taken
  rw [updated] at checked ⊢
  exact policySound_update_iff sound checked

/-- A reservation of 75 percent is lowered to 40, and the last message is about no slice of the table. -/
theorem slicing_control_sound_lowered :
    ∃ table, configureSlices [⟨1, 1⟩, ⟨1, 2⟩] = some table ∧
      ControlSound table [⟨1, some 1, 75, 100⟩, ⟨1, some 1, 40, 50⟩, ⟨9, none, 255, 255⟩] := by
  refine ⟨_, rfl, ?_⟩
  exact (@slicing_control_sound_iff [⟨1, 1⟩, ⟨1, 2⟩] _ rfl _).mpr ⟨.inr (by decide), steps_of_check (by decide)⟩

/-- Two accepted messages, with minimum ratios 100 and 200: the byte counter
reads 44 where the reservations add up to 300. -/
theorem slicing_control_wraps :
    ∃ table final, configureSlices [⟨1, 1⟩, ⟨1, 2⟩] = some table ∧
      run controlStep table [⟨1, some 1, 100, 100⟩, ⟨1, some 2, 200, 255⟩] = some final ∧
      totalMinRatio (slicesOf final) = 300 ∧ ¬ PolicySound (slicesOf final) :=
  ⟨_, _, rfl, rfl, by decide⟩

end OranSlice.Mac
