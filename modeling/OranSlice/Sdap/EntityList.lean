import Mathlib.Data.List.Sigma
import OranSlice.Core.Runs

/-! The list of SDAP entities, as a finite map from UE and PDU session. -/

namespace OranSlice.Sdap

open List Runs

abbrev EntityKey := UInt64 × Int32

/-- Entities in the order of `next_entity`, each with the address that `calloc` gave it. -/
abbrev Entities := List (Σ _ : EntityKey, Nat)

structure SdapInfo where
  entityLlist : Entities
  allocated : Nat

inductive EntityCall where
  | new (key : EntityKey)
  | get (key : EntityKey)
  | delete (key : EntityKey)
  | deleteUe (ueId : UInt64)
deriving DecidableEq

inductive EntityAnswer where
  | entity (address : Option Nat)
  | ret (deleted : Bool)

namespace SdapInfo

variable (info : SdapInfo) (key : EntityKey) (maxEntities : Nat)

def nrSdapGetEntity : Option Nat := info.entityLlist.dlookup key

/-- The entity comes first in the list. What it is configured with is not part of the list. -/
def newNrSdapEntity : SdapInfo × Option Nat :=
  match info.nrSdapGetEntity key with
  | some existing => (info, some existing)
  | none => (⟨⟨key, info.allocated⟩ :: info.entityLlist, info.allocated + 1⟩, some info.allocated)

/-- The walk of `nr_sdap_delete_entity`, which makes at most `moves` moves. -/
def deleteWalk : Nat → Entities → Entities × Bool
  | _, [] => ([], false)
  | moves, entity :: next =>
    if entity.1 = key then (next, true)
    else match moves with
      | 0 => (entity :: next, false)
      | moves + 1 => let (kept, ret) := deleteWalk moves next; (entity :: kept, ret)

/-- No answer is the read of `entityPtr->ue_id` through a null pointer. -/
def nrSdapDeleteEntity : Option (SdapInfo × Bool) :=
  match info.entityLlist with
  | [] => if 0 < key.2 * (key.2 - 256) then some (info, false) else none
  | entity :: next =>
    if entity.1 = key then some ({ info with entityLlist := next }, true)
    else
      let (kept, ret) := deleteWalk key maxEntities (entity :: next)
      some ({ info with entityLlist := kept }, ret)

def deleteHeads (ueId : UInt64) : Entities → Entities × Bool
  | [] => ([], false)
  | entity :: next => if entity.1.1 = ueId then ((deleteHeads ueId next).1, true) else (entity :: next, false)

def deleteOthers (ueId : UInt64) : Entities → Entities × Bool
  | [] => ([], false)
  | entity :: next =>
    let (kept, ret) := deleteOthers ueId next
    if entity.1.1 = ueId then (kept, true) else (entity :: kept, ret)

/-- `upperBound` stays 0 here, so neither loop meets its bound. -/
def nrSdapDeleteUeEntities (ueId : UInt64) : SdapInfo × Bool :=
  if info.entityLlist = [] ∧ 0 < ueId * (ueId - 65536) then (info, false)
  else
    let (rest, first) := deleteHeads ueId info.entityLlist
    let (kept, later) := deleteOthers ueId rest
    ({ info with entityLlist := kept }, first || later)

def serve : EntityCall → Option (SdapInfo × EntityAnswer)
  | .new key => some ((info.newNrSdapEntity key).map id .entity)
  | .get key => some (info, .entity (info.nrSdapGetEntity key))
  | .delete key => (info.nrSdapDeleteEntity key maxEntities).map (Prod.map id .ret)
  | .deleteUe ueId => some ((info.nrSdapDeleteUeEntities ueId).map id .ret)

variable {info key maxEntities} {moves : Nat} {entities : Entities} {ueId : UInt64}

theorem deleteWalk_eq : deleteWalk key moves entities =
    if key ∈ (entities.take (moves + 1)).keys then (entities.kerase key, true) else (entities, false) := by
  induction entities generalizing moves with
  | nil => simp [deleteWalk]
  | cons entity next ih =>
    by_cases here : entity.1 = key
    · cases moves <;> simp [deleteWalk, here]
    cases moves with
    | zero => simp [deleteWalk, here, Ne.symm here]
    | succ moves =>
      simp only [deleteWalk, if_neg here, ih, take_succ_cons, keys_cons, mem_cons, Ne.symm here, false_or,
        kerase_cons_ne (Ne.symm here)]
      split <;> rfl

theorem nrSdapDeleteEntity_eq (within : info.entityLlist = [] → 0 < key.2 * (key.2 - 256)) :
    info.nrSdapDeleteEntity key maxEntities = some (if key ∈ (info.entityLlist.take (maxEntities + 1)).keys then
        (⟨info.entityLlist.kerase key, info.allocated⟩, true) else (info, false)) := by
  obtain ⟨entities, allocated⟩ := info
  cases entities with
  | nil => simp [nrSdapDeleteEntity, within rfl]
  | cons entity next =>
    by_cases here : entity.1 = key
    · simp [nrSdapDeleteEntity, here]
    · simp only [nrSdapDeleteEntity, if_neg here, deleteWalk_eq]
      split <;> rfl

theorem deleteOthers_eq : deleteOthers ueId entities =
    (entities.filter (fun entity => entity.1.1 ≠ ueId), entities.any (fun entity => entity.1.1 = ueId)) := by
  induction entities with
  | nil => rfl
  | cons entity next ih => by_cases here : entity.1.1 = ueId <;> simp [deleteOthers, ih, here]

theorem deleteHeads_eq :
    ((deleteHeads ueId entities).1.filter (fun entity => entity.1.1 ≠ ueId) =
      entities.filter (fun entity => entity.1.1 ≠ ueId)) ∧
    ((deleteHeads ueId entities).2 || (deleteHeads ueId entities).1.any (fun entity => entity.1.1 = ueId)) =
      entities.any (fun entity => entity.1.1 = ueId) := by
  induction entities with
  | nil => exact ⟨rfl, rfl⟩
  | cons entity next ih => by_cases here : entity.1.1 = ueId <;> simp_all [deleteHeads]

theorem nrSdapDeleteUeEntities_eq : info.nrSdapDeleteUeEntities ueId =
    (⟨info.entityLlist.filter (fun entity => entity.1.1 ≠ ueId), info.allocated⟩,
      info.entityLlist.any (fun entity => entity.1.1 = ueId)) := by
  obtain ⟨entities, allocated⟩ := info
  simp only [nrSdapDeleteUeEntities, deleteOthers_eq, deleteHeads_eq]
  split
  · next empty => simp [empty.1]
  · rfl

end SdapInfo

structure EntityRun where
  info : SdapInfo
  live : EntityKey → Option Nat

namespace EntityRun

variable (s : EntityRun) (maxEntities : Nat)

def liveAfter : EntityCall → EntityKey → Option Nat
  | .new key => Function.update s.live key (some ((s.live key).getD s.info.allocated))
  | .get _ => s.live
  | .delete key => Function.update s.live key none
  | .deleteUe ueId => fun key => if key.1 = ueId then none else s.live key

def step (call : EntityCall) : Option EntityRun :=
  (s.info.serve maxEntities call).map (fun served => ⟨served.1, s.liveAfter call⟩)

def Answers : EntityCall → EntityAnswer → Prop
  | .new key, .entity address => address = s.liveAfter (.new key) key
  | .get key, .entity address => address = s.live key
  | .delete key, .ret deleted => deleted = (s.live key).isSome
  | .deleteUe ueId, .ret deleted => deleted ↔ ∃ key, key.1 = ueId ∧ (s.live key).isSome
  | _, _ => False

def Served (call : EntityCall) : Prop :=
  ∃ next answer, s.info.serve maxEntities call = some (next, answer) ∧ s.Answers call answer

def LooksUp : Prop := s.info.nrSdapGetEntity = s.live

/-- A single entity is deleted from a list with entities, or with an id outside the range, and among the
entities that the walk comes to. -/
def Addressed : EntityCall → Prop
  | .delete key => (s.info.entityLlist = [] → 0 < key.2 * (key.2 - 256)) ∧
      (key ∈ s.info.entityLlist.keys → key ∈ (s.info.entityLlist.take (maxEntities + 1)).keys)
  | _ => True

def start : EntityRun := ⟨⟨[], 0⟩, fun _ => none⟩

def Mapped : Prop := s.LooksUp ∧ s.info.entityLlist.NodupKeys

variable {s maxEntities} {call : EntityCall}

theorem mapped_start : start.Mapped := ⟨rfl, nodupKeys_nil⟩

theorem Mapped.isSome (mapped : s.Mapped) (key : EntityKey) :
    (s.live key).isSome ↔ key ∈ s.info.entityLlist.keys := by
  rw [← mapped.1]
  exact dlookup_isSome

theorem Mapped.new (mapped : s.Mapped) (key : EntityKey) :
    (s.info.newNrSdapEntity key).2 = s.liveAfter (.new key) key ∧
      (⟨(s.info.newNrSdapEntity key).1, s.liveAfter (.new key)⟩ : EntityRun).Mapped := by
  have here : s.info.nrSdapGetEntity key = s.live key := congrFun mapped.1 key
  rw [liveAfter, SdapInfo.newNrSdapEntity, Function.update_self]
  cases found : s.live key with
  | some existing =>
    rw [found] at here
    have same : Function.update s.live key (some existing) = s.live := by rw [← found, Function.update_eq_self]
    rw [here, Option.getD_some, same]
    exact ⟨rfl, mapped⟩
  | none =>
    rw [found] at here
    rw [here]
    refine ⟨rfl, Function.eq_update_iff.mpr ⟨dlookup_cons_eq _ _ _, fun other different => ?_⟩,
      nodupKeys_cons.mpr ⟨dlookup_eq_none.mp here, mapped.2⟩⟩
    exact (dlookup_cons_ne _ _ different).trans (congrFun mapped.1 other)

theorem Mapped.erase (mapped : s.Mapped) (key : EntityKey) :
    (⟨⟨s.info.entityLlist.kerase key, s.info.allocated⟩, s.liveAfter (.delete key)⟩ : EntityRun).Mapped := by
  refine ⟨Function.eq_update_iff.mpr ⟨dlookup_kerase key mapped.2, fun other different => ?_⟩, mapped.2.kerase key⟩
  exact (dlookup_kerase_ne different).trans (congrFun mapped.1 other)

theorem Mapped.filter (mapped : s.Mapped) (ueId : UInt64) :
    (⟨⟨s.info.entityLlist.filter (fun entity => entity.1.1 ≠ ueId), s.info.allocated⟩,
      s.liveAfter (.deleteUe ueId)⟩ : EntityRun).Mapped := by
  have nodup : (s.info.entityLlist.filter (fun entity => entity.1.1 ≠ ueId)).NodupKeys :=
    mapped.2.sublist filter_sublist
  refine ⟨funext fun key => Option.ext fun address => ?_, nodup⟩
  have old : address ∈ s.live key ↔ ⟨key, address⟩ ∈ s.info.entityLlist := by
    rw [← mapped.1]
    exact mem_dlookup_iff mapped.2
  refine (mem_dlookup_iff nodup).trans ?_
  rw [mem_filter, ← old]
  by_cases same : key.1 = ueId <;> simp [liveAfter, same]

theorem Mapped.serve (mapped : s.Mapped) (addressed : s.Addressed maxEntities call) :
    ∃ next answer, s.info.serve maxEntities call = some (next, answer) ∧ s.Answers call answer ∧
      (⟨next, s.liveAfter call⟩ : EntityRun).Mapped := by
  cases call with
  | new key => exact ⟨_, _, rfl, mapped.new key⟩
  | get key => exact ⟨_, _, rfl, congrFun mapped.1 key, mapped⟩
  | delete key =>
    have deleted := @SdapInfo.nrSdapDeleteEntity_eq s.info key maxEntities addressed.1
    by_cases present : key ∈ s.info.entityLlist.keys
    · rw [if_pos (addressed.2 present)] at deleted
      exact ⟨_, .ret true, congrArg (Option.map (Prod.map id EntityAnswer.ret)) deleted,
        ((mapped.isSome key).mpr present).symm, mapped.erase key⟩
    have absent : key ∉ (s.info.entityLlist.take (maxEntities + 1)).keys :=
      fun reached => present (((take_sublist _ _).map Sigma.fst).subset reached)
    rw [if_neg absent] at deleted
    have erased := mapped.erase key
    rw [kerase_of_notMem_keys present] at erased
    refine ⟨_, .ret false, congrArg (Option.map (Prod.map id EntityAnswer.ret)) deleted, ?_, erased⟩
    exact (Bool.eq_false_iff.mpr (fun some => present ((mapped.isSome key).mp some))).symm
  | deleteUe ueId =>
    refine ⟨_, _, congrArg (fun deleted => some (Prod.map id EntityAnswer.ret deleted))
      SdapInfo.nrSdapDeleteUeEntities_eq, ?_, mapped.filter ueId⟩
    simp [Answers, mapped.isSome, mem_keys]

theorem Served.addressed (served : s.Served maxEntities call) (mapped : s.Mapped) :
    s.Addressed maxEntities call := by
  obtain ⟨next, answer, returned, right⟩ := served
  cases call with
  | delete key =>
    have within : s.info.entityLlist = [] → 0 < key.2 * (key.2 - 256) := by
      intro empty
      by_contra refused
      simp [SdapInfo.serve, SdapInfo.nrSdapDeleteEntity, empty, refused] at returned
    refine ⟨within, fun present => ?_⟩
    by_contra missed
    have deleted := @SdapInfo.nrSdapDeleteEntity_eq s.info key maxEntities within
    rw [if_neg missed] at deleted
    rw [SdapInfo.serve, deleted] at returned
    cases returned
    exact Bool.false_ne_true (right.trans ((mapped.isSome key).mpr present))
  | _ => trivial

theorem sdap_entities_map_iff (maxEntities : Nat) (calls : List EntityCall) :
    Along (step · maxEntities) LooksUp start calls ∧
      Attempts (step · maxEntities) (Served · maxEntities) start calls ↔
    Attempts (step · maxEntities) (Addressed · maxEntities) start calls := by
  refine safe_iff_attempts (fun s mapped => mapped.1) ?_ ?_ start calls mapped_start
  · intro s call mapped addressed
    obtain ⟨next, answer, served, right, after⟩ := mapped.serve addressed
    refine ⟨⟨next, answer, served, right⟩, fun later taken => ?_⟩
    rw [step, served] at taken
    cases taken
    exact after
  · intro s call mapped other
    exact Or.inl (fun served => other (served.addressed mapped))

/-- The deletion of a session before any entity exists reads through the null head of the list. -/
theorem delete_from_empty_list :
    start.info.serve 1280 (.delete (1, 5)) = none ∧
    ¬ Attempts (step · 1280) (Served · 1280) start [.delete (1, 5)] := by
  have stopped : start.info.serve 1280 (.delete (1, 5)) = none := rfl
  refine ⟨stopped, fun all => ?_⟩
  obtain ⟨next, answer, returned, _⟩ := (attempts_cons.mp all).1
  cases stopped.symm.trans returned

end EntityRun

end OranSlice.Sdap
