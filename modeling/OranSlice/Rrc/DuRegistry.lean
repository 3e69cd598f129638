import OranSlice.Core.Keyed
import OranSlice.Core.Runs

/-! The DUs of a CU: F1 Setup Requests, gNB-DU Configuration Updates and lost connections. -/

namespace OranSlice.Rrc

open Keyed

structure Plmn where
  (mcc mnc : Nat)
deriving DecidableEq, Repr

structure ServedCellInfo where
  plmn : Plmn
  (nrCellid nrPci : Nat)
  tac : Option Nat
deriving DecidableEq, Repr

/-- The encoded MIB and SIB1: `none` for a null pointer, else whether the bytes decode. -/
structure GnbDuSystemInfo where
  (mib sib1 : Option Bool)
deriving DecidableEq, Repr

structure ServedCell where
  info : ServedCellInfo
  sysInfo : Option GnbDuSystemInfo
deriving DecidableEq, Repr

/-- An F1 Setup Request; `num_cells_available` is the length of `cell`. -/
structure SetupReq where
  (transactionId gnbDuId : Nat)
  cell : List ServedCell
deriving DecidableEq, Repr

structure CellToModify where
  oldNrCellid : Nat
  info : ServedCellInfo
deriving DecidableEq, Repr

/-- A gNB-DU Configuration Update; cells to add or to delete are ignored. -/
structure DuConfigurationUpdate where
  transactionId : Nat
  cellToModify : List CellToModify
deriving DecidableEq, Repr

structure DuContainer where
  assocId : Int
  gnbDuId : Nat
  info : ServedCellInfo
deriving DecidableEq, Repr

structure RrcInst where
  plmn : List Plmn
  sa : Bool
  dus : List DuContainer
  numDus : Nat
deriving DecidableEq, Repr

inductive F1Cause where
  | gnbCuCellCapacityExceeded
  | plmnNotServedByTheGnbCu
  | miscUnspecified
  | protocolSemanticError
deriving DecidableEq, Repr

inductive F1Answer where
  | setupFailure (cause : F1Cause)
  | setupResponse (transactionId : Nat) (plmn : Plmn) (nrCellid nrPci : Nat)
  | configurationUpdateAcknowledge (transactionId : Nat)
deriving DecidableEq, Repr

inductive F1Abort where
  | illegalAssocId
  | moreThanOneCell
  /-- Not an assertion: the new TAC is written through a null pointer. -/
  | nullTac
deriving DecidableEq, Repr

variable (rrc : RrcInst)

def getDuByAssocId (assocId : Int) : Option DuContainer :=
  find DuContainer.assocId assocId rrc.dus

def plmnMatches (info : ServedCellInfo) : Bool := rrc.plmn = [info.plmn]

/-- Whether `extract_sys_info` is called: SIB1 may be missing outside standalone mode only. -/
def sysInfoUsed (sysInfo : GnbDuSystemInfo) : Bool :=
  sysInfo.mib.isSome && !(sysInfo.sib1.isNone && rrc.sa)

def extractSysInfo (sysInfo : GnbDuSystemInfo) : Bool :=
  sysInfo.mib = some true && sysInfo.sib1.getD true

def sysInfoAccepted : Option GnbDuSystemInfo → Bool
  | none => true
  | some sysInfo => !sysInfoUsed rrc sysInfo || extractSysInfo sysInfo

def sameCell (existInfo newInfo : ServedCellInfo) : Bool :=
  existInfo.nrCellid = newInfo.nrCellid || existInfo.nrPci = newInfo.nrPci

variable (req : SetupReq)

def checkSetupReq : Except F1Cause ServedCell :=
  match req.cell with
  | [cell] =>
    if !plmnMatches rrc cell.info then .error .plmnNotServedByTheGnbCu
    else if rrc.dus.any (fun it => it.gnbDuId = req.gnbDuId || sameCell it.info cell.info) then
      .error .miscUnspecified
    else if !sysInfoAccepted rrc cell.sysInfo then .error .protocolSemanticError
    else .ok cell
  | _ => .error .gnbCuCellCapacityExceeded

/-- `rrc_gNB_process_f1_setup_req`: the counter is increased whether or not the DU was inserted. -/
def processF1SetupReq (assocId : Int) : Except F1Abort (RrcInst × F1Answer) :=
  if assocId = 0 then .error .illegalAssocId
  else match checkSetupReq rrc req with
    | .error cause => .ok (rrc, .setupFailure cause)
    | .ok cell =>
      let du : DuContainer := { assocId, gnbDuId := req.gnbDuId, info := cell.info }
      .ok ({ rrc with dus := insert DuContainer.assocId du rrc.dus, numDus := rrc.numDus + 1 },
        .setupResponse req.transactionId cell.info.plmn cell.info.nrCellid cell.info.nrPci)

/-- `update_cell_info`; the PLMN of the cell stays. -/
def updateCellInfo (du : DuContainer) (newCi : ServedCellInfo) : Except F1Abort DuContainer :=
  let moved := { du.info with nrCellid := newCi.nrCellid, nrPci := newCi.nrPci }
  match newCi.tac, du.info.tac with
  | none, _ => .ok { du with info := moved }
  | some tac, some _ => .ok { du with info := { moved with tac := some tac } }
  | some _, none => .error .nullTac

/-- `rrc_gNB_process_f1_du_configuration_update`; `none` when the update is ignored. -/
def processF1DuConfigurationUpdate (confUp : DuConfigurationUpdate) (assocId : Int) :
    Except F1Abort (RrcInst × Option F1Answer) :=
  if assocId = 0 then .error .illegalAssocId
  else match getDuByAssocId rrc assocId with
    | none => .ok (rrc, none)
    | some du =>
      let acknowledge := F1Answer.configurationUpdateAcknowledge confUp.transactionId
      match confUp.cellToModify with
      | [] => .ok (rrc, some acknowledge)
      | [cell] =>
        if du.info.nrCellid ≠ cell.oldNrCellid then .ok (rrc, none)
        else if !plmnMatches rrc cell.info then .ok (rrc, none)
        else (updateCellInfo du cell.info).map fun updated =>
          ({ rrc with dus := replace DuContainer.assocId assocId updated rrc.dus }, some acknowledge)
      | _ => .error .moreThanOneCell

def processF1LostConnection (assocId : Int) : Except F1Abort RrcInst :=
  if assocId = 0 then .error .illegalAssocId
  else match getDuByAssocId rrc assocId with
    | none => .ok rrc
    | some _ => .ok { rrc with dus := remove DuContainer.assocId assocId rrc.dus, numDus := rrc.numDus - 1 }

inductive F1Event where
  | setupReq (req : SetupReq) (assocId : Int)
  | duConfigurationUpdate (confUp : DuConfigurationUpdate) (assocId : Int)
  | lostConnection (assocId : Int)
deriving DecidableEq, Repr

def f1Step : F1Event → Option RrcInst
  | .setupReq req assocId => (processF1SetupReq rrc req assocId).toOption.map Prod.fst
  | .duConfigurationUpdate confUp assocId =>
    (processF1DuConfigurationUpdate rrc confUp assocId).toOption.map Prod.fst
  | .lostConnection assocId => (processF1LostConnection rrc assocId).toOption

variable (plmn : List Plmn) (sa : Bool)

def initialRrc : RrcInst := { plmn, sa, dus := [], numDus := 0 }

structure RrcInst.Consistent (rrc : RrcInst) : Prop where
  duIds : (rrc.dus.map DuContainer.gnbDuId).Nodup
  cellIds : (rrc.dus.map (·.info.nrCellid)).Nodup
  pcis : (rrc.dus.map (·.info.nrPci)).Nodup
  counted : rrc.numDus = rrc.dus.length

structure Admissible (rrc : RrcInst) (req : SetupReq) (cell : ServedCell) : Prop where
  one : req.cell = [cell]
  plmn : plmnMatches rrc cell.info = true
  fresh : ∀ it ∈ rrc.dus, it.gnbDuId ≠ req.gnbDuId ∧
    it.info.nrCellid ≠ cell.info.nrCellid ∧ it.info.nrPci ≠ cell.info.nrPci
  sysInfo : sysInfoAccepted rrc cell.sysInfo = true

structure Modifies (rrc : RrcInst) (confUp : DuConfigurationUpdate) (du : DuContainer) (cell : CellToModify) :
    Prop where
  one : confUp.cellToModify = [cell]
  old : du.info.nrCellid = cell.oldNrCellid
  plmn : plmnMatches rrc cell.info = true

/-- A setup request that passes the checks comes on an association without a DU, and an update that
changes a cell gives it identities of no other DU. -/
def F1Event.Allowed : F1Event → Prop
  | .setupReq req assocId => (∃ cell, Admissible rrc req cell) → getDuByAssocId rrc assocId = none
  | .duConfigurationUpdate confUp assocId => ∀ du cell, getDuByAssocId rrc assocId = some du →
      Modifies rrc confUp du cell → ∀ other ∈ rrc.dus, other.assocId ≠ assocId →
        other.info.nrCellid ≠ cell.info.nrCellid ∧ other.info.nrPci ≠ cell.info.nrPci
  | .lostConnection _ => True

def SetupReq.newDu (assocId : Int) (cell : ServedCell) : DuContainer :=
  { assocId, gnbDuId := req.gnbDuId, info := cell.info }

variable {rrc next : RrcInst} {req : SetupReq} {confUp : DuConfigurationUpdate} {assocId : Int}

theorem checkSetupReq_ok {cell : ServedCell} : checkSetupReq rrc req = .ok cell ↔ Admissible rrc req cell := by
  constructor
  · intro passed
    unfold checkSetupReq at passed
    split at passed
    case h_2 => cases passed
    case h_1 only one =>
      split_ifs at passed with plmn known info
      cases passed
      refine ⟨one, by simpa using plmn, fun it member => ?_, by simpa using info⟩
      have different := known
      simp only [sameCell, List.any_eq_true, not_exists, not_and, Bool.or_eq_true, decide_eq_true_eq,
        not_or] at different
      exact different it member
  · intro admissible
    have unknown : ¬ (rrc.dus.any fun it => it.gnbDuId = req.gnbDuId || sameCell it.info cell.info) = true := by
      simpa [sameCell] using admissible.fresh
    simp only [checkSetupReq, admissible.one, admissible.plmn, admissible.sysInfo, if_neg unknown]
    rfl

theorem setupReq_cases (taken : f1Step rrc (.setupReq req assocId) = some next) :
    (next = rrc ∧ ∀ cell, ¬ Admissible rrc req cell) ∨ ∃ cell, Admissible rrc req cell ∧
        next = { rrc with dus := insert DuContainer.assocId (req.newDu assocId cell) rrc.dus,
                          numDus := rrc.numDus + 1 } := by
  simp only [f1Step, processF1SetupReq] at taken
  split_ifs at taken
  · cases taken
  cases checked : checkSetupReq rrc req with
  | error cause =>
    rw [checked] at taken
    cases taken
    refine .inl ⟨rfl, fun cell admissible => ?_⟩
    rw [checkSetupReq_ok.mpr admissible] at checked
    cases checked
  | ok cell =>
    rw [checked] at taken
    cases taken
    exact .inr ⟨cell, checkSetupReq_ok.mp checked, rfl⟩

theorem updateCellInfo_ok {du updated : DuContainer} {newCi : ServedCellInfo}
    (done : updateCellInfo du newCi = .ok updated) :
    updated.assocId = du.assocId ∧ updated.gnbDuId = du.gnbDuId ∧
      updated.info.nrCellid = newCi.nrCellid ∧ updated.info.nrPci = newCi.nrPci := by
  unfold updateCellInfo at done
  split at done <;> cases done <;> exact ⟨rfl, rfl, rfl, rfl⟩

theorem duConfigurationUpdate_cases (taken : f1Step rrc (.duConfigurationUpdate confUp assocId) = some next) :
    (next = rrc ∧ ∀ du cell, getDuByAssocId rrc assocId = some du → ¬ Modifies rrc confUp du cell) ∨
      ∃ du cell updated, getDuByAssocId rrc assocId = some du ∧ Modifies rrc confUp du cell ∧
        updateCellInfo du cell.info = .ok updated ∧
        next = { rrc with dus := replace DuContainer.assocId assocId updated rrc.dus } := by
  simp only [f1Step, processF1DuConfigurationUpdate] at taken
  split_ifs at taken
  · cases taken
  cases found : getDuByAssocId rrc assocId with
  | none =>
    rw [found] at taken
    cases taken
    exact .inl ⟨rfl, fun du cell there => absurd there (by simp)⟩
  | some du =>
    simp only [found] at taken
    split at taken
    case h_1 none_to_modify =>
      cases taken
      refine .inl ⟨rfl, fun du cell _ modifies => ?_⟩
      cases modifies.one.symm.trans none_to_modify
    case h_3 => cases taken
    case h_2 cell one =>
      split_ifs at taken with other plmn
      · cases taken
        refine .inl ⟨rfl, fun _ _ same modifies => other ?_⟩
        cases same
        cases one.symm.trans modifies.one
        exact modifies.old
      · cases taken
        refine .inl ⟨rfl, fun _ _ same modifies => ?_⟩
        cases one.symm.trans modifies.one
        simp [modifies.plmn] at plmn
      · cases done : updateCellInfo du cell.info with
        | error _ =>
          rw [done] at taken
          cases taken
        | ok updated =>
          rw [done] at taken
          cases taken
          exact .inr ⟨du, cell, updated, rfl, ⟨one, not_not.mp other, by simpa using plmn⟩, done, rfl⟩

theorem lostConnection_cases (taken : f1Step rrc (.lostConnection assocId) = some next) :
    next = rrc ∨ ∃ du, getDuByAssocId rrc assocId = some du ∧
      next = { rrc with dus := remove DuContainer.assocId assocId rrc.dus, numDus := rrc.numDus - 1 } := by
  simp only [f1Step, processF1LostConnection] at taken
  split_ifs at taken
  · cases taken
  cases found : getDuByAssocId rrc assocId with
  | none =>
    rw [found] at taken
    cases taken
    exact .inl rfl
  | some du =>
    rw [found] at taken
    cases taken
    exact .inr ⟨du, rfl, rfl⟩

structure RrcInst.Kept (rrc : RrcInst) : Prop extends rrc.Consistent where
  assocIds : (rrc.dus.map DuContainer.assocId).Nodup

theorem RrcInst.Kept.inserted (kept : rrc.Kept) {cell : ServedCell} (admissible : Admissible rrc req cell)
    (free : getDuByAssocId rrc assocId = none) :
    RrcInst.Kept { rrc with
      dus := insert DuContainer.assocId (req.newDu assocId cell) rrc.dus
      numDus := rrc.numDus + 1 } := by
  have added : (insert DuContainer.assocId (req.newDu assocId cell) rrc.dus).Perm
      (req.newDu assocId cell :: rrc.dus) := insert_fresh (find_none free)
  have distinct {β : Type} (field : DuContainer → β) (before : (rrc.dus.map field).Nodup)
      (fresh : ∀ it ∈ rrc.dus, field it ≠ field (req.newDu assocId cell)) :
      ((insert DuContainer.assocId (req.newDu assocId cell) rrc.dus).map field).Nodup := by
    rw [(added.map field).nodup_iff, List.map_cons, List.nodup_cons, List.mem_map]
    refine ⟨?_, before⟩
    rintro ⟨it, member, same⟩
    exact fresh it member same
  refine ⟨⟨distinct _ kept.duIds fun it member => (admissible.fresh it member).1,
    distinct _ kept.cellIds fun it member => (admissible.fresh it member).2.1,
    distinct _ kept.pcis fun it member => (admissible.fresh it member).2.2, ?_⟩,
    distinct _ kept.assocIds (find_none free)⟩
  exact (congrArg (· + 1) kept.counted).trans added.length_eq.symm

theorem RrcInst.Kept.not_inserted (kept : rrc.Kept) {du : DuContainer} {cell : ServedCell}
    (taken : getDuByAssocId rrc assocId = some du) :
    ¬ RrcInst.Consistent { rrc with
      dus := insert DuContainer.assocId (req.newDu assocId cell) rrc.dus
      numDus := rrc.numDus + 1 } := by
  intro consistent
  have unchanged : insert DuContainer.assocId (req.newDu assocId cell) rrc.dus = rrc.dus :=
    insert_present ⟨du, find_some taken⟩
  have counted := consistent.counted
  simp only [unchanged, kept.counted] at counted
  omega

section Update

variable {du updated : DuContainer} {cell : CellToModify}

section

variable (kept : rrc.Kept) (found : getDuByAssocId rrc assocId = some du)
  (done : updateCellInfo du cell.info = .ok updated)

include kept found done

theorem RrcInst.Kept.replaced :
    RrcInst.Consistent { rrc with dus := replace DuContainer.assocId assocId updated rrc.dus } ↔
      ∀ other ∈ rrc.dus, other.assocId ≠ assocId →
        other.info.nrCellid ≠ cell.info.nrCellid ∧ other.info.nrPci ≠ cell.info.nrPci := by
  have present : ∃ it ∈ rrc.dus, it.assocId = assocId := ⟨du, find_some found⟩
  obtain ⟨member, here⟩ := find_some found
  obtain ⟨_, sameId, cellId, pci⟩ := updateCellInfo_ok done
  have ids : ((replace DuContainer.assocId assocId updated rrc.dus).map DuContainer.gnbDuId).Nodup := by
    rw [nodup_replace kept.assocIds kept.duIds present, sameId]
    intro it inside other same
    have one := List.inj_on_of_nodup_map kept.duIds inside member same
    exact other (one ▸ here)
  have cellIds : ((replace DuContainer.assocId assocId updated rrc.dus).map (·.info.nrCellid)).Nodup ↔
      ∀ other ∈ rrc.dus, other.assocId ≠ assocId → other.info.nrCellid ≠ cell.info.nrCellid := by
    rw [nodup_replace kept.assocIds kept.cellIds present, cellId]
  have pcis : ((replace DuContainer.assocId assocId updated rrc.dus).map (·.info.nrPci)).Nodup ↔
      ∀ other ∈ rrc.dus, other.assocId ≠ assocId → other.info.nrPci ≠ cell.info.nrPci := by
    rw [nodup_replace kept.assocIds kept.pcis present, pci]
  constructor
  · intro consistent other inside different
    exact ⟨cellIds.mp consistent.cellIds other inside different, pcis.mp consistent.pcis other inside different⟩
  · intro free
    refine ⟨ids, cellIds.mpr fun other inside different => (free other inside different).1,
      pcis.mpr fun other inside different => (free other inside different).2, ?_⟩
    rw [length_replace]
    exact kept.counted

theorem assocIds_replaced :
    ((replace DuContainer.assocId assocId updated rrc.dus).map DuContainer.assocId).Nodup := by
  obtain ⟨member, here⟩ := find_some found
  rw [nodup_replace kept.assocIds kept.assocIds ⟨du, member, here⟩, (updateCellInfo_ok done).1, here]
  exact fun _ _ different => different

end

end Update

theorem RrcInst.Kept.removed (kept : rrc.Kept) {du : DuContainer} (found : getDuByAssocId rrc assocId = some du) :
    RrcInst.Kept { rrc with
      dus := remove DuContainer.assocId assocId rrc.dus
      numDus := rrc.numDus - 1 } := by
  have fewer {β : Type} (field : DuContainer → β) (before : (rrc.dus.map field).Nodup) :
      ((remove DuContainer.assocId assocId rrc.dus).map field).Nodup :=
    before.sublist (remove_sublist.map field)
  refine ⟨⟨fewer _ kept.duIds, fewer _ kept.cellIds, fewer _ kept.pcis, ?_⟩, fewer _ kept.assocIds⟩
  rw [length_remove found, kept.counted]

theorem f1Step_keeps (rrc : RrcInst) (event : F1Event) (next : RrcInst) (kept : rrc.Kept)
    (allowed : event.Allowed rrc) (taken : f1Step rrc event = some next) : next.Kept := by
  cases event with
  | setupReq req assocId =>
    rcases setupReq_cases taken with ⟨rfl, _⟩ | ⟨cell, admissible, rfl⟩
    · exact kept
    · exact kept.inserted admissible (allowed ⟨cell, admissible⟩)
  | duConfigurationUpdate confUp assocId =>
    rcases duConfigurationUpdate_cases taken with ⟨rfl, _⟩ | ⟨du, cell, updated, found, modifies, done, rfl⟩
    · exact kept
    · have free := allowed du cell found modifies
      exact ⟨(kept.replaced found done).mpr free, assocIds_replaced kept found done⟩
  | lostConnection assocId =>
    rcases lostConnection_cases taken with rfl | ⟨du, found, rfl⟩
    · exact kept
    · exact kept.removed found

theorem f1Step_breaks (rrc : RrcInst) (event : F1Event) (next : RrcInst) (kept : rrc.Kept)
    (illegal : ¬ event.Allowed rrc) (taken : f1Step rrc event = some next) : ¬ next.Consistent := by
  cases event with
  | setupReq req assocId =>
    simp only [F1Event.Allowed, Classical.not_imp] at illegal
    obtain ⟨⟨cell, admissible⟩, occupied⟩ := illegal
    obtain ⟨du, found⟩ := Option.ne_none_iff_exists'.mp occupied
    rcases setupReq_cases taken with ⟨_, refused⟩ | ⟨cell, _, rfl⟩
    · exact absurd admissible (refused cell)
    · exact kept.not_inserted found
  | duConfigurationUpdate confUp assocId =>
    rcases duConfigurationUpdate_cases taken with ⟨_, ignored⟩ | ⟨du, cell, updated, found, modifies, done, rfl⟩
    · exact absurd (fun du cell found modifies => absurd modifies (ignored du cell found)) illegal
    rw [kept.replaced found done]
    intro free
    apply illegal
    intro du' cell' found' modifies'
    cases modifies.one.symm.trans modifies'.one
    exact free
  | lostConnection assocId => exact absurd trivial illegal

theorem initialRrc_kept : (initialRrc plmn sa).Kept :=
  ⟨⟨List.nodup_nil, List.nodup_nil, List.nodup_nil, rfl⟩, List.nodup_nil⟩

/-- The registry stays consistent in every state of a run exactly when no DU is set up on an association
that has one and no update gives a cell the identities of another DU. -/
theorem registry_consistent_iff (events : List F1Event) :
    Runs.Along f1Step RrcInst.Consistent (initialRrc plmn sa) events ↔
      Runs.Steps f1Step (fun rrc event => event.Allowed rrc) (initialRrc plmn sa) events :=
  Runs.along_iff_steps_of_invariant (fun _ kept => kept.toConsistent) f1Step_keeps f1Step_breaks
    (initialRrc plmn sa) events (initialRrc_kept plmn sa)

def setupOf (gnbDuId nrCellid nrPci : Nat) : SetupReq :=
  { transactionId := 1, gnbDuId
    cell := [{ info := { plmn := ⟨208, 99⟩, nrCellid, nrPci, tac := some 1 }, sysInfo := none }] }

/-- A second DU on an association is counted although the tree has only the first, and an update gives a
DU the cell identities of another. -/
theorem registry_broken_by_setup_and_update :
    (Runs.run f1Step (initialRrc [⟨208, 99⟩] true) [.setupReq (setupOf 1 11 101) 1, .setupReq (setupOf 2 12 102) 1]).map
      (fun rrc => (rrc.numDus, rrc.dus.map DuContainer.gnbDuId)) = some (2, [1]) ∧
    (Runs.run f1Step (initialRrc [⟨208, 99⟩] true) [.setupReq (setupOf 1 11 101) 1, .setupReq (setupOf 2 12 102) 2,
        .duConfigurationUpdate ⟨1, [⟨12, ⟨⟨208, 99⟩, 11, 101, none⟩⟩]⟩ 2]).map
      (fun rrc => rrc.dus.map fun du => (du.gnbDuId, du.info.nrCellid, du.info.nrPci)) =
        some [(1, 11, 101), (2, 11, 101)] := by
  decide

end OranSlice.Rrc
