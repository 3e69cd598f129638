import OranSlice.Core.Runs

/-! The PDU sessions and DRBs that the CU keeps for a UE: setup, modification and release for the AMF,
and the answers of the UE to the RRC reconfigurations that follow. -/

namespace OranSlice.Rrc

open List

inductive PduSessionStatus where
  | new
  | done
  | established
  | reestablished
  | tomodify
  | failed
  | torelease
  | released
deriving DecidableEq, Repr

inductive NgapCause where
  | nothing
  | radioNetwork
deriving DecidableEq, Repr

structure PduSession where
  pdusessionId : Nat
  status : PduSessionStatus
  xid : Nat
  cause : NgapCause
  nasPdu : Bool
  fiveQi : List Nat
deriving DecidableEq, Repr

def PduSession.zero : PduSession := ⟨0, .new, 0, .nothing, false, []⟩

inductive DrbStatus where
  | inactive
  | active
  | activeNongbr
deriving DecidableEq, Repr

structure Drb where
  status : DrbStatus
  pdusessionId : Nat
deriving DecidableEq, Repr

/-- The transactions that concern PDU sessions; `none` stands for all others. -/
inductive RrcAction where
  | none
  | pdusessionEstablish
  | pdusessionModify
  | pdusessionRelease
deriving DecidableEq, Repr

def ngapMaxPduSession : Nat := 256
def maxDrbsPerUe : Nat := 32

def ngapMaxPdusession : Nat := 14

def nbRbMax : Nat := 14

structure UeContext where
  nbOfPdusessions : Nat
  pduSession : Nat → PduSession
  establishedDrbs : Nat → Drb
  xids : Fin 4 → RrcAction
  /-- Not in the source: the sessions set up and not released since. -/
  setUp : List Nat

/-- The first entries start with the transaction identifier -1, in 8 bits. -/
def UeContext.initial : UeContext :=
  { nbOfPdusessions := 0
    pduSession := fun i => if i < nbRbMax then { PduSession.zero with xid := 255 } else .zero
    establishedDrbs := fun _ => ⟨.inactive, 0⟩, xids := fun _ => .none, setUp := [] }

inductive SessionFault where
  /-- An access outside `pduSession` or `established_drbs`. -/
  | outOfBounds
  | drbIdAssertion
deriving DecidableEq, Repr

variable (ue : UeContext) (sessions : List SessionItem) (xid : Fin 4) (d : Nat) (session : PduSession)
  (id i : Nat)

def findPduSession : Option Nat :=
  (range ue.nbOfPdusessions).find? (fun j => (ue.pduSession j).pdusessionId = id)

def UeContext.change (j : Nat) (f : PduSession → PduSession) : UeContext :=
  { ue with pduSession := Function.update ue.pduSession j (f (ue.pduSession j)) }

def UeContext.create : Except SessionFault UeContext :=
  if ue.nbOfPdusessions < ngapMaxPduSession then .ok { ue with nbOfPdusessions := ue.nbOfPdusessions + 1 }
  else .error .outOfBounds

def findOrCreatePduSession : Except SessionFault (UeContext × Nat) :=
  match findPduSession ue id with
  | some j => .ok (ue, j)
  | none => ue.create.map (fun created => (created, ue.nbOfPdusessions))

/-- The first inactive DRB by its index; `none` is the id 0, whose index is -1. -/
def getNextAvailableDrbId : Option Nat :=
  (range maxDrbsPerUe).find? (fun d => (ue.establishedDrbs d).status = .inactive)

/-- The last QoS flow decides on the status. -/
def drbStatusOf (fiveQi : List Nat) : DrbStatus :=
  if fiveQi.getLastD 0 > 5 then .activeNongbr else .active

def generateDrb : Except SessionFault UeContext :=
  -- the id is d + 1
  if d + 1 < 32 then
    .ok { ue with
      establishedDrbs := Function.update ue.establishedDrbs d ⟨drbStatusOf session.fiveQi, session.pdusessionId⟩
      setUp := session.pdusessionId :: ue.setUp }
  else .error .drbIdAssertion

/-- A session to set up or to modify; the flows are those that its transfer decodes to, if it does. -/
structure SessionItem where
  pdusessionId : Nat
  nasPdu : Bool
  fiveQi : Option (List Nat)
deriving DecidableEq, Repr

def setupSession (item : SessionItem) : Except SessionFault UeContext := do
  let (ue, j) ← findOrCreatePduSession ue item.pdusessionId
  let ue := ue.change j fun session =>
    { session with
      pdusessionId := item.pdusessionId, nasPdu := item.nasPdu, fiveQi := item.fiveQi.getD session.fiveQi }
  match getNextAvailableDrbId ue with
  | none => .error .outOfBounds
  | some d => generateDrb ue d (ue.pduSession j)

def triggerBearerSetup : Except SessionFault UeContext :=
  sessions.foldlM setupSession ue

def UeContext.changeAll (f : Nat → PduSession → PduSession) : UeContext :=
  { ue with pduSession := fun i => if i < ue.nbOfPdusessions then f i (ue.pduSession i) else ue.pduSession i }

def UeContext.begin (action : RrcAction) : UeContext :=
  { ue with xids := Function.update ue.xids xid action }

/-- `rrc_gNB_generate_dedicatedRRCReconfiguration`: sessions before `ESTABLISHED` become `DONE`. -/
def generateDedicatedRrcReconfiguration : UeContext :=
  (ue.begin xid .pdusessionEstablish).changeAll fun _ session =>
    { session with
      xid := if session.nasPdu then xid.val else session.xid
      status := if session.status = .new ∨ session.status = .done then .done else session.status
      nasPdu := false }

def createFailed : Except SessionFault UeContext :=
  ue.create.map fun created => created.change ue.nbOfPdusessions fun session =>
    { session with status := .failed, pdusessionId := id, cause := .radioNetwork }

/-- One session of a modify request and whether all failed so far. A NAS PDU is stored at the index of the
request, `i`. -/
def modifySession (ue : UeContext × Bool) (item : SessionItem) (i : Nat) :
    Except SessionFault (UeContext × Bool) :=
  match findPduSession ue.1 item.pdusessionId with
  | none => (createFailed ue.1 item.pdusessionId).map fun created => (created, ue.2)
  | some j =>
    let modified := ue.1.change j fun session =>
      { session with status := .new, cause := .nothing, fiveQi := item.fiveQi.getD session.fiveQi }
    .ok (if item.nasPdu then modified.change i fun session => { session with nasPdu := true } else modified, false)

def modifySessions (ue : UeContext × Bool) : List SessionItem → Nat → Except SessionFault (UeContext × Bool)
  | [], _ => .ok ue
  | item :: rest, i => do
    let ue ← modifySession ue item i
    modifySessions ue rest (i + 1)

def UeContext.Names : Prop :=
  d < maxDrbsPerUe ∧ (ue.establishedDrbs d).status ≠ .inactive ∧ (ue.establishedDrbs d).pdusessionId = id

instance (ue : UeContext) (d id : Nat) : Decidable (ue.Names d id) := by
  unfold UeContext.Names; infer_instance

/-- The search for the DRB of a session tests the index of the session, not that of the DRB: up to the
session 31 it ends only at a DRB that names the session, and leaves the array when there is none. -/
def searchLeavesDrbs : Bool :=
  i < maxDrbsPerUe ∧ (range maxDrbsPerUe).all (fun d => ¬ ue.Names d (ue.pduSession i).pdusessionId)

def toBeModified : Bool := session.status = .new ∧ session.cause = .nothing

/-- A session with an unsupported 5QI gets a cause but becomes `DONE` as well. -/
def reconfigureSession : PduSession :=
  if session.status ≠ .new then { session with xid := xid.val, nasPdu := false }
  else if session.cause ≠ .nothing then { session with xid := xid.val, status := .failed, nasPdu := false }
  else
    { session with
      xid := xid.val
      status := .done
      cause := if session.fiveQi.all (fun qi => 1 ≤ qi ∧ qi ≤ 9) then .nothing else .radioNetwork
      nasPdu := false }

def modifyDedicatedRrcReconfiguration : Except SessionFault UeContext :=
  if (range ue.nbOfPdusessions).any (fun i => toBeModified (ue.pduSession i) ∧ searchLeavesDrbs ue i) then
    .error .outOfBounds
  else .ok ((ue.begin xid .pdusessionModify).changeAll fun _ => reconfigureSession xid)

def processPdusessionModifyReq :
    Except SessionFault UeContext := do
  let (ue, allFailed) ← modifySessions (ue, true) sessions 0
  if allFailed then return ue else modifyDedicatedRrcReconfiguration ue xid

/-- One session of a release command, and whether one is to be released at the UE. -/
def releaseSession (ue : UeContext × Bool) (id : Nat) : Except SessionFault (UeContext × Bool) :=
  match findPduSession ue.1 id with
  | none => (createFailed ue.1 id).map fun created => (created, ue.2)
  | some j =>
    match (ue.1.pduSession j).status with
    | .failed => .ok (ue.1.change j fun session => { session with xid := xid.val }, ue.2)
    | .established =>
      .ok (ue.1.change j fun session => { session with status := .torelease, xid := xid.val }, true)
    | _ => .ok ue

/-- `rrc_gNB_send_NGAP_PDUSESSION_RELEASE_RESPONSE`: the entries of the transaction are cleared; their
number and the DRBs stay. -/
def pdusessionReleaseResponse : UeContext :=
  { ue.changeAll (fun _ session =>
      if session.xid = xid.val then { PduSession.zero with status := .released } else session) with
    setUp := ue.setUp.filter fun id => (range ue.nbOfPdusessions).all fun i =>
      ¬ ((ue.pduSession i).xid = xid.val ∧ (ue.pduSession i).pdusessionId = id) }

def processPdusessionReleaseCommand (ids : List Nat) (xid : Fin 4) :
    Except SessionFault UeContext :=
  if ids.length > ngapMaxPdusession then .ok ue
  else do
    let (ue, found) ← ids.foldlM (releaseSession xid) (ue.begin xid .pdusessionRelease, false)
    return if found then ue else pdusessionReleaseResponse ue xid

def pdusessionSetupResp : UeContext :=
  let answered := ue.changeAll fun _ session =>
    { session with
      status := if session.status = .done ∨ session.status = .established then .established else .failed }
  { answered with
    pduSession := fun i => if i < nbRbMax then { answered.pduSession i with xid := 255 } else answered.pduSession i }

/-- The first flows of the session that is found are those of the session at `i`. -/
def copyFlows (source target : List Nat) : List Nat := source.take target.length ++ target.drop source.length

def modifyRespSession (ue : UeContext) (i : Nat) : UeContext :=
  if (ue.pduSession i).xid = xid.val ∧ (ue.pduSession i).status = .done then
    match findPduSession ue (ue.pduSession i).pdusessionId with
    | none => ue
    | some k => ue.change k fun session =>
      { session with
        status := .established, cause := .nothing, fiveQi := copyFlows (ue.pduSession i).fiveQi session.fiveQi }
  else ue

def pdusessionModifyResp : UeContext :=
  (range ue.nbOfPdusessions).foldl (modifyRespSession xid) ue

def handleRrcReconfigurationComplete : UeContext :=
  let answered := match ue.xids xid with
    | .pdusessionRelease => pdusessionReleaseResponse ue xid
    | .pdusessionEstablish => if ue.nbOfPdusessions > 0 then pdusessionSetupResp ue else ue
    | .pdusessionModify => pdusessionModifyResp ue xid
    | .none => ue
  answered.begin xid .none

abbrev RequestedSessions := { sessions : List SessionItem // sessions.length ≤ ngapMaxPdusession }

/-- The requests of the AMF, the reconfiguration after a setup at the DU and its completion by the UE. A
transaction identifier is the next one of the CU. -/
inductive SessionEvent where
  | setupReq (sessions : RequestedSessions)
  | dedicatedReconfiguration (xid : Fin 4)
  | modifyReq (sessions : RequestedSessions) (xid : Fin 4)
  | releaseCommand (ids : List Nat) (xid : Fin 4)
  | reconfigurationComplete (xid : Fin 4)
deriving DecidableEq, Repr

def processSessionEvent : SessionEvent → Except SessionFault UeContext
  | .setupReq sessions => triggerBearerSetup ue sessions.val
  | .dedicatedReconfiguration xid => .ok (generateDedicatedRrcReconfiguration ue xid)
  | .modifyReq sessions xid => processPdusessionModifyReq ue sessions.val xid
  | .releaseCommand ids xid => processPdusessionReleaseCommand ue ids xid
  | .reconfigurationComplete xid => .ok (handleRrcReconfigurationComplete ue xid)

def sessionStep (event : SessionEvent) : Option UeContext :=
  (processSessionEvent ue event).toOption

end OranSlice.Rrc
