import OranSlice.Core.Runs
import OranSlice.Pdcp.Entity

/-! The operations on a PDCP entity, with a record of what it has delivered and ciphered. -/

namespace OranSlice.Pdcp

open BitCodec

inductive PdcpOp where
  | recvPdu (buffer : List Byte)
  | setTime (now : Nat)
  | processSdu (buffer : List Byte) (pduMaxSize : Nat)
  | setSecurity (parameters : SecurityKeysAndAlgos)
  | suspend
  | reestablish (parameters : SecurityKeysAndAlgos)
deriving DecidableEq, Repr

/-- `delivered` holds the COUNTs delivered and `processed` the SDUs sent since creation or the last
re-establishment, `ciphered` the keys and COUNTs used since creation. -/
structure Session where
  entity : PdcpEntity
  delivered : List Nat := []
  processed : Nat := 0
  ciphered : List (List Byte × Nat) := []
deriving DecidableEq, Repr

namespace Session

def deliver (session : Session) (result : PdcpEntity × List PdcpSdu) : Session :=
  { session with entity := result.1, delivered := session.delivered ++ result.2.map PdcpSdu.count }

def keystream (session : Session) : List (List Byte × Nat) :=
  if session.entity.hasCiphering then [(session.entity.securityContext, session.entity.txNext)] else []

def send (session : Session) (entity : PdcpEntity) : Option (List Byte) → Session
  | none => { session with entity := entity }
  | some _ => { session with
      entity := entity
      processed := session.processed + 1
      ciphered := session.ciphered ++ session.keystream }

def step (crypto : Crypto) (session : Session) : PdcpOp → Option Session
  | .recvPdu buffer => (session.entity.recvPdu crypto buffer).map session.deliver
  | .setTime now => some (session.deliver (session.entity.setTime now))
  | .processSdu buffer pduMaxSize =>
    (session.entity.processSdu crypto buffer pduMaxSize).map (fun result => session.send result.1 result.2)
  | .setSecurity parameters =>
    (session.entity.setSecurity parameters).map (fun entity => { session with entity := entity })
  | .suspend => some (session.deliver session.entity.suspend)
  | .reestablish parameters =>
    (session.entity.reestablish parameters).map (fun result =>
      { session with entity := result.1, delivered := [], processed := 0 })

end Session

def plainCrypto : Crypto where
  nea2 _ buffer _ _ _ := buffer
  nea2_length _ _ _ _ _ := rfl
  integrity _ _ _ _ _ _ := List.replicate pdcpIntegritySize 0
  integrity_length _ _ _ _ _ _ := rfl

def noSecurity : SecurityKeysAndAlgos := ⟨0, 0, [], []⟩

namespace PdcpEntity

variable {crypto : Crypto} {entity next : PdcpEntity} {parameters : SecurityKeysAndAlgos}

def frame (entity : PdcpEntity) : PdcpEntity :=
  { entity with
    rxNext := 0, rxDeliv := 0, rxReord := 0, tCurrent := 0, tReorderingStart := 0, rxList := [], rxSize := 0 }

@[simp] theorem startReordering_frame : entity.startReordering.frame = entity.frame := by
  unfold PdcpEntity.startReordering
  split <;> rfl

@[simp] theorem stopReordering_frame : entity.stopReordering.frame = entity.frame := by
  unfold PdcpEntity.stopReordering
  split <;> rfl

@[simp] theorem deliverFrom_frame (count : Nat) : (entity.deliverFrom count).1.frame = entity.frame := by
  unfold PdcpEntity.deliverFrom
  split <;> rfl

@[simp] theorem takePdu_frame (pdu : List Byte) : (entity.takePdu crypto pdu).1.frame = entity.frame := by
  unfold takePdu
  split
  · rfl
  split
  · rfl
  · unfold PdcpEntity.storeSdu
    simp only [startReordering_frame, stopReordering_frame, deliverFrom_frame]
    rfl

theorem recvPdu_eq {pdu : List Byte} {received : PdcpEntity × List PdcpSdu}
    (completed : entity.recvPdu crypto pdu = some received) : received = entity.takePdu crypto pdu := by
  unfold recvPdu at completed
  split at completed
  · exact (Option.some.inj completed).symm
  · cases completed

@[simp] theorem checkTReordering_frame : entity.checkTReordering.1.frame = entity.frame := by
  unfold PdcpEntity.checkTReordering
  split
  · rfl
  · simp only [startReordering_frame]
    rfl

@[simp] theorem flushReordering_frame : entity.flushReordering.1.frame = entity.frame := by
  unfold flushReordering
  split <;> rfl

variable {buffer : List Byte} {pduMaxSize : Nat} {result : Option (List Byte)} {algorithm : Int}

theorem processSdu_suspended
    (fits : nrMaxPdcpPduSize buffer.length ≤ pduMaxSize) (suspended : entity.entitySuspended = true) :
    entity.processSdu crypto buffer pduMaxSize = some (entity, none) := by
  rw [processSdu, if_neg (not_lt.mpr fits), if_pos suspended]

theorem processSdu_active
    (fits : nrMaxPdcpPduSize buffer.length ≤ pduMaxSize) (active : entity.entitySuspended = false)
    (asserts : entity.SendAsserts buffer) :
    ∃ pdu, entity.processSdu crypto buffer pduMaxSize =
      some ({ entity with txNext := (entity.txNext + 1) % countSpace }, some pdu) := by
  rw [processSdu, if_neg (not_lt.mpr fits), if_neg (by simp [active]), if_neg (not_not.mpr asserts)]
  exact ⟨_, rfl⟩

theorem processSdu_cases (processed : entity.processSdu crypto buffer pduMaxSize = some (next, result)) :
    (next = entity ∧ result = none) ∨
      (entity.entitySuspended = false ∧ entity.SendAsserts buffer ∧
        next = { entity with txNext := (entity.txNext + 1) % countSpace } ∧ ∃ pdu, result = some pdu) := by
  have fits : nrMaxPdcpPduSize buffer.length ≤ pduMaxSize := by
    by_contra large
    rw [processSdu, if_pos (Nat.lt_of_not_le large)] at processed
    cases processed
  rcases Bool.eq_false_or_eq_true entity.entitySuspended with suspended | active
  · rw [processSdu_suspended fits suspended] at processed
    cases processed
    exact .inl ⟨rfl, rfl⟩
  have asserts : entity.SendAsserts buffer := by
    by_contra fails
    rw [processSdu, if_neg (not_lt.mpr fits), if_neg (by simp [active]), if_pos fails] at processed
    cases processed
  obtain ⟨pdu, sent⟩ := @processSdu_active crypto entity _ _ fits active asserts
  cases sent.symm.trans processed
  exact .inr ⟨active, asserts, rfl, pdu, rfl⟩

def cipheringKey (entity : PdcpEntity) : List Byte := entity.securityKeysAndAlgos.cipheringKey

theorem storeSecurity_eq (entity : PdcpEntity) (parameters : SecurityKeysAndAlgos) :
    ∃ stored, entity.storeSecurity parameters = { entity with securityKeysAndAlgos := stored } ∧
      stored.cipheringKey =
        if parameters.cipheringAlgorithm ≠ -1 then parameters.cipheringKey else entity.cipheringKey := by
  refine ⟨_, rfl, ?_⟩
  split
  · rfl
  · split <;> rfl

theorem setIntegrity_eq (set : entity.setIntegrity algorithm = some next) :
    ∃ hasIntegrity context,
      next = { entity with hasIntegrity := hasIntegrity, integrityContext := context } := by
  unfold setIntegrity at set
  repeat' split at set
  all_goals
    cases set
    try exact ⟨_, _, rfl⟩

theorem setCiphering_eq (set : entity.setCiphering algorithm = some next) :
    ∃ hasCiphering context,
      next = { entity with hasCiphering := hasCiphering, securityContext := context } ∧
      ((hasCiphering = entity.hasCiphering ∧ context = entity.securityContext ∧ algorithm = -1) ∨
        (hasCiphering = true → context = entity.cipheringKey)) := by
  unfold setCiphering at set
  split at set
  · rename_i kept
    cases set
    exact ⟨_, _, rfl, .inl ⟨rfl, rfl, kept⟩⟩
  split at set
  · cases set
    exact ⟨_, _, rfl, .inr (fun never => by cases never)⟩
  split at set
  · cases set
    exact ⟨_, _, rfl, .inr (fun _ => rfl)⟩
  · cases set

theorem setSecurity_eq (set : entity.setSecurity parameters = some next) :
    ∃ hasCiphering hasIntegrity stored context integrity, next = { entity with
        hasCiphering := hasCiphering
        hasIntegrity := hasIntegrity
        securityKeysAndAlgos := stored
        securityContext := context
        integrityContext := integrity } ∧
      stored.cipheringKey =
        (if parameters.cipheringAlgorithm ≠ -1 then parameters.cipheringKey else entity.cipheringKey) ∧
      ((hasCiphering = entity.hasCiphering ∧ context = entity.securityContext ∧
          parameters.cipheringAlgorithm = -1) ∨
        (hasCiphering = true → context = stored.cipheringKey)) := by
  obtain ⟨middle, first, second⟩ := Option.bind_eq_some_iff.mp set
  obtain ⟨stored, same, key⟩ := entity.storeSecurity_eq parameters
  rw [same] at first
  obtain ⟨hasIntegrity, integrity, rfl⟩ := setIntegrity_eq first
  obtain ⟨hasCiphering, context, rfl, ciphering⟩ := setCiphering_eq second
  exact ⟨_, _, _, _, _, rfl, key, ciphering⟩

end PdcpEntity

end OranSlice.Pdcp
