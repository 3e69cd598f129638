import OranSlice.Pdcp.Reception

/-! Suspension and the re-establishment of a UM DRB empty the list of SDUs only if the reordering timer
counts as running, which a timer started at time 0 does not. -/

namespace OranSlice.Pdcp

open BitCodec Runs

variable {crypto : Crypto} {entity : PdcpEntity} {session next : Session} {op : PdcpOp}

structure PdcpEntity.Emptied (entity : PdcpEntity) : Prop where
  list : entity.rxList = []
  next : entity.rxNext = 0
  deliv : entity.rxDeliv = 0

structure PdcpEntity.ResetsClean (entity : PdcpEntity) : Prop where
  suspend : entity.suspend.1.Emptied
  reestablish : entity.type = .drbUm → ∀ parameters result,
    entity.reestablish parameters = some result → result.1.Emptied

/-- The clock is not at 0 when a PDU arrives, and no accepted PDU stands for the last COUNT. -/
def PdcpOp.ReceivesOnClock (crypto : Crypto) (entity : PdcpEntity) : PdcpOp → Prop
  | .recvPdu pdu => entity.tCurrent ≠ 0 ∧ (PdcpOp.recvPdu pdu).KeepsOrder crypto entity
  | .setTime _ => True
  | _ => False

instance (crypto : Crypto) (entity : PdcpEntity) (op : PdcpOp) : Decidable (op.ReceivesOnClock crypto entity) :=
  match op with
  | .recvPdu _ => inferInstanceAs (Decidable (_ ∧ _))
  | .setTime _ => .isTrue trivial
  | .processSdu _ _ | .setSecurity _ | .suspend | .reestablish _ => .isFalse id

namespace PdcpEntity

def Guarded (entity : PdcpEntity) : Prop := entity.tReorderingStart = 0 → entity.rxNext ≤ entity.rxDeliv

theorem startReordering_guarded (clock : entity.tCurrent ≠ 0) : entity.startReordering.Guarded := by
  rcases startReordering_cases with ⟨same, running⟩ | ⟨started, _⟩
  · rw [same]
    intro stopped
    exact not_lt.mp (fun behind => running ⟨stopped, behind⟩)
  · rw [started]
    exact fun stopped => absurd stopped clock

theorem Guarded.takePdu (guarded : entity.Guarded) (clock : entity.tCurrent ≠ 0) (pdu : List Byte) :
    (entity.takePdu crypto pdu).1.Guarded := by
  unfold PdcpEntity.takePdu
  split
  · exact guarded
  rename_i sdu _
  split
  · exact guarded
  have same : ((entity.addSdu sdu).deliverFrom sdu.count).1.stopReordering.tCurrent = entity.tCurrent := by
    rw [stopReordering_eq]
    unfold deliverFrom
    split <;> rfl
  exact startReordering_guarded (same ▸ clock)

theorem Guarded.setTime (guarded : entity.Guarded) (now : Nat) : (entity.setTime now).1.Guarded := by
  unfold PdcpEntity.setTime checkTReordering
  split_ifs with expired
  · exact guarded
  · simp only [tReorderingExpired, Bool.not_eq_true', decide_eq_false_iff_not] at expired
    exact startReordering_guarded (by change now ≠ 0; omega)

theorem resetsClean_iff : entity.ResetsClean ↔ entity.suspend.1.Emptied := by
  refine ⟨ResetsClean.suspend, fun emptied => ⟨emptied, ?_⟩⟩
  intro um parameters result reestablished
  obtain ⟨after, set, rfl⟩ := Option.map_eq_some_iff.mp reestablished
  have state : entity.reestablishState.1 = entity.flushReordering.1.resetCounts := by
    unfold reestablishState
    rw [um]
  obtain ⟨_, _, _, _, _, same, _⟩ := setSecurity_eq set
  rw [same]
  refine ⟨?_, congrArg rxNext state, congrArg rxDeliv state⟩
  exact (congrArg rxList state).trans emptied.list

end PdcpEntity

structure Session.Receiving (session : Session) : Prop where
  rx : session.RxOk
  guarded : session.entity.Guarded

theorem Session.Receiving.step (receiving : session.Receiving) (legal : op.ReceivesOnClock crypto session.entity)
    (taken : session.step crypto op = some next) : next.Receiving := by
  cases op with
  | recvPdu pdu =>
    refine ⟨receiving.rx.step legal.2 taken, ?_⟩
    obtain ⟨result, received, rfl⟩ := Option.map_eq_some_iff.mp taken
    rw [PdcpEntity.recvPdu_eq received]
    exact receiving.guarded.takePdu legal.1 pdu
  | setTime now =>
    refine ⟨@Session.RxOk.step crypto _ _ receiving.rx (.setTime now) trivial taken, ?_⟩
    cases taken
    exact receiving.guarded.setTime now
  | processSdu | setSecurity | suspend | reestablish => exact legal.elim

theorem Session.Receiving.resetsClean (receiving : session.Receiving) : session.entity.ResetsClean := by
  rw [PdcpEntity.resetsClean_iff]
  have safe : session.entity.rxList = [] ∨ session.entity.tReorderingStart ≠ 0 := by
    by_contra neither
    rw [not_or, not_not] at neither
    obtain ⟨sdu, member⟩ := List.exists_mem_of_ne_nil _ neither.1
    have inside := receiving.rx.inOrder.inside sdu member
    have none := receiving.guarded neither.2
    omega
  obtain ⟨drained, _⟩ := Session.RxOk.flushed safe
  exact { drained with }

/-- From creation on, whatever is received and whenever: a reset leaves no SDU of before behind, if PDUs
come only after the clock has left 0. -/
theorem pdcp_reset_leaves_no_sdu (crypto : Crypto) {type : EntityType} {isGnb : Bool} {rbId : Int}
    {hasSdapRx hasSdapTx : Bool} {snSize : Nat} {tReordering : Int} {parameters : SecurityKeysAndAlgos}
    {entity : PdcpEntity} (size : snSize = shortSnSize ∨ snSize = longSnSize)
    (created : newNrPdcpEntity type isGnb rbId hasSdapRx hasSdapTx snSize tReordering parameters = some entity)
    (ops : List PdcpOp)
    (legal : Steps (Session.step crypto) (fun session op => op.ReceivesOnClock crypto session.entity)
      { entity := entity } ops) :
    Along (Session.step crypto) (fun session => session.entity.ResetsClean) { entity := entity } ops := by
  have start : Session.Receiving { entity := entity } := by
    refine ⟨Session.RxOk.start size created, ?_⟩
    obtain ⟨_, _, _, _, _, rfl, _⟩ := PdcpEntity.setSecurity_eq created
    exact fun _ => le_refl 0
  intro front inside session reached
  exact (invariant_along (fun _ _ _ receiving allowed taken => receiving.step allowed taken) _ ops start legal
    front inside session reached).resetsClean

theorem pdcp_reset_leaves_no_sdu_gap :
    ∃ entity, newNrPdcpEntity .drbAm true 1 false false 12 100 noSecurity = some entity ∧
      Along (Session.step plainCrypto) (fun session => session.entity.ResetsClean) { entity := entity } gapRun := by
  have checked : (newNrPdcpEntity .drbAm true 1 false false 12 100 noSecurity).any (fun entity =>
      checkSteps (Session.step plainCrypto) (fun session op => op.ReceivesOnClock plainCrypto session.entity)
        { entity := entity } gapRun) = true := by
    decide +kernel
  obtain ⟨entity, created, legal⟩ := (Option.any_eq_true _ _).mp checked
  exact ⟨entity, created, pdcp_reset_leaves_no_sdu plainCrypto (.inl rfl) created gapRun (steps_of_check legal)⟩

/-- SDU 1 that arrives before the clock is set stays in the list over a suspension, and over the
re-establishment of the UM bearer. -/
theorem pdcp_reset_keeps_sdu :
    ∃ entity session, newNrPdcpEntity .drbUm true 1 false false 12 100 noSecurity = some entity ∧
      run (Session.step plainCrypto) { entity := entity } [.recvPdu [0x80#8, 1#8, 7#8]] = some session ∧
      ¬ session.entity.ResetsClean ∧
      (session.entity.reestablish noSecurity).map (fun result =>
        (result.1.rxList.map PdcpSdu.count, result.1.rxNext)) = some ([1], 0) := by
  refine reached_of_check (fun session => session.entity.suspend.1.rxList.length = 1 ∧
    (session.entity.reestablish noSecurity).map (fun result =>
      (result.1.rxList.map PdcpSdu.count, result.1.rxNext)) = some ([1], 0)) (by decide) ?_
  intro session ⟨left, reestablished⟩
  refine ⟨fun clean => ?_, reestablished⟩
  rw [clean.suspend.list] at left
  cases left

end OranSlice.Pdcp
