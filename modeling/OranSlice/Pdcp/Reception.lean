import Mathlib.Data.List.TakeWhile
import OranSlice.Core.Reorder
import OranSlice.Pdcp.Session

/-! PDCP delivers SDUs in the order of COUNT and at most once, up to the end of the COUNT space. -/

namespace OranSlice.Pdcp

open BitCodec Runs List

variable {crypto : Crypto} {entity : PdcpEntity}

namespace PdcpEntity

structure Configured (entity : PdcpEntity) : Prop where
  snSize : entity.snSize = shortSnSize ∨ entity.snSize = longSnSize
  snMax : entity.snMax = 2 ^ entity.snSize - 1
  windowSize : entity.windowSize = 2 ^ (entity.snSize - 1)

theorem Configured.small (configured : entity.Configured) : entity.snSize ≤ 32 := by
  rcases configured.snSize with size | size <;> rw [size] <;> decide

/-- The highest SN, when it stands for the last COUNT: RX_DELIV is less than a window from one of the
ends of the COUNT space. -/
def EndsCountSpace (entity : PdcpEntity) (sn : Nat) : Prop :=
  sn = entity.snMax ∧ (entity.rxDeliv < entity.windowSize ∨ countSpace - entity.windowSize ≤ entity.rxDeliv)

instance (entity : PdcpEntity) (sn : Nat) : Decidable (entity.EndsCountSpace sn) :=
  inferInstanceAs (Decidable (_ ∧ _))

theorem rcvdSn_lt (configured : entity.Configured) (buffer : List Byte) :
    entity.rcvdSn buffer < 2 ^ entity.snSize := by
  unfold rcvdSn
  dsimp only
  rcases configured.snSize with short | long
  · rw [short]
    apply Nat.or_lt_two_pow
    · have masked := @Nat.and_le_right (buffer.getD 0 0).toNat 0xf
      unfold shortSnSize
      omega
    · unfold shortSnSize
      omega
  · rw [long]
    apply Nat.or_lt_two_pow
    · apply Nat.or_lt_two_pow
      · have masked := @Nat.and_le_right (buffer.getD 0 0).toNat 0x3
        unfold longSnSize
        omega
      · unfold longSnSize
        omega
    · unfold longSnSize
      omega

theorem count_eq {size sn : Nat} (small : size ≤ 32) (fits : sn < 2 ^ size) (hfn : Nat) :
    hfn <<< size % countSpace ||| sn = hfn % 2 ^ (32 - size) * 2 ^ size + sn := by
  have space : countSpace = 2 ^ (32 - size) * 2 ^ size := by
    rw [← pow_add, Nat.sub_add_cancel small]
    rfl
  rw [Nat.shiftLeft_eq, space, Nat.mul_mod_mul_right, ← Nat.shiftLeft_eq, Nat.shiftLeft_add_eq_or_of_lt fits]

theorem rcvdCount_space (configured : entity.Configured) (inside : entity.rxDeliv < countSpace) {sn : Nat}
    (fits : sn < 2 ^ entity.snSize) :
    entity.rcvdCount sn < countSpace ∧ (entity.rcvdCount sn + 1 = countSpace ↔ entity.EndsCountSpace sn) := by
  unfold rcvdCount EndsCountSpace
  rw [configured.snMax, configured.windowSize, Nat.and_two_pow_sub_one_eq_mod]
  rw [count_eq configured.small fits]
  unfold countSpace at inside ⊢
  rcases configured.snSize with short | long
  · rw [short, shortSnSize] at fits ⊢
    split
    · omega
    · split <;> omega
  · rw [long, longSnSize] at fits ⊢
    split
    · omega
    · split <;> omega

structure Buffered (log : List Nat) (entity : PdcpEntity) : Prop where
  list : Reorder.Ok PdcpSdu.count log entity.rxList entity.rxDeliv entity.rxNext
  space : entity.rxNext < countSpace

def Timed (entity : PdcpEntity) : Prop :=
  entity.tReorderingStart ≠ 0 → entity.rxDeliv < entity.rxReord ∧ entity.rxReord ≤ entity.rxNext

end PdcpEntity

structure TakesFront (count bound : Nat) (list : List PdcpSdu) (result : List PdcpSdu × Nat × List PdcpSdu) :
    Prop where
  split : result.1 ++ result.2.2 = list
  given : ∀ sdu ∈ result.1, sdu.count < result.2.1
  kept : ∀ sdu ∈ result.2.2, result.2.1 ≤ sdu.count
  ahead : count ≤ result.2.1
  bound : result.2.1 ≤ bound

theorem deliverConsecutive_takesFront {count bound : Nat} {list : List PdcpSdu}
    (sorted : list.Pairwise (fun a b => a.count < b.count)) (low : ∀ sdu ∈ list, count ≤ sdu.count)
    (high : ∀ sdu ∈ list, sdu.count < bound) (order : count ≤ bound) (space : bound < countSpace) :
    TakesFront count bound list (deliverConsecutive count list) := by
  induction list generalizing count with
  | nil => exact ⟨rfl, by simp [deliverConsecutive], by simp [deliverConsecutive], le_refl count, order⟩
  | cons sdu rest ih =>
    obtain ⟨first, later⟩ := pairwise_cons.mp sorted
    have below := high sdu mem_cons_self
    unfold deliverConsecutive
    split
    · have next : (count + 1) % countSpace = count + 1 := Nat.mod_eq_of_lt (by omega)
      have taken := @ih (count + 1) later
        (fun other member => by have := first other member; omega)
        (forall_mem_cons.mp high).2 (by omega)
      rw [next]
      generalize deliverConsecutive (count + 1) rest = result at taken ⊢
      obtain ⟨delivered, stop, left⟩ := result
      have ahead := taken.ahead
      dsimp only at ahead ⊢
      refine ⟨congrArg (sdu :: ·) taken.split, ?_, taken.kept, by dsimp only; omega, taken.bound⟩
      intro other member
      rcases mem_cons.mp member with here | there
      · rw [here]
        dsimp only
        omega
      · exact taken.given other there
    · exact ⟨rfl, by simp, low, le_refl count, order⟩

namespace PdcpEntity

variable {log : List Nat}

theorem Buffered.addSdu (ok : entity.Buffered log) {sdu : PdcpSdu} (fresh : entity.isDuplicate sdu.count = false)
    (inside : sdu.count + 1 < countSpace) : (entity.addSdu sdu).Buffered log := by
  simp only [isDuplicate, nrPdcpSduInList, Bool.or_eq_false_iff, decide_eq_false_iff_not, any_eq_false,
    beq_iff_eq] at fresh
  have next : (entity.addSdu sdu).rxNext = if sdu.count ≥ entity.rxNext then sdu.count + 1 else entity.rxNext := by
    unfold PdcpEntity.addSdu
    rw [Nat.mod_eq_of_lt inside]
  constructor
  · rw [next]
    exact ok.list.insert fresh.2 (by omega)
  · rw [next]
    have := ok.space
    split <;> omega

theorem Buffered.deliverFrom (ok : entity.Buffered log) (count : Nat) :
    (entity.deliverFrom count).1.Buffered (log ++ (entity.deliverFrom count).2.map PdcpSdu.count) := by
  unfold PdcpEntity.deliverFrom
  split
  · have taken := deliverConsecutive_takesFront ok.list.sorted (fun sdu member => (ok.list.inside sdu member).1)
      (fun sdu member => (ok.list.inside sdu member).2) ok.list.order ok.space
    exact ⟨ok.list.give taken.split taken.given taken.kept taken.ahead taken.bound, ok.space⟩
  · simpa using ok

@[simp] theorem deliverFrom_timer (count : Nat) :
    (entity.deliverFrom count).1.tReorderingStart = entity.tReorderingStart ∧
      (entity.deliverFrom count).1.rxReord = entity.rxReord ∧
      (entity.deliverFrom count).1.rxNext = entity.rxNext := by
  unfold PdcpEntity.deliverFrom
  split <;> exact ⟨rfl, rfl, rfl⟩

theorem stopReordering_eq : entity.stopReordering = { entity with
    tReorderingStart := if entity.tReorderingStart ≠ 0 ∧ entity.rxDeliv ≥ entity.rxReord then 0
      else entity.tReorderingStart } := by
  unfold stopReordering
  split <;> rfl

theorem startReordering_cases : entity.startReordering = entity ∧
      ¬ (entity.tReorderingStart = 0 ∧ entity.rxDeliv < entity.rxNext) ∨
    entity.startReordering = { entity with rxReord := entity.rxNext, tReorderingStart := entity.tCurrent } ∧
      entity.rxDeliv < entity.rxNext := by
  unfold startReordering
  split_ifs with starts
  · exact .inr ⟨rfl, starts.2⟩
  · exact .inl ⟨rfl, starts⟩

theorem Buffered.startReordering (ok : entity.Buffered log) : entity.startReordering.Buffered log := by
  rcases startReordering_cases with ⟨same, _⟩ | ⟨started, _⟩
  · rw [same]
    exact ok
  · rw [started]
    exact { ok with }

theorem Timed.startReordering (timed : entity.Timed) : entity.startReordering.Timed := by
  rcases startReordering_cases with ⟨same, _⟩ | ⟨started, behind⟩
  · rw [same]
    exact timed
  · rw [started]
    exact fun _ => ⟨behind, le_refl _⟩

theorem stopReordering_timed (bound : entity.tReorderingStart ≠ 0 → entity.rxReord ≤ entity.rxNext) :
    entity.stopReordering.Timed := by
  rw [stopReordering_eq]
  intro running
  dsimp only at running ⊢
  split at running
  · exact absurd rfl running
  · omega

structure InOrder (log : List Nat) (entity : PdcpEntity) : Prop where
  buffered : entity.Buffered log
  timed : entity.Timed

theorem InOrder.storeSdu (ok : entity.InOrder log) {sdu : PdcpSdu} (fresh : entity.isDuplicate sdu.count = false)
    (inside : sdu.count + 1 < countSpace) :
    (entity.storeSdu sdu).1.InOrder (log ++ (entity.storeSdu sdu).2.map PdcpSdu.count) := by
  have delivered := (ok.buffered.addSdu fresh inside).deliverFrom sdu.count
  have bound : ((entity.addSdu sdu).deliverFrom sdu.count).1.tReorderingStart ≠ 0 →
      ((entity.addSdu sdu).deliverFrom sdu.count).1.rxReord ≤
        ((entity.addSdu sdu).deliverFrom sdu.count).1.rxNext := by
    obtain ⟨start, reord, next⟩ := @deliverFrom_timer (entity.addSdu sdu) sdu.count
    rw [start, reord, next]
    intro running
    have upper := (ok.timed running).2
    change entity.rxReord ≤ if sdu.count ≥ entity.rxNext then (sdu.count + 1) % countSpace else entity.rxNext
    rw [Nat.mod_eq_of_lt inside]
    split <;> omega
  refine ⟨Buffered.startReordering ?_, Timed.startReordering (stopReordering_timed bound)⟩
  rw [stopReordering_eq]
  exact { delivered with }

theorem InOrder.checkTReordering (ok : entity.InOrder log) :
    entity.checkTReordering.1.InOrder (log ++ entity.checkTReordering.2.map PdcpSdu.count) := by
  unfold PdcpEntity.checkTReordering
  split
  · simpa using ok
  rename_i expired
  have running : entity.tReorderingStart ≠ 0 := by
    simp only [tReorderingExpired, Bool.not_eq_true', decide_eq_false_iff_not, not_not] at expired
    exact expired.2.1
  obtain ⟨behind, bound⟩ := ok.timed running
  have list := ok.buffered.list
  have parts := @takeWhile_append_dropWhile _ (fun sdu : PdcpSdu => sdu.count < entity.rxReord) entity.rxList
  have afterSub := dropWhile_sublist (fun sdu : PdcpSdu => sdu.count < entity.rxReord) (l := entity.rxList)
  have taken := deliverConsecutive_takesFront (list.sorted.sublist afterSub)
    (fun sdu member => Reorder.le_of_mem_dropWhile list.sorted member)
    (fun sdu member => (list.inside sdu (afterSub.subset member)).2) bound ok.buffered.space
  dsimp only
  generalize deliverConsecutive entity.rxReord _ = result at taken ⊢
  obtain ⟨following, next, left⟩ := result
  obtain ⟨split, frontBelow, backAbove, ahead, upper⟩ := taken
  have whole : entity.rxList.takeWhile (fun sdu => sdu.count < entity.rxReord) ++ following ++ left =
      entity.rxList := by
    rw [append_assoc, split, parts]
  have given := list.give whole (fun sdu member => ?_) backAbove (by omega) upper
  · refine ⟨Buffered.startReordering ⟨given, ok.buffered.space⟩, Timed.startReordering ?_⟩
    exact fun never => absurd rfl never
  · rcases mem_append.mp member with early | late
    · have below : sdu.count < entity.rxReord := by simpa using mem_takeWhile_imp early
      omega
    · exact frontBelow sdu late

theorem Configured.of_frame {next : PdcpEntity} (configured : entity.Configured)
    (same : next.frame = entity.frame) : next.Configured := by
  have snSize : next.snSize = entity.snSize := (congrArg PdcpEntity.snSize same :)
  have snMax : next.snMax = entity.snMax := (congrArg PdcpEntity.snMax same :)
  have windowSize : next.windowSize = entity.windowSize := (congrArg PdcpEntity.windowSize same :)
  exact ⟨snSize ▸ configured.snSize, snMax ▸ snSize ▸ configured.snMax,
    windowSize ▸ snSize ▸ configured.windowSize⟩

theorem readPdu_count {pdu : List Byte} {sdu : PdcpSdu} (read : entity.readPdu crypto pdu = some sdu) :
    entity.entitySuspended = false ∧ sdu.count = entity.rcvdCount (entity.rcvdSn (entity.markData pdu)) := by
  unfold readPdu at read
  split at read
  · cases read
  rename_i active
  dsimp only at read
  split at read
  · cases read
  split at read
  · cases read
    simp only [Bool.or_eq_true, not_or, Bool.not_eq_true] at active
    exact ⟨active.1, rfl⟩
  · cases read

end PdcpEntity

structure Session.InOrder (session : Session) : Prop where
  increasing : session.delivered.Pairwise (· < ·)
  sorted : session.entity.rxList.Pairwise (fun a b => a.count < b.count)
  inside : ∀ sdu ∈ session.entity.rxList,
    session.entity.rxDeliv ≤ sdu.count ∧ sdu.count < session.entity.rxNext

/-- An operation keeps the order: no accepted PDU stands for the last COUNT, and an entity is not reset
while it holds SDUs without a running timer. -/
def PdcpOp.KeepsOrder (crypto : Crypto) (entity : PdcpEntity) : PdcpOp → Prop
  | .recvPdu pdu => (entity.readPdu crypto pdu).isSome = true →
      ¬ entity.EndsCountSpace (entity.rcvdSn (entity.markData pdu))
  | .suspend => entity.rxList = [] ∨ entity.tReorderingStart ≠ 0
  | .reestablish _ => entity.type = .drbUm → entity.rxList = [] ∨ entity.tReorderingStart ≠ 0
  | .setTime _ => True
  | .processSdu _ _ => True
  | .setSecurity _ => True

instance (crypto : Crypto) (entity : PdcpEntity) (op : PdcpOp) : Decidable (op.KeepsOrder crypto entity) :=
  match op with
  | .recvPdu _ => inferInstanceAs (Decidable (_ → ¬ _))
  | .suspend => inferInstanceAs (Decidable (_ ∨ _))
  | .reestablish _ => inferInstanceAs (Decidable (_ → _ ∨ _))
  | .setTime _ | .processSdu _ _ | .setSecurity _ => .isTrue trivial

structure PdcpEntity.Drained (entity : PdcpEntity) : Prop where
  list : entity.rxList = []
  timer : entity.tReorderingStart = 0
  deliv : entity.rxDeliv = 0
  next : entity.rxNext = 0

theorem PdcpEntity.Drained.inOrder (drained : entity.Drained) : entity.InOrder [] := by
  refine ⟨⟨?_, ?_⟩, ?_⟩
  · rw [drained.list, drained.deliv, drained.next]
    exact Reorder.Ok.empty 0
  · rw [drained.next]
    decide
  · intro running
    exact absurd drained.timer running

structure Session.RxOk (session : Session) : Prop where
  configured : session.entity.Configured
  active : session.entity.entitySuspended = false → session.entity.InOrder session.delivered
  idle : session.entity.entitySuspended = true → session.entity.Drained ∧
    session.delivered.Pairwise (· < ·)

namespace Session.RxOk

variable {session next : Session}

theorem inOrder (ok : session.RxOk) : session.InOrder := by
  cases suspended : session.entity.entitySuspended with
  | false =>
    have list := (ok.active suspended).buffered.list
    exact { list with }
  | true =>
    obtain ⟨drained, increasing⟩ := ok.idle suspended
    have list := drained.inOrder.buffered.list
    exact ⟨increasing, list.sorted, list.inside⟩

theorem deliver (ok : session.RxOk) {result : PdcpEntity × List PdcpSdu}
    (same : result.1.frame = session.entity.frame) (active : session.entity.InOrder session.delivered →
      result.1.InOrder (session.delivered ++ result.2.map PdcpSdu.count))
    (idle : session.entity.entitySuspended = true → session.entity.Drained → result.1.Drained ∧ result.2 = []) :
    (session.deliver result).RxOk := by
  have suspended : result.1.entitySuspended = session.entity.entitySuspended :=
    (congrArg PdcpEntity.entitySuspended same :)
  refine ⟨ok.configured.of_frame same, ?_, ?_⟩
  · intro running
    exact active (ok.active (suspended.symm.trans running))
  · intro stopped
    obtain ⟨drained, increasing⟩ := ok.idle (suspended.symm.trans stopped)
    obtain ⟨still, nothing⟩ := idle (suspended.symm.trans stopped) drained
    refine ⟨still, ?_⟩
    simpa [Session.deliver, nothing] using increasing

theorem takePdu (ok : session.RxOk) {pdu : List Byte}
    (legal : (PdcpOp.recvPdu pdu).KeepsOrder crypto session.entity) :
    (session.deliver (session.entity.takePdu crypto pdu)).RxOk := by
  refine ok.deliver (PdcpEntity.takePdu_frame pdu) ?_ ?_
  · intro active
    unfold PdcpEntity.takePdu
    split
    · simpa using active
    rename_i sdu read
    split
    · simpa using active
    rename_i fresh
    obtain ⟨_, count⟩ := PdcpEntity.readPdu_count read
    have inside : session.entity.rxDeliv < countSpace :=
      lt_of_le_of_lt active.buffered.list.order active.buffered.space
    obtain ⟨below, last⟩ := PdcpEntity.rcvdCount_space ok.configured inside
      (PdcpEntity.rcvdSn_lt ok.configured (session.entity.markData pdu))
    have notLast := mt last.mp (legal (by rw [read]; rfl))
    exact active.storeSdu (by simpa using fresh) (by omega)
  · intro suspended drained
    have unread : session.entity.readPdu crypto pdu = none := by
      unfold PdcpEntity.readPdu
      simp [suspended]
    unfold PdcpEntity.takePdu
    rw [unread]
    exact ⟨drained, rfl⟩

theorem setTime (ok : session.RxOk) (now : Nat) : (session.deliver (session.entity.setTime now)).RxOk := by
  refine ok.deliver PdcpEntity.checkTReordering_frame ?_ ?_
  · intro active
    apply PdcpEntity.InOrder.checkTReordering
    exact ⟨⟨active.buffered.list, active.buffered.space⟩, active.timed⟩
  · intro _ drained
    have stopped : ({ session.entity with tCurrent := now } : PdcpEntity).tReorderingExpired = false := by
      simp [PdcpEntity.tReorderingExpired, drained.timer]
    unfold PdcpEntity.setTime PdcpEntity.checkTReordering
    rw [stopped]
    exact ⟨{ drained with }, rfl⟩

theorem flushed (safe : entity.rxList = [] ∨ entity.tReorderingStart ≠ 0) :
    entity.flushReordering.1.resetCounts.Drained ∧ entity.flushReordering.2 = entity.rxList := by
  unfold PdcpEntity.flushReordering
  split_ifs with stopped
  · exact ⟨⟨rfl, rfl, rfl, rfl⟩, rfl⟩
  · have empty := safe.resolve_right stopped
    exact ⟨⟨empty, not_not.mp stopped, rfl, rfl⟩, empty.symm⟩

theorem suspend (ok : session.RxOk) (legal : PdcpOp.suspend.KeepsOrder crypto session.entity) :
    (session.deliver session.entity.suspend).RxOk := by
  obtain ⟨drained, all⟩ := flushed legal
  have configured := ok.configured.of_frame session.entity.flushReordering_frame
  refine ⟨{ configured with },
    fun running => absurd running (by simp [Session.deliver, PdcpEntity.suspend]), fun _ => ⟨?_, ?_⟩⟩
  · exact { drained with }
  · change (session.delivered ++ session.entity.flushReordering.2.map PdcpSdu.count).Pairwise _
    rw [all]
    cases suspended : session.entity.entitySuspended with
    | false =>
      have list := (ok.active suspended).buffered.list
      have given := list.give (append_nil _) (fun sdu member => (list.inside sdu member).2) (by simp)
        list.order (le_refl _)
      exact given.increasing
    | true =>
      obtain ⟨drained, increasing⟩ := ok.idle suspended
      simpa [drained.list] using increasing

theorem reestablishState (ok : session.RxOk)
    (legal : session.entity.type = .drbUm → session.entity.rxList = [] ∨ session.entity.tReorderingStart ≠ 0) :
    session.entity.reestablishState.1.Configured ∧ session.entity.reestablishState.1.InOrder [] := by
  unfold PdcpEntity.reestablishState
  split
  · refine ⟨ok.configured, ?_⟩
    cases suspended : session.entity.entitySuspended with
    | false =>
      have active := ok.active suspended
      exact ⟨⟨active.buffered.list.forget, active.buffered.space⟩, active.timed⟩
    | true => exact (ok.idle suspended).1.inOrder
  · rename_i isUm
    have configured := ok.configured.of_frame session.entity.flushReordering_frame
    exact ⟨{ configured with }, (flushed (legal isUm)).1.inOrder⟩
  · refine ⟨⟨ok.configured.snSize, ok.configured.snMax, ok.configured.windowSize⟩, ?_⟩
    exact PdcpEntity.Drained.inOrder ⟨rfl, rfl, rfl, rfl⟩

theorem unreceived (ok : session.RxOk) (txNext : Nat) (hasCiphering hasIntegrity : Bool)
    (stored : SecurityKeysAndAlgos) (context : List Byte) (integrity : IntegrityAlgorithm × List Byte)
    (processed : Nat) (ciphered : List (List Byte × Nat)) :
    Session.RxOk
      { entity := { session.entity with
          txNext := txNext
          hasCiphering := hasCiphering
          hasIntegrity := hasIntegrity
          securityKeysAndAlgos := stored
          securityContext := context
          integrityContext := integrity }
        delivered := session.delivered
        processed := processed
        ciphered := ciphered } := by
  refine ⟨⟨ok.configured.snSize, ok.configured.snMax, ok.configured.windowSize⟩, ?_, ?_⟩
  · intro running
    have active := ok.active running
    exact ⟨⟨active.buffered.list, active.buffered.space⟩, active.timed⟩
  · intro stopped
    obtain ⟨drained, increasing⟩ := ok.idle stopped
    exact ⟨{ drained with }, increasing⟩

theorem step (ok : session.RxOk) {op : PdcpOp} (legal : op.KeepsOrder crypto session.entity)
    (taken : session.step crypto op = some next) : next.RxOk := by
  cases op with
  | recvPdu pdu =>
    obtain ⟨result, received, rfl⟩ := Option.map_eq_some_iff.mp taken
    rw [PdcpEntity.recvPdu_eq received]
    exact ok.takePdu legal
  | setTime now =>
    cases taken
    exact ok.setTime now
  | suspend =>
    cases taken
    exact ok.suspend legal
  | processSdu buffer pduMaxSize =>
    obtain ⟨⟨entity, pdu⟩, processed, rfl⟩ := Option.map_eq_some_iff.mp taken
    rcases PdcpEntity.processSdu_cases processed with ⟨rfl, rfl⟩ | ⟨_, _, rfl, _, rfl⟩
    · exact ok
    · apply ok.unreceived
  | setSecurity parameters =>
    obtain ⟨entity, set, rfl⟩ := Option.map_eq_some_iff.mp taken
    obtain ⟨_, _, _, _, _, rfl, _⟩ := PdcpEntity.setSecurity_eq set
    apply ok.unreceived
  | reestablish parameters =>
    obtain ⟨result, reestablished, rfl⟩ := Option.map_eq_some_iff.mp taken
    obtain ⟨configured, active⟩ := ok.reestablishState legal
    obtain ⟨entity, set, rfl⟩ := Option.map_eq_some_iff.mp reestablished
    obtain ⟨_, _, _, _, _, rfl, _⟩ := PdcpEntity.setSecurity_eq set
    refine ⟨{ configured with }, ?_, fun stopped => ?_⟩
    · intro _
      exact ⟨⟨active.buffered.list, active.buffered.space⟩, active.timed⟩
    · cases stopped

theorem start {type : EntityType} {isGnb : Bool} {rbId : Int} {hasSdapRx hasSdapTx : Bool} {snSize : Nat}
    {tReordering : Int} {parameters : SecurityKeysAndAlgos} (size : snSize = shortSnSize ∨ snSize = longSnSize)
    (created : newNrPdcpEntity type isGnb rbId hasSdapRx hasSdapTx snSize tReordering parameters = some entity) :
    Session.RxOk { entity := entity } := by
  obtain ⟨_, _, _, _, _, rfl, _⟩ := PdcpEntity.setSecurity_eq created
  refine ⟨⟨size, rfl, rfl⟩, fun _ => ?_, fun stopped => ?_⟩
  · exact PdcpEntity.Drained.inOrder ⟨rfl, rfl, rfl, rfl⟩
  · cases stopped

end Session.RxOk

/-- From creation on, and over any suspensions and re-establishments, SDUs are delivered in the order of
COUNT and at most once, as long as every operation keeps the order. -/
theorem pdcp_delivers_in_order (crypto : Crypto) {type : EntityType} {isGnb : Bool} {rbId : Int}
    {hasSdapRx hasSdapTx : Bool} {snSize : Nat} {tReordering : Int} {parameters : SecurityKeysAndAlgos}
    {entity : PdcpEntity} (size : snSize = shortSnSize ∨ snSize = longSnSize)
    (created : newNrPdcpEntity type isGnb rbId hasSdapRx hasSdapTx snSize tReordering parameters = some entity)
    (ops : List PdcpOp)
    (legal : Steps (Session.step crypto) (fun session op => op.KeepsOrder crypto session.entity)
      { entity := entity } ops) :
    Along (Session.step crypto) Session.InOrder { entity := entity } ops := by
  intro front inside session reached
  exact (invariant_along (fun _ _ _ ok allowed taken => ok.step allowed taken) _ ops (Session.RxOk.start size created)
    legal front inside session reached).inOrder

def gapRun : List PdcpOp :=
  [.setTime 1, .recvPdu [0x80#8, 0#8, 7#8], .recvPdu [0x80#8, 1#8, 7#8], .recvPdu [0x80#8, 3#8, 7#8],
    .setTime 200]

theorem pdcp_delivers_in_order_gap :
    ∃ entity, newNrPdcpEntity .drbAm true 1 false false 12 100 noSecurity = some entity ∧
      Along (Session.step plainCrypto) Session.InOrder { entity := entity } gapRun := by
  have checked : (newNrPdcpEntity .drbAm true 1 false false 12 100 noSecurity).any (fun entity =>
      checkSteps (Session.step plainCrypto) (fun session op => op.KeepsOrder plainCrypto session.entity)
        { entity := entity } gapRun) = true := by
    decide +kernel
  obtain ⟨entity, created, legal⟩ := (Option.any_eq_true _ _).mp checked
  exact ⟨entity, created, pdcp_delivers_in_order plainCrypto (.inl rfl) created gapRun (steps_of_check legal)⟩

/-- After SDU 0, three SNs that stand for COUNTs at the end of the space; then the PDU of SDU 0 again. -/
def replayRun : List PdcpOp :=
  [.setTime 1, .recvPdu [0x80#8, 0#8, 7#8], .recvPdu [0x88#8, 0x01#8, 7#8], .setTime 200, .recvPdu [0x8f#8,
    0xff#8, 7#8], .recvPdu [0x8f#8, 0xfe#8, 7#8], .setTime 400, .recvPdu [0x80#8, 0#8, 7#8]]

theorem pdcp_count_delivered_twice :
    ∃ entity session, newNrPdcpEntity .drbAm true 1 false false 12 100 noSecurity = some entity ∧
      run (Session.step plainCrypto) { entity := entity } replayRun = some session ∧
      session.delivered = [0, 0xfffff801, 0xfffffffe, 0xffffffff, 0] ∧ ¬ session.InOrder := by
  refine reached_of_check (fun session => session.delivered = [0, 0xfffff801, 0xfffffffe, 0xffffffff, 0])
    (by decide) ?_
  intro session delivered
  refine ⟨delivered, fun ordered => ?_⟩
  have increasing := ordered.increasing
  rw [delivered] at increasing
  revert increasing
  decide

end OranSlice.Pdcp
