import OranSlice.Rlc.RxOrder
import OranSlice.Rlc.SnSpace

/-! The list of received PDUs of a UM entity: it lies in the reassembly window and is ordered from the
lowest SN of the window on. -/

namespace OranSlice.Rlc

open BitCodec Window Ordered List

variable {length : Nat} {m window : Int} {entity next : UmEntity} {x : Int}

def UmEntity.lowest (entity : UmEntity) : Int :=
  (entity.rxNextHighest - entity.windowSize) % entity.snModulus

structure UmSpace (length : Nat) (m window : Int) : Prop where
  power : m = 2 ^ length
  half : m = 2 * window
  positive : 0 < window

theorem UmSpace.modulus_positive (arith : UmSpace length m window) : 0 < m := by
  have half := arith.half
  have positive := arith.positive
  omega

namespace UmEntity.InSpace

variable (arith : UmSpace length m window) (inside : entity.InSpace length m window)

include arith inside

theorem lowest_within : Within m entity.lowest := by
  rw [UmEntity.lowest, inside.modulus]
  exact within_mod arith.modulus_positive _

theorem rxMoves (moves : entity.RxMoves next) : next.InSpace length m window :=
  inside.moves arith.modulus_positive arith.power moves

theorem lowest_eq : entity.lowest =
    if entity.rxNextHighest < window then entity.rxNextHighest - window + m else entity.rxNextHighest - window := by
  have half := arith.half
  obtain ⟨low, high⟩ := inside.nextHighest
  rw [UmEntity.lowest, inside.modulus, inside.window]
  split
  · rw [← Int.add_emod_right]
    exact Int.emod_eq_of_lt (by omega) (by omega)
  · exact Int.emod_eq_of_lt (by omega) (by omega)

theorem modulusRx_eq {a : Int} (a_ok : Within m a) : entity.modulusRx a = distance m entity.lowest a := by
  have half := arith.half
  obtain ⟨low, high⟩ := inside.nextHighest
  obtain ⟨aLow, aHigh⟩ := a_ok
  rw [UmEntity.modulusRx, inside.lowest_eq arith, inside.modulus, inside.window]
  unfold distance
  by_cases wraps : entity.rxNextHighest < window
  · rw [if_pos wraps, if_neg (by omega)]
    split
    · rw [Int.emod_eq_of_lt (by omega) (by omega)]
      omega
    have shift : a - (entity.rxNextHighest - window) =
        a - (entity.rxNextHighest - window + m) + m := by omega
    rw [shift, Int.add_emod_right]
    exact Int.emod_eq_of_lt (by omega) (by omega)
  · split
    · exact Int.emod_eq_of_lt (by omega) (by omega)
    · exact Int.emod_eq_of_lt (by omega) (by omega)

theorem snCompareRx_eq {a b : Int} (a_ok : Within m a) (b_ok : Within m b) :
    entity.snCompareRx a b = distance m entity.lowest a - distance m entity.lowest b := by
  rw [UmEntity.snCompareRx, inside.modulusRx_eq arith a_ok, inside.modulusRx_eq arith b_ok]

theorem distance_nextHighest : distance m entity.lowest entity.rxNextHighest = window := by
  have half := arith.half
  have positive := arith.positive
  rw [inside.lowest_eq arith]
  unfold distance
  split <;> split <;> omega

theorem beyond_iff (x_ok : Within m x) :
    0 ≤ entity.snCompareRx x entity.rxNextHighest ↔ window ≤ distance m entity.lowest x := by
  rw [inside.snCompareRx_eq arith x_ok inside.nextHighest, inside.distance_nextHighest arith]
  omega

end UmEntity.InSpace

structure UmEntity.RxOrdered (length : Nat) (m window : Int) (entity : UmEntity) : Prop where
  inside : entity.InSpace length m window
  near : ∀ pdu ∈ entity.rxList, distance m entity.lowest pdu.sn < window
  sorted : entity.rxList.Pairwise (PduBefore m entity.lowest)

namespace UmEntity.RxOrdered

theorem lowest_eq (ordered : entity.RxOrdered length m window) (inside : next.InSpace length m window)
    (highest : next.rxNextHighest = entity.rxNextHighest) : next.lowest = entity.lowest := by
  rw [UmEntity.lowest, UmEntity.lowest, highest, inside.modulus, inside.window, ordered.inside.modulus,
    ordered.inside.window]

theorem sublist (ordered : entity.RxOrdered length m window) (inside : next.InSpace length m window)
    (list : next.rxList.Sublist entity.rxList) (highest : next.rxNextHighest = entity.rxNextHighest) :
    next.RxOrdered length m window := by
  have same := ordered.lowest_eq inside highest
  refine ⟨inside, ?_, ?_⟩
  · rw [same]
    exact fun pdu member => ordered.near pdu (list.subset member)
  · rw [same]
    exact ordered.sorted.sublist list

section Move

variable (arith : UmSpace length m window) (inside : entity.InSpace length m window) (x_ok : Within m x)
  (beyond : window ≤ distance m entity.lowest x)

abbrev raised (entity : UmEntity) (x : Int) : UmEntity :=
  { entity with rxNextHighest := (x + 1) % entity.snModulus }

include arith inside in
theorem raised_inSpace (x : Int) : (raised entity x).InSpace length m window :=
  { inside with nextHighest := inside.mod arith.modulus_positive _ }

include arith inside x_ok beyond

theorem distance_raised :
    distance m entity.lowest (raised entity x).lowest = distance m entity.lowest x + 1 - window := by
  have half := arith.half
  have bounds := distance_bounds (inside.lowest_within arith) x_ok
  have low := inside.lowest_within arith
  have from_base := add_steps_mod low low x_ok (by rw [distance_self]; exact bounds.1)
  rw [distance_self] at from_base
  have lowest : (raised entity x).lowest =
      (entity.lowest + (distance m entity.lowest x + 1 - window)) % m := by
    change ((x + 1) % entity.snModulus - entity.windowSize) % entity.snModulus = _
    rw [inside.modulus, inside.window, Int.emod_sub_emod]
    nth_rewrite 1 [← from_base]
    rw [add_sub_assoc, Int.emod_add_emod]
    congr 1
    omega
  rw [lowest]
  exact distance_add low ⟨by omega, by omega⟩

theorem outside_iff {pdu : Pdu} (fits : Within m pdu.sn)
    (near : distance m entity.lowest pdu.sn < window ∨ pdu.sn = x) :
    0 ≤ (raised entity x).snCompareRx pdu.sn (raised entity x).rxNextHighest ↔
      distance m entity.lowest pdu.sn < distance m entity.lowest (raised entity x).lowest := by
  have space := raised_inSpace arith inside x
  have low := inside.lowest_within arith
  have new := space.lowest_within arith
  have moved := distance_raised arith inside x_ok beyond
  have bounds := distance_bounds low fits
  have xBounds := distance_bounds low x_ok
  rw [space.beyond_iff arith fits]
  rcases lt_or_ge (distance m entity.lowest pdu.sn) (distance m entity.lowest (raised entity x).lowest) with
    behind | ahead
  · rw [distance_rebase_behind new fits behind]
    omega
  rw [distance_rebase low new fits ahead]
  rcases near with near | same
  · omega
  · rw [same] at ahead ⊢
    omega

end Move

theorem raiseNextReassembly_rx (entity : UmEntity) : entity.raiseNextReassembly.rxList = entity.rxList ∧
    entity.raiseNextReassembly.rxNextHighest = entity.rxNextHighest := by
  unfold UmEntity.raiseNextReassembly
  split <;> exact ⟨rfl, rfl⟩

theorem moveWindow_cases (arith : UmSpace length m window) (inside : entity.InSpace length m window)
    (x_ok : Within m x) :
    window ≤ distance m entity.lowest x ∧
        entity.moveWindow x = (raised entity x).discardOutside.raiseNextReassembly ∨
      distance m entity.lowest x < window ∧ entity.moveWindow x = entity := by
  rcases le_or_gt window (distance m entity.lowest x) with beyond | near
  · exact .inl ⟨beyond, if_pos ((inside.beyond_iff arith x_ok).mpr beyond)⟩
  · exact .inr ⟨near, if_neg (fun far => absurd ((inside.beyond_iff arith x_ok).mp far) (not_le.mpr near))⟩

theorem moveWindow (arith : UmSpace length m window) (inside : entity.InSpace length m window)
    (x_ok : Within m x) (near : ∀ pdu ∈ entity.rxList, distance m entity.lowest pdu.sn < window ∨ pdu.sn = x)
    (sorted : entity.rxList.Pairwise (PduBefore m entity.lowest)) :
    (entity.moveWindow x).RxOrdered length m window := by
  rcases moveWindow_cases arith inside x_ok with ⟨beyond, moved⟩ | ⟨below, stays⟩
  · have space := raised_inSpace arith inside x
    have low := inside.lowest_within arith
    have new := space.lowest_within arith
    let outside (pdu : Pdu) : Bool :=
      decide ((raised entity x).snCompareRx pdu.sn (raised entity x).rxNextHighest ≥ 0)
    have below : ∀ pdu ∈ entity.rxList, (outside pdu = true ↔
        distance m entity.lowest pdu.sn < distance m entity.lowest (raised entity x).lowest) := by
      intro pdu member
      rw [decide_eq_true_eq]
      exact outside_iff arith inside x_ok beyond (inside.rxList pdu member) (near pdu member)
    have listed : entity.rxList.Pairwise (fun a b => PduBefore m entity.lowest a b ∧ a ∈ entity.rxList ∧
        b ∈ entity.rxList) := sorted.imp_of_mem (fun first second ordered => ⟨ordered, first, second⟩)
    have part := dropWhile_sublist outside (l := entity.rxList)
    have kept : ∀ pdu ∈ entity.rxList.dropWhile outside, outside pdu = false := by
      intro pdu member
      apply not_of_mem_dropWhile (p := outside) listed _ member
      intro a b ordered dropped
      have lower := ordered.1.distance_le
      rw [below b ordered.2.2] at dropped
      rw [below a ordered.2.1]
      omega
    have ahead : ∀ pdu ∈ entity.rxList.dropWhile outside,
        distance m entity.lowest (raised entity x).lowest ≤ distance m entity.lowest pdu.sn := by
      intro pdu member
      have refused := kept pdu member
      have iff := below pdu (part.subset member)
      rw [refused] at iff
      simpa using iff
    have discarded : (raised entity x).discardOutside.RxOrdered length m window := by
      refine ⟨{ space with rxList := space.rxList.sublist part }, ?_, ?_⟩
      · intro pdu member
        have refused := of_decide_eq_false (kept pdu member)
        rw [ge_iff_le, space.beyond_iff arith (inside.rxList pdu (part.subset member))] at refused
        exact lt_of_not_ge refused
      · refine (sorted.sublist part).imp_of_mem (fun aMember bMember ordered => ?_)
        exact before_rebase low new (inside.rxList _ (part.subset aMember))
          (inside.rxList _ (part.subset bMember)) (ahead _ aMember) (ahead _ bMember) ordered
    rw [moved]
    refine discarded.sublist (discarded.inside.rxMoves arith (raiseNextReassembly_moves _)) ?_ ?_
    · rw [(raiseNextReassembly_rx _).1]
    · exact (raiseNextReassembly_rx _).2
  · rw [stays]
    refine ⟨inside, ?_, sorted⟩
    intro pdu member
    rcases near pdu member with near | same
    · exact near
    · rw [same]
      exact below

end UmEntity.RxOrdered

namespace UmEntity

theorem updateTimer_eq (entity : UmEntity) : ∃ start trigger,
    entity.stopReassemblyTimer.startReassemblyTimer =
      { entity with tReassemblyStart := start, rxTimerTrigger := trigger } := by
  have stopped : ∃ start, entity.stopReassemblyTimer = { entity with tReassemblyStart := start } := by
    unfold UmEntity.stopReassemblyTimer
    split
    · exact ⟨0, rfl⟩
    · exact ⟨entity.tReassemblyStart, rfl⟩
  obtain ⟨start, stopped⟩ := stopped
  rw [stopped]
  unfold UmEntity.startReassemblyTimer
  dsimp only
  split
  · exact ⟨_, _, rfl⟩
  · exact ⟨start, entity.rxTimerTrigger, rfl⟩

theorem afterDelivery_eq (entity : UmEntity) (x : Int) : ∃ reassembly,
    entity.afterDelivery x = { entity with rxNextReassembly := reassembly } := by
  unfold UmEntity.afterDelivery
  split
  · exact ⟨_, rfl⟩
  · exact ⟨entity.rxNextReassembly, rfl⟩

namespace RxOrdered

variable {pdu : DataPdu} (arith : UmSpace length m window)

include arith

omit arith in
theorem setTime_rx (entity : UmEntity) (now : Nat) : ((entity.setTime now).rxList).Sublist entity.rxList ∧
    (entity.setTime now).rxNextHighest = entity.rxNextHighest := by
  cases expired : timerExpired now entity.tReassemblyStart entity.tReassembly with
  | false =>
    rw [setTime_running expired]
    exact ⟨List.Sublist.refl _, rfl⟩
  | true =>
    rw [setTime_expired expired]
    split <;> exact ⟨dropWhile_sublist _, rfl⟩

variable (ordered : entity.RxOrdered length m window)

include ordered

theorem withPdu_sorted (fits : Within m pdu.sn) :
    (entity.withPdu pdu).rxList.Pairwise (PduBefore m entity.lowest) := by
  apply pduListAdd_pairwise (ordered.inside.lowest_within arith) fits ordered.inside.rxList _ ordered.sorted
  intro other member
  exact ordered.inside.snCompareRx_eq arith (ordered.inside.rxList other member) fits

omit arith in
theorem withPdu_near :
    ∀ other ∈ (entity.withPdu pdu).rxList, distance m entity.lowest other.sn < window ∨ other.sn = pdu.sn := by
  intro other member
  rcases (mem_orderedInsert _).mp member with new | old
  · exact .inr (by rw [new])
  · exact .inl (ordered.near other old)

omit arith in
theorem near_of_full (segment : ¬ (pdu.so = 0 ∧ pdu.isLast = true))
    (full : (entity.withPdu pdu).sduFull pdu.sn = true) : distance m entity.lowest pdu.sn < window := by
  by_contra far
  have alone : ∀ other ∈ fromSn pdu.sn (entity.withPdu pdu).rxList, other.sn = pdu.sn →
      other = ⟨pdu.sn, pdu.so, pdu.data.length, pdu.isFirst, pdu.isLast, some pdu.data⟩ := by
    intro other member same
    rcases (mem_orderedInsert _).mp ((dropWhile_sublist _).subset member) with new | old
    · exact new
    · have near := ordered.near other old
      rw [same] at near
      exact absurd near far
  rw [UmEntity.sduFull, Bool.and_eq_true] at full
  obtain ⟨first, firstIn, firstSn, firstHolds⟩ := fullFrom_holds full.2 0 (by omega)
  obtain ⟨last, lastIn, lastSn, lastHolds⟩ := fullFrom_holds full.2 (pdu.so + pdu.data.length) (by omega)
  rw [alone first firstIn firstSn] at firstHolds
  rw [alone last lastIn lastSn] at lastHolds
  dsimp only at firstHolds lastHolds
  apply segment
  rcases lastHolds with between | ⟨isLast, _⟩
  · omega
  · exact ⟨by omega, isLast⟩

theorem updateTimer : entity.stopReassemblyTimer.startReassemblyTimer.RxOrdered length m window := by
  obtain ⟨start, trigger, timed⟩ := updateTimer_eq entity
  apply ordered.sublist (ordered.inside.rxMoves arith (updateTimer_moves entity))
  · rw [timed]
  · rw [timed]

omit arith in
theorem of_keys (inside : next.InSpace length m window)
    (keys : next.rxList.map (fun pdu => (pdu.sn, pdu.so)) = entity.rxList.map (fun pdu => (pdu.sn, pdu.so)))
    (highest : next.rxNextHighest = entity.rxNextHighest) : next.RxOrdered length m window := by
  have same := ordered.lowest_eq inside highest
  refine ⟨inside, ?_, ?_⟩
  · rw [same]
    intro pdu member
    have listed : (pdu.sn, pdu.so) ∈ entity.rxList.map (fun pdu => (pdu.sn, pdu.so)) :=
      keys ▸ mem_map_of_mem member
    obtain ⟨old, present, equal⟩ := mem_map.mp listed
    rw [← (Prod.mk.inj equal).1]
    exact ordered.near old present
  · rw [same]
    have sorted : (entity.rxList.map (fun pdu => (pdu.sn, pdu.so))).Pairwise (fun a b =>
        distance m entity.lowest a.1 < distance m entity.lowest b.1 ∨ (a.1 = b.1 ∧ a.2 ≤ b.2)) :=
      pairwise_map.mpr ordered.sorted
    rw [← keys, pairwise_map] at sorted
    exact sorted

theorem deliver (x : Int) : ((entity.reassembleAndDeliver x).1.afterDelivery x).RxOrdered length m window := by
  obtain ⟨reassembly, delivered⟩ := afterDelivery_eq (entity.reassembleAndDeliver x).1 x
  apply ordered.of_keys (ordered.inside.rxMoves arith (deliver_moves entity x))
  · rw [delivered]
    exact @map_consume _ UmEntity.freePdu _ (fun _ => rfl) x entity.rxList
  · rw [delivered]
    rfl

theorem recvSegment (fits : Within m pdu.sn)
    (segment : ¬ (pdu.so = 0 ∧ pdu.isLast = true)) : (entity.recvSegment pdu).1.RxOrdered length m window := by
  have stored : (entity.withPdu pdu).InSpace length m window :=
    { ordered.inside with rxList := ordered.inside.rxList.add _ fits }
  have near := @withPdu_near length m window entity pdu ordered
  have sorted := ordered.withPdu_sorted arith fits
  unfold UmEntity.recvSegment
  split
  · exact ordered
  split
  · exact ordered
  unfold UmEntity.receptionActions
  apply updateTimer arith
  split_ifs with full
  · have inWindow := ordered.near_of_full segment full
    have kept : (entity.withPdu pdu).RxOrdered length m window := by
      refine ⟨stored, ?_, sorted⟩
      intro other member
      rcases near other member with inside | same
      · exact inside
      · rw [same]
        exact inWindow
    exact kept.deliver arith pdu.sn
  · exact moveWindow arith stored fits near sorted

theorem recvPdu (buffer : List Byte) : (entity.recvPdu buffer).1.RxOrdered length m window := by
  unfold UmEntity.recvPdu
  split
  · exact ordered
  rename_i si stream flags
  split
  · split <;> exact ordered
  split
  · exact ordered
  rename_i pdu read
  obtain ⟨same, stream, again, isFirst, isLast, first, _, low, high⟩ := decodeSegment_spec read
  rw [ordered.inside.length, ← arith.power] at high
  apply ordered.recvSegment arith ⟨low, high⟩
  cases flags.symm.trans again
  rw [← first]
  have bound := (take?_eq_some flags).1
  have values : si = 1 ∨ si = 2 ∨ si = 3 := by omega
  rw [isFirst, isLast]
  rcases values with same | same | same <;> subst same <;> decide

omit arith in
theorem sameRx (inside : next.InSpace length m window)
    (same : entity.SameRx next) : next.RxOrdered length m window :=
  ordered.sublist inside (by rw [same.list]) same.highest

end RxOrdered

theorem RxOrdered.step (arith : UmSpace length m window) {op : UmOp} (ordered : entity.RxOrdered length m window)
    (keeps : UmOp.KeepsLength entity op) (taken : entity.step op = some next) :
    next.RxOrdered length m window := by
  have positive := arith.modulus_positive
  have whole := ordered.inside
  cases op with
  | recvSdu buffer sduId => exact ordered.sameRx (whole.recvSdu taken) (SameRx.recvSdu taken)
  | discardSdu sduId =>
    cases taken
    exact ordered.sameRx (whole.discardSdu sduId) (SameRx.discardSdu entity sduId)
  | generatePdu size =>
    cases taken
    exact ordered.sameRx (whole.generatePdu positive size) (SameRx.generatePdu entity size)
  | recvPdu buffer =>
    cases taken
    exact ordered.recvPdu arith buffer
  | setTime now =>
    cases taken
    obtain ⟨list, highest⟩ := RxOrdered.setTime_rx entity now
    exact ordered.sublist (whole.setTime positive now) list highest
  | reestablishment =>
    cases taken
    refine ⟨.initial positive entity whole.length whole.modulus whole.window, ?_, List.Pairwise.nil⟩
    exact forall_mem_nil _
  | reconfigure tReassembly snFieldLength =>
    cases taken
    have same : snFieldLength.getD entity.snFieldLength = length := by
      cases snFieldLength with
      | none => exact whole.length
      | some other => exact keeps.trans whole.length
    exact ⟨{ whole with length := same }, ordered.near, ordered.sorted⟩

end UmEntity

theorem newNrRlcEntityUm_ordered {rxMaxsize txMaxsize : Int} {tReassembly snFieldLength : Nat}
    (created : newNrRlcEntityUm rxMaxsize txMaxsize tReassembly snFieldLength = some entity) :
    UmSpace snFieldLength (2 ^ snFieldLength) (2 ^ snFieldLength / 2) ∧
      entity.RxOrdered snFieldLength (2 ^ snFieldLength) (2 ^ snFieldLength / 2) := by
  have space := UmEntity.storedSns_within.mp (newNrRlcEntityUm_hasSnSpace created).inside
  unfold newNrRlcEntityUm at created
  split at created
  · rename_i admitted
    cases created
    refine ⟨?_, space, ?_, List.Pairwise.nil⟩
    · rcases admitted with short | long
      · subst short
        exact ⟨rfl, by decide, by decide⟩
      · subst long
        exact ⟨rfl, by decide, by decide⟩
    · exact forall_mem_nil _
  · cases created

end OranSlice.Rlc
