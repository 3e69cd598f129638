import OranSlice.Rlc.Reassembly
import OranSlice.Rlc.RxHistory

/-! The size of the receive buffer of an AM entity. Delivered SDUs stay in the list, without their data,
until RX_Next passes them and their PDUs are freed without a look at their data. A PDU stored under the
SN of a delivered SDU is counted and never taken off. -/

namespace OranSlice.Rlc

open Window Runs List

variable {cfg : AmConfig} {rx : AmRx} {x : Int} {list front back : List Pdu} {pdu : DataPdu}

def buffered (list : List Pdu) : Int :=
  ((list.filter (fun pdu => pdu.data.isSome)).map (fun pdu => (pdu.size : Int))).sum

theorem buffered_append : buffered (front ++ back) = buffered front + buffered back := by
  simp [buffered]

theorem buffered_perm (same : front.Perm back) : buffered front = buffered back :=
  ((same.filter _).map _).sum_eq

theorem buffered_consumed (consumed : ∀ pdu ∈ list, pdu.data = none) : buffered list = 0 := by
  have none : list.filter (fun pdu => pdu.data.isSome) = [] := by
    rw [filter_eq_nil_iff]
    intro pdu member
    simp [consumed pdu member]
  rw [buffered, none]
  rfl

theorem buffered_unread (unread : ∀ pdu ∈ list, pdu.data ≠ none) :
    buffered list = (list.map (fun pdu => (pdu.size : Int))).sum := by
  have all : list.filter (fun pdu => pdu.data.isSome) = list := by
    rw [filter_eq_self]
    exact fun pdu member => Option.isSome_iff_ne_none.mpr (unread pdu member)
  rw [buffered, all]

def Uniform (list : List Pdu) : Prop :=
  ∀ a ∈ list, ∀ b ∈ list, a.sn = b.sn → a.data = none → b.data = none

theorem Uniform.sublist (uniform : Uniform list) (sub : front.Sublist list) : Uniform front :=
  fun a aIn b bIn => uniform a (sub.subset aIn) b (sub.subset bIn)

theorem Uniform.unread (uniform : Uniform list) (waits : isConsumed (fromSn x list) = false) :
    ∀ pdu ∈ list, pdu.sn = x → pdu.data ≠ none := by
  intro pdu member same consumed
  cases found : fromSn x list with
  | nil =>
    have skipped := dropWhile_eq_nil_iff.mp found pdu member
    simp [same] at skipped
  | cons first rest =>
    have stopped := head?_dropWhile_not (fun l : Pdu => l.sn != x) list
    rw [show list.dropWhile (fun l => l.sn != x) = first :: rest from found] at stopped
    have firstSn : first.sn = x := by simpa using stopped
    have listed : first ∈ list := (dropWhile_sublist _).subset (found ▸ mem_cons_self)
    rw [found, isConsumed, uniform pdu member first listed (same.trans firstSn.symm) consumed] at waits
    cases waits

structure AmRx.Booked (cfg : AmConfig) (rx : AmRx) : Prop where
  ok : rx.ListOk cfg
  size : rx.rxSize = buffered rx.rxList
  uniform : Uniform rx.rxList

namespace AmRx.Booked

theorem congr {next : AmRx} (booked : rx.Booked cfg) (ok : next.ListOk cfg) (list : next.rxList = rx.rxList)
    (size : next.rxSize = rx.rxSize) : next.Booked cfg :=
  ⟨ok, by rw [size, list, booked.size], list ▸ booked.uniform⟩

theorem store (booked : rx.Booked cfg) (ok : (rx.store cfg pdu).ListOk cfg)
    (waits : rx.sduDelivered pdu.sn = false) : (rx.store cfg pdu).Booked cfg := by
  have unread := booked.uniform.unread waits
  refine ⟨ok, ?_, ?_⟩
  · have added := buffered_perm (perm_orderedInsert (fun pdu cur : Pdu =>
      comesAfter (rx.snCompareRx cfg) cur.sn cur.so pdu.sn pdu.so = true) pdu.stored rx.rxList)
    change rx.rxSize + pdu.data.length = buffered (orderedInsert _ pdu.stored rx.rxList)
    rw [added, booked.size]
    simp [buffered, DataPdu.stored, add_comm]
  · intro a aIn b bIn same consumed
    rcases (mem_orderedInsert _).mp aIn with aNew | aOld
    · rw [aNew] at consumed
      cases consumed
    rcases (mem_orderedInsert _).mp bIn with bNew | bOld
    · rw [bNew] at same
      exact absurd consumed (unread a aOld same)
    · exact booked.uniform a aOld b bOld same consumed

theorem reassembleAndDeliver (booked : rx.Booked cfg) (full : rx.sduFull x = true)
    (ok : (rx.reassembleAndDeliver x).1.ListOk cfg) : (rx.reassembleAndDeliver x).1.Booked cfg := by
  obtain ⟨held, listed, sn, _⟩ := sduFull_holds full 0
  have x_ok : Within cfg.snModulus x := sn ▸ booked.ok.space.list held listed
  have waits : isConsumed (fromSn x rx.rxList) = false := by
    rw [AmRx.sduFull, Bool.and_eq_true, Bool.not_eq_true'] at full
    exact full.1
  obtain ⟨before, block, after, split⟩ :=
    Split.of_sorted booked.ok.space.next x_ok booked.ok.space.list booked.ok.list.sorted
  have unread : ∀ pdu ∈ block, pdu.data ≠ none := by
    intro pdu member
    obtain ⟨listed, same⟩ := split.mem_iff.mp member
    exact booked.uniform.unread waits pdu listed same
  have list : (rx.reassembleAndDeliver x).1.rxList = before ++ (block.map freeData ++ after) :=
    split.consume_eq freeData
  have size : (rx.reassembleAndDeliver x).1.rxSize = rx.rxSize - consumedSize x (fromSn x rx.rxList) := rfl
  refine ⟨ok, ?_, ?_⟩
  · have gone : buffered (block.map freeData) = 0 := by
      apply buffered_consumed
      intro pdu member
      obtain ⟨old, _, rfl⟩ := mem_map.mp member
      rfl
    rw [size, list, split.consumedSize_eq, ← buffered_unread unread, booked.size, split.whole]
    simp only [buffered_append]
    omega
  · rw [reassembleAndDeliver_list x booked.ok.list.sorted]
    intro a aIn b bIn same consumed
    obtain ⟨oldA, aListed, rfl⟩ := mem_map.mp aIn
    obtain ⟨oldB, bListed, rfl⟩ := mem_map.mp bIn
    simp only [delivered_sn] at same
    unfold delivered at consumed ⊢
    by_cases here : oldB.sn = x
    · rw [if_pos here]
      rfl
    · rw [if_neg here]
      rw [if_neg (same ▸ here)] at consumed
      exact booked.uniform oldA aListed oldB bListed same consumed

theorem advance_buffered (fuel : Nat) {rxNext : Int} (uniform : Uniform list) :
    buffered (advance cfg fuel rxNext list).2 = buffered list := by
  induction fuel generalizing rxNext list with
  | zero => rfl
  | succ fuel ih =>
    unfold advance
    split
    · rfl
    rename_i first rest
    split_ifs with lowest
    · have consumed : first.data = none := Option.isNone_iff_eq_none.mp lowest.1
      have freed : buffered ((first :: rest).takeWhile (fun l => l.sn == rxNext)) = 0 := by
        apply buffered_consumed
        intro pdu member
        have same : pdu.sn = rxNext := by simpa using mem_takeWhile_imp member
        exact uniform first mem_cons_self pdu ((takeWhile_sublist _).subset member)
          (lowest.2.trans same.symm) consumed
      have parts := @buffered_append ((first :: rest).takeWhile (fun l => l.sn == rxNext))
        ((first :: rest).dropWhile (fun l => l.sn == rxNext))
      rw [takeWhile_append_dropWhile, freed] at parts
      rw [ih (uniform.sublist (dropWhile_sublist _)), parts, zero_add]
    · rfl

theorem moves {next : AmRx} (booked : rx.Booked cfg) (large : 1 < cfg.snModulus) (moves : rx.Moves cfg next) :
    next.Booked cfg := by
  induction moves with
  | refl => exact booked
  | tail _ move booked =>
    have ok := booked.ok.moves large (.single move)
    cases move with
    | deliver x full => exact booked.reassembleAndDeliver full ok
    | advance fuel =>
      exact ⟨ok, booked.size.trans (advance_buffered fuel booked.uniform).symm,
        booked.uniform.sublist (advance_sublist fuel _ _)⟩
    | _ => exact booked.congr ok rfl rfl

end AmRx.Booked

def DataOp.SparesDelivered (entity : AmEntity) : DataOp → Prop
  | .recvPdu buffer => isDataPdu buffer = true → ∀ pdu ∈ decodeDataPdu entity.cfg buffer,
      entity.rx.accepts entity.cfg pdu = true → entity.rx.sduDelivered pdu.sn = false
  | _ => True

structure AmEntity.RxBalanced (entity : AmEntity) : Prop where
  size : entity.rx.rxSize = buffered entity.rx.rxList
  refused : ∀ pdu : DataPdu, entity.cfg.rxMaxsize < entity.rx.rxSize + pdu.data.length →
    entity.cfg.rxMaxsize < buffered entity.rx.rxList + pdu.data.length

structure AmEntity.RxBooked (entity : AmEntity) : Prop where
  sound : entity.cfg.Sound
  rx : entity.rx.Booked entity.cfg

theorem AmEntity.RxBooked.balanced {entity : AmEntity} (booked : entity.RxBooked) : entity.RxBalanced := by
  refine ⟨booked.rx.size, fun pdu full => ?_⟩
  rw [← booked.rx.size]
  exact full

theorem AmEntity.RxBooked.dataStep (entity : AmEntity) (op : DataOp) (next : AmEntity)
    (booked : entity.RxBooked) (spares : op.SparesDelivered entity) (taken : entity.dataStep op = some next) :
    next.RxBooked := by
  have large := booked.sound.modulus_large
  obtain ⟨same, move, _⟩ := AmEntity.dataStep_moves taken
  refine ⟨same ▸ booked.sound, ?_⟩
  rw [same]
  rcases move.moves with moves | ⟨buffer, pdu, rfl, isData, read, accepted, moves⟩
  · exact booked.rx.moves (by omega) moves
  · exact (booked.rx.store (booked.rx.ok.accepted booked.sound.modulus read accepted)
      (spares isData pdu read accepted)).moves (by omega) moves

/-- In every run in which no PDU is stored under the SN of a delivered SDU, the size of the receive buffer
is that of the data in it. -/
theorem rx_size_exact {rxMaxsize txMaxsize : Int} {params : AmParams} {snFieldLength : Nat} {entity : AmEntity}
    (created : newNrRlcEntityAm rxMaxsize txMaxsize params snFieldLength = some entity) (ops : List DataOp)
    (spares : Steps AmEntity.dataStep (fun entity op => op.SparesDelivered entity) entity ops) :
    Along AmEntity.dataStep AmEntity.RxBalanced entity ops := by
  obtain ⟨sound, rx, _, _⟩ := newNrRlcEntityAm_sound created
  have large := sound.modulus_large
  have start : entity.RxBooked := by
    refine ⟨sound, ?_⟩
    rw [rx]
    refine ⟨.initial (by omega), rfl, ?_⟩
    intro a member
    cases member
  intro front inside middle reached
  exact (invariant_along AmEntity.RxBooked.dataStep entity ops start spares front inside middle reached).balanced

instance (entity : AmEntity) (op : DataOp) : Decidable (op.SparesDelivered entity) :=
  match op with
  | .recvPdu buffer => inferInstanceAs (Decidable (isDataPdu buffer = true →
      ∀ pdu ∈ decodeDataPdu entity.cfg buffer,
        entity.rx.accepts entity.cfg pdu = true → entity.rx.sduDelivered pdu.sn = false))
  | .recvSdu _ _ | .discardSdu _ | .generatePdu _ | .setTime _ => isTrue trivial

def outOfOrderOps : List DataOp := [.recvPdu [0x80, 1, 7], .setTime 1, .recvPdu [0x80, 0, 8]]

theorem rx_size_out_of_order :
    ∃ entity, newNrRlcEntityAm 10000000 10000000 defaultAmParams 12 = some entity ∧
      Along AmEntity.dataStep AmEntity.RxBalanced entity outOfOrderOps :=
  ⟨_, rfl, @rx_size_exact 10000000 10000000 defaultAmParams 12 _ rfl outOfOrderOps
    (steps_of_check (by decide +kernel))⟩

/-- Between them comes a segment of SDU 1 from its byte 5 on. It is stored, and freed with SDU 1, but it
stays in the size of the buffer. -/
theorem rx_size_grows :
    ∃ start entity, newNrRlcEntityAm 10000000 10000000 defaultAmParams 12 = some start ∧
      run AmEntity.dataStep start
        [.recvPdu [0x80, 1, 7], .recvPdu [0xB0, 1, 0, 5, 9, 9, 9], .recvPdu [0x80, 0, 8]] = some entity ∧
      entity.rx.rxList = [] ∧ entity.rx.rxSize = 3 ∧ ¬ entity.RxBalanced := by
  refine reached_of_check (fun entity => entity.rx.rxList = [] ∧ entity.rx.rxSize = 3) (by decide) ?_
  intro entity ⟨empty, size⟩
  refine ⟨empty, size, ?_⟩
  intro balanced
  have exact_ := balanced.size
  rw [empty, size] at exact_
  cases exact_

end OranSlice.Rlc
