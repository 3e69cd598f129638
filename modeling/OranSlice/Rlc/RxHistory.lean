import OranSlice.Rlc.RxOrder

/-! The receiving side over whole runs: its invariant, and where the PDUs it holds come from. -/

namespace OranSlice.Rlc

open BitCodec Window List

variable {cfg : AmConfig} {rx : AmRx} {entity next : AmEntity} {op : DataOp}

structure AmEntity.RxOk (entity : AmEntity) : Prop where
  sound : entity.cfg.Sound
  rx : entity.rx.ListOk entity.cfg

theorem AmRx.ListOk.initial (positive : 0 < cfg.snModulus) : AmRx.ListOk cfg {} := by
  have zero : Within cfg.snModulus 0 := ⟨le_refl 0, positive⟩
  refine ⟨⟨zero, zero, zero, zero, ?_⟩, ?_, ?_, List.Pairwise.nil, ?_, ?_⟩
  all_goals
    exact forall_mem_nil _

theorem AmEntity.RxOk.dataStep (ok : entity.RxOk) (taken : entity.dataStep op = some next) : next.RxOk := by
  obtain ⟨same, move, _⟩ := AmEntity.dataStep_moves taken
  have large := ok.sound.modulus_large
  refine ⟨same ▸ ok.sound, ?_⟩
  rw [same]
  rcases move.moves with moves | ⟨_, _, _, _, read, accepted, moves⟩
  · exact ok.rx.moves (by omega) moves
  · exact (ok.rx.accepted ok.sound.modulus read accepted).moves (by omega) moves

def Pdu.ReceivedIn (cfg : AmConfig) (ops : List DataOp) (pdu : Pdu) : Prop :=
  ∃ buffer data, .recvPdu buffer ∈ ops ∧ isDataPdu buffer = true ∧
    decodeDataPdu cfg buffer = some data ∧ data.sn = pdu.sn ∧ data.so = pdu.so ∧
    data.data.length = pdu.size ∧ data.isLast = pdu.isLast

variable {ops : List DataOp} {old pdu : Pdu} {m base rxMaxsize txMaxsize : Int} {tCurrent snFieldLength : Nat}
  {buffer : List Byte} {params : AmParams} {start : AmEntity}

theorem Pdu.ReceivedIn.congr (same : freeData old = freeData pdu)
    (received : old.ReceivedIn cfg ops) : pdu.ReceivedIn cfg ops := by
  obtain ⟨buffer, data, member, isData, read, sn, so, size, isLast⟩ := received
  injection same with sameSn sameSo sameSize _ sameLast
  exact ⟨buffer, data, member, isData, read, sn.trans sameSn, so.trans sameSo, size.trans sameSize,
    isLast.trans sameLast⟩

theorem AmRx.Moves.held {next : AmRx} (moves : rx.Moves cfg next) :
    next.rxList.map freeData ⊆ rx.rxList.map freeData := by
  induction moves with
  | refl => exact List.Subset.refl _
  | @tail middle _ _ move held =>
    cases move with
    | deliver x =>
      have same := @map_consume _ freeData freeData (fun _ => rfl) x middle.rxList
      exact same ▸ held
    | advance fuel => exact List.Subset.trans ((advance_sublist fuel _ _).map freeData).subset held
    | _ => exact held

theorem AmEntity.RxMove.held {after : AmRx} (move : entity.RxMove op after) (member : pdu ∈ after.rxList) :
    (∃ old ∈ entity.rx.rxList, freeData old = freeData pdu) ∨
      ∃ buffer data, op = .recvPdu buffer ∧ isDataPdu buffer = true ∧ decodeDataPdu entity.cfg buffer = some data ∧
        entity.rx.accepts entity.cfg data = true ∧
        freeData pdu = ⟨data.sn, data.so, data.data.length, data.isFirst, data.isLast, none⟩ := by
  have known := mem_map_of_mem (f := freeData) member
  rcases move.moves with moves | ⟨buffer, data, same, isData, read, accepted, moves⟩
  · exact .inl (mem_map.mp (moves.held known))
  obtain ⟨old, listed, equal⟩ := mem_map.mp (moves.held known)
  rcases (mem_orderedInsert _).mp listed with new | earlier
  · refine .inr ⟨buffer, data, same, isData, read, accepted, ?_⟩
    rw [← equal, new]
    rfl
  · exact .inl ⟨old, earlier, equal⟩

structure AmEntity.RxTraced (ops : List DataOp) (entity : AmEntity) : Prop where
  ok : entity.RxOk
  received : ∀ pdu ∈ entity.rx.rxList, pdu.ReceivedIn entity.cfg ops

theorem AmEntity.RxTraced.dataStep (traced : entity.RxTraced ops) (known : op ∈ ops)
    (taken : entity.dataStep op = some next) : next.RxTraced ops := by
  refine ⟨traced.ok.dataStep taken, ?_⟩
  obtain ⟨same, move, _⟩ := AmEntity.dataStep_moves taken
  rw [same]
  intro pdu member
  rcases move.held member with ⟨old, listed, equal⟩ | ⟨buffer, data, rfl, isData, read, _, equal⟩
  · exact (traced.received old listed).congr equal
  · injection equal with sn so size _ isLast
    exact ⟨buffer, data, known, isData, read, sn.symm, so.symm, size.symm, isLast.symm⟩

theorem AmEntity.rxTraced_of_run
    (created : newNrRlcEntityAm rxMaxsize txMaxsize params snFieldLength = some start)
    (reached : Runs.run AmEntity.dataStep start ops = some entity) : entity.RxTraced ops := by
  obtain ⟨sound, rx, _, _⟩ := newNrRlcEntityAm_sound created
  have large := sound.modulus_large
  have initial : start.RxTraced ops := by
    refine ⟨⟨sound, rx ▸ AmRx.ListOk.initial (by omega)⟩, ?_⟩
    intro pdu member
    rw [rx] at member
    cases member
  have legal : Runs.Steps AmEntity.dataStep (fun _ op => op ∈ ops) start ops := by
    intro front op inside _ _ _ _
    exact inside.subset (by simp)
  exact Runs.along_final (Runs.invariant_along
    (fun _ _ _ traced known taken => traced.dataStep known taken) start ops initial legal) reached

end OranSlice.Rlc
