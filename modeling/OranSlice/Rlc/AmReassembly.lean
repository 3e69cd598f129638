import OranSlice.Rlc.Reassembly
import OranSlice.Rlc.RxHistory
import OranSlice.Rlc.SnSpace

/-! Reassembly in an AM receiver: what it does with the segments of one SDU. -/

namespace OranSlice.Rlc

open BitCodec Window Cover List

variable {cfg : AmConfig} {rx : AmRx} {x : Int} {sdu : List Byte} {pdus : List DataPdu} {pdu : DataPdu}
  {before block after : List Pdu}

theorem AmRx.segmentAlreadyReceived_iff (split : Split cfg.snModulus rx.rxNext x rx.rxList before block after)
    (sorted : block.Pairwise (fun a b => a.so ≤ b.so)) {so size : Nat} :
    rx.segmentAlreadyReceived x so size = true ↔ ∀ k, so ≤ k → k < so + size → Held block k := by
  rw [AmRx.segmentAlreadyReceived, decide_eq_true_eq, split.sizeLeft_eq, sizeLeft_le_iff split.here sorted,
    ← le_reach_iff sorted]
  norm_cast

structure AmRx.Collects (cfg : AmConfig) (x : Int) (sdu : List Byte) (pdus : List DataPdu) (rx : AmRx) :
    Prop where
  ok : rx.ListOk cfg
  near : rx.snInRecvWindow cfg x = true
  gathered : ∃ before block after,
    Split cfg.snModulus rx.rxNext x rx.rxList before block after ∧ Gathered sdu pdus block

def AmRx.Refuses (cfg : AmConfig) (x : Int) (sdu : List Byte) (rx : AmRx) : Prop :=
  ∀ pdu : DataPdu, pdu.IsSlice sdu x → rx.accepts cfg pdu = false

theorem AmRx.refuses_of_held (split : Split cfg.snModulus rx.rxNext x rx.rxList before block after)
    (sorted : block.Pairwise (fun a b => a.so ≤ b.so)) (whole : ∀ k < sdu.length, Held block k) :
    rx.Refuses cfg x sdu := by
  intro pdu slice
  have received : rx.segmentAlreadyReceived pdu.sn pdu.so pdu.data.length = true := by
    rw [slice.sn, AmRx.segmentAlreadyReceived_iff split sorted]
    intro k _ high
    have inside := slice.inside
    exact whole k (by omega)
  rw [AmRx.accepts, received, Bool.not_true, Bool.and_false]

theorem AmRx.refuses_of_far (far : rx.snInRecvWindow cfg x = false) : rx.Refuses cfg x sdu := by
  intro pdu slice
  rw [AmRx.accepts, slice.sn, far, Bool.and_false, Bool.false_and]

theorem advance_distance {base : Int} (base_ok : Within cfg.snModulus base) (small : cfg.windowSize < cfg.snModulus)
    (fuel : Nat) {rxNext : Int} {list : List Pdu} (next_ok : Within cfg.snModulus rxNext)
    (near : ∀ pdu ∈ list, distance cfg.snModulus base pdu.sn < cfg.windowSize)
    (ahead : distance cfg.snModulus base rxNext ≤ cfg.windowSize) :
    distance cfg.snModulus base rxNext ≤ distance cfg.snModulus base (advance cfg fuel rxNext list).1 ∧
      distance cfg.snModulus base (advance cfg fuel rxNext list).1 ≤ cfg.windowSize := by
  induction fuel generalizing rxNext list with
  | zero => exact ⟨le_refl _, ahead⟩
  | succ fuel ih =>
    unfold advance
    split
    · exact ⟨le_refl _, ahead⟩
    rename_i pdu rest
    split_ifs with lowest
    · have lower := near pdu mem_cons_self
      rw [lowest.2] at lower
      have one := distance_succ base_ok next_ok (by omega)
      have positive : 0 < cfg.snModulus := by
        have := base_ok.1
        have := base_ok.2
        omega
      have later : ∀ other ∈ (pdu :: rest).dropWhile (fun l => l.sn == rxNext),
          distance cfg.snModulus base other.sn < cfg.windowSize :=
        fun other member => near other ((dropWhile_sublist _).subset member)
      obtain ⟨further, bound⟩ := ih (within_mod positive (rxNext + 1)) later (by omega)
      exact ⟨by omega, bound⟩
    · exact ⟨le_refl _, ahead⟩

theorem advance_cons {fuel : Nat} {rxNext : Int} {first : Pdu} {rest : List Pdu} (consumed : first.data = none)
    (lowest : first.sn = rxNext) :
    advance cfg (fuel + 1) rxNext (first :: rest) = advance cfg fuel ((rxNext + 1) % cfg.snModulus)
      ((first :: rest).dropWhile (fun l => l.sn == rxNext)) := by
  exact if_pos ⟨by rw [consumed]; rfl, lowest⟩

theorem AmRx.raiseNext_far (sound : cfg.Sound) (ok : rx.ListOk cfg) {first : Pdu} {rest : List Pdu}
    (list : rx.rxList = first :: rest) (consumed : first.data = none) (lowest : first.sn = rx.rxNext) :
    (rx.raiseNext cfg rx.rxNext).snInRecvWindow cfg rx.rxNext = false := by
  have large := sound.modulus_large
  have half := sound.modulus_eq
  have base_ok := ok.space.next
  have one := distance_succ base_ok base_ok (by rw [distance_self]; omega)
  rw [distance_self] at one
  have moved := advance_distance base_ok (by omega) rx.rxList.length (within_mod (by omega) (rx.rxNext + 1))
    (fun other member => ok.list.near other ((dropWhile_sublist
      (fun l : Pdu => l.sn == rx.rxNext)).subset member)) (by omega)
  have next : (rx.raiseNext cfg rx.rxNext).rxNext = (advance cfg rx.rxList.length
      ((rx.rxNext + 1) % cfg.snModulus) (rx.rxList.dropWhile (fun l => l.sn == rx.rxNext))).1 := by
    rw [AmRx.raiseNext, if_pos rfl]
    rw [list, advance_cons consumed lowest]
  have next_ok := (ok.moves (by omega) (raiseNext_moves rx rx.rxNext)).space.next
  rw [AmRx.snInRecvWindow, decide_eq_false_iff_not, AmRx.modulusRx, distance_back base_ok next_ok, next]
  · omega
  · rw [next]
    omega

namespace AmRx.Collects

variable (sound : cfg.Sound) (collects : rx.Collects cfg x sdu pdus)

include collects

theorem skip (known : ∀ k, pdu.so ≤ k → k < pdu.so + pdu.data.length → Arrived pdus k) :
    rx.Collects cfg x sdu (pdus ++ [pdu]) := by
  obtain ⟨before, block, after, split, gathered⟩ := collects.gathered
  exact ⟨collects.ok, collects.near, before, block, after, split, gathered.skip known⟩

theorem store (modulus : cfg.snModulus = 2 ^ cfg.snFieldLength) (slice : pdu.IsSlice sdu x)
    (wellFormed : pdu.WellFormed cfg) : (rx.store cfg pdu).Collects cfg x sdu (pdus ++ [pdu]) := by
  obtain ⟨before, block, after, split, gathered⟩ := collects.gathered
  have near := collects.near
  rw [← slice.sn] at near
  refine ⟨collects.ok.store modulus wellFormed near, collects.near, before, _, after, ?_,
    gathered.insert slice wellFormed.data⟩
  exact split.add slice.sn (fun other _ => rfl)

theorem raiseNextHighest (large : 1 < cfg.snModulus) : (rx.raiseNextHighest cfg x).Collects cfg x sdu pdus := by
  refine ⟨collects.ok.moves large (raiseNextHighest_moves rx x), ?_, ?_⟩
  · rw [AmRx.snInRecvWindow, AmRx.modulusRx, (AmRx.raiseNextHighest_rx _).2.2]
    exact collects.near
  · rw [(AmRx.raiseNextHighest_rx _).1, (AmRx.raiseNextHighest_rx _).2.2]
    exact collects.gathered

theorem updateTimer (large : 1 < cfg.snModulus) (tCurrent : Nat) :
    ((rx.stopReassemblyTimer cfg).startReassemblyTimer cfg tCurrent).Collects cfg x sdu pdus := by
  refine ⟨collects.ok.moves large (updateTimer_moves rx tCurrent), ?_, ?_⟩
  · rw [AmRx.snInRecvWindow, AmRx.modulusRx, (AmRx.startReassemblyTimer_rx _).2.2, AmRx.stopReassemblyTimer_rx.2.2]
    exact collects.near
  · simpa using collects.gathered

theorem sduFull_iff (nonempty : sdu ≠ []) : rx.sduFull x = true ↔ Complete sdu pdus := by
  obtain ⟨before, block, after, split, gathered⟩ := collects.gathered
  rw [AmRx.sduFull, split.isConsumed_eq, gathered.isConsumed, split.fullFrom_eq]
  exact gathered.full_iff split.here (split.block_sorted collects.ok.list.sorted) nonempty

theorem reassembled (fits : sdu.length ≤ nrSduMax) (complete : Complete sdu pdus) :
    (rx.reassembleAndDeliver x).2 = [.deliverSdu sdu] := by
  obtain ⟨before, block, after, split, gathered⟩ := collects.gathered
  rw [AmRx.reassembleAndDeliver]
  rw [split.reassemble_eq,
    gathered.reassembled split.here (split.block_sorted collects.ok.list.sorted) fits complete]

theorem refuses (sound : cfg.Sound) (nonempty : sdu ≠ []) (complete : Complete sdu pdus) (tCurrent : Nat) :
    ((((((rx.reassembleAndDeliver x).1.raiseHighestStatus cfg x).raiseNext cfg x).stopReassemblyTimer
      cfg).startReassemblyTimer cfg tCurrent)).Refuses cfg x sdu := by
  have full := (collects.sduFull_iff nonempty).mpr complete
  have large := sound.modulus_large
  obtain ⟨before, block, after, split, gathered⟩ := collects.gathered
  have sorted := split.block_sorted collects.ok.list.sorted
  have raised := collects.ok.moves (by omega) (.head (.deliver x full) (raiseHighestStatus_moves _ x))
  have list : ((rx.reassembleAndDeliver x).1.raiseHighestStatus cfg x).rxList =
      before ++ (block.map freeData ++ after) := by
    rw [(AmRx.raiseHighestStatus_rx _).1]
    exact split.consume_eq freeData
  have next : ((rx.reassembleAndDeliver x).1.raiseHighestStatus cfg x).rxNext = rx.rxNext := by
    rw [(AmRx.raiseHighestStatus_rx _).2.2]
    rfl
  by_cases lowest : x = rx.rxNext
  · apply AmRx.refuses_of_far
    rw [AmRx.snInRecvWindow, AmRx.modulusRx, (AmRx.startReassemblyTimer_rx _).2.2, AmRx.stopReassemblyTimer_rx.2.2]
    have none : before = [] := by
      apply eq_nil_iff_forall_not_mem.mpr
      intro pdu member
      have below := split.below pdu member
      have inside := collects.ok.space.list pdu (by rw [split.whole]; simp [member])
      have bounds := distance_bounds collects.ok.space.next inside
      rw [lowest, distance_self] at below
      omega
    obtain ⟨held, member, _⟩ := (gathered.held 0).mpr (complete 0 (length_pos_iff.mpr nonempty))
    obtain ⟨first, rest, same⟩ := exists_cons_of_ne_nil (ne_nil_of_mem member)
    rw [none, same] at list
    have far := AmRx.raiseNext_far sound raised list rfl
      ((split.here first (by simp [same])).trans (lowest.trans next.symm))
    rw [next, ← lowest] at far
    exact far
  · have stays : ((rx.reassembleAndDeliver x).1.raiseHighestStatus cfg x).raiseNext cfg x =
        (rx.reassembleAndDeliver x).1.raiseHighestStatus cfg x := by
      rw [AmRx.raiseNext, next, if_neg lowest]
    rw [stays]
    have kept := @Split.map_block _ _ _ _ _ _ _ split freeData (fun _ => rfl)
    refine @AmRx.refuses_of_held cfg _ x sdu before (block.map freeData) after ?_ ?_ ?_
    · rw [(AmRx.startReassemblyTimer_rx _).1, AmRx.stopReassemblyTimer_rx.1, list,
        (AmRx.startReassemblyTimer_rx _).2.2, AmRx.stopReassemblyTimer_rx.2.2, next]
      exact kept
    · exact pairwise_map.mpr sorted
    · intro k inside
      obtain ⟨pdu, member, place⟩ := (gathered.held k).mpr (complete k inside)
      exact ⟨freeData pdu, mem_map_of_mem member, place⟩

theorem receptionActions (sound : cfg.Sound) (nonempty : sdu ≠ []) (fits : sdu.length ≤ nrSduMax)
    (tCurrent : Nat) :
    (Complete sdu pdus → (rx.receptionActions cfg tCurrent x).2 = [.deliverSdu sdu] ∧
        (rx.receptionActions cfg tCurrent x).1.Refuses cfg x sdu) ∧
      (¬ Complete sdu pdus → (rx.receptionActions cfg tCurrent x).2 = [] ∧
        (rx.receptionActions cfg tCurrent x).1.Collects cfg x sdu pdus) := by
  have large := sound.modulus_large
  have raised := collects.raiseNextHighest (by omega)
  unfold AmRx.receptionActions
  dsimp only
  constructor
  · intro complete
    rw [if_pos ((raised.sduFull_iff nonempty).mpr complete)]
    exact ⟨raised.reassembled fits complete, raised.refuses sound nonempty complete tCurrent⟩
  · intro partly
    rw [if_neg (fun full => partly ((raised.sduFull_iff nonempty).mp full))]
    exact ⟨rfl, raised.updateTimer (by omega) tCurrent⟩

theorem recvDataPdu (sound : cfg.Sound) (nonempty : sdu ≠ []) (fits : sdu.length ≤ nrSduMax)
    (incomplete : ¬ Complete sdu pdus) {buffer : List Byte} (read : decodeDataPdu cfg buffer = some pdu)
    (slice : pdu.IsSlice sdu x) (room : (∃ k, pdu.so ≤ k ∧ k < pdu.so + pdu.data.length ∧ ¬ Arrived pdus k) →
      pdu.data.length ≤ cfg.rxMaxsize - rx.rxSize) (tCurrent : Nat) :
    (Complete sdu (pdus ++ [pdu]) → (rx.recvDataPdu cfg tCurrent buffer).2 = [.deliverSdu sdu] ∧
        (rx.recvDataPdu cfg tCurrent buffer).1.Refuses cfg x sdu) ∧
      (¬ Complete sdu (pdus ++ [pdu]) → (rx.recvDataPdu cfg tCurrent buffer).2 = [] ∧
        (rx.recvDataPdu cfg tCurrent buffer).1.Collects cfg x sdu (pdus ++ [pdu])) := by
  obtain ⟨before, block, after, split, gathered⟩ := collects.gathered
  have received := @AmRx.segmentAlreadyReceived_iff cfg rx x _ _ _ split
    (split.block_sorted collects.ok.list.sorted) pdu.so pdu.data.length
  by_cases known : ∀ k, pdu.so ≤ k → k < pdu.so + pdu.data.length → Arrived pdus k
  · have refused : rx.accepts cfg pdu = false := by
      rw [AmRx.accepts, slice.sn, received.mpr (fun k low high => (gathered.held k).mpr (known k low high)),
        Bool.not_true, Bool.and_false]
    have skipped : rx.recvData cfg tCurrent buffer = (rx, []) := by
      rw [AmRx.recvData, read]
      dsimp only
      rw [refused]
      rfl
    rw [AmRx.recvDataPdu, skipped]
    constructor
    · exact fun complete => absurd (complete.of_known known) incomplete
    · intro _
      have kept := collects.skip known
      exact ⟨rfl, ⟨{ kept.ok.space with }, kept.ok.list⟩, kept.near, kept.gathered⟩
  · have new : ∃ k, pdu.so ≤ k ∧ k < pdu.so + pdu.data.length ∧ ¬ Arrived pdus k := by
      simpa only [not_forall, exists_prop] using known
    have accepted : rx.accepts cfg pdu = true := by
      have free := room new
      have missing : rx.segmentAlreadyReceived x pdu.so pdu.data.length = false := by
        apply eq_false_of_ne_true
        intro all
        exact known (fun k low high => (gathered.held k).mp (received.mp all k low high))
      rw [AmRx.accepts, slice.sn, collects.near, missing]
      simp only [Bool.and_true, Bool.not_false, Bool.not_eq_true', decide_eq_false_iff_not]
      omega
    have taken : rx.recvData cfg tCurrent buffer = (rx.store cfg pdu).receptionActions cfg tCurrent x := by
      rw [AmRx.recvData, read]
      dsimp only
      rw [if_pos accepted, slice.sn]
    obtain ⟨whole, partly⟩ := (collects.store sound.modulus slice
      (decodeDataPdu_wellFormed read)).receptionActions sound nonempty fits tCurrent
    rw [AmRx.recvDataPdu, taken]
    constructor
    · intro complete
      exact ⟨(whole complete).1, (whole complete).2⟩
    · intro incomplete
      obtain ⟨silent, kept⟩ := partly incomplete
      exact ⟨silent, ⟨{ kept.ok.space with }, kept.ok.list⟩, kept.near, kept.gathered⟩

end AmRx.Collects

theorem AmRx.Refuses.recvDataPdu (refuses : rx.Refuses cfg x sdu) {buffer : List Byte}
    (read : decodeDataPdu cfg buffer = some pdu) (slice : pdu.IsSlice sdu x) (tCurrent : Nat) :
    (rx.recvDataPdu cfg tCurrent buffer).2 = [] ∧
      (rx.recvDataPdu cfg tCurrent buffer).1.Refuses cfg x sdu := by
  have skipped : rx.recvData cfg tCurrent buffer = (rx, []) := by
    rw [AmRx.recvData, read]
    dsimp only
    rw [refuses pdu slice]
    rfl
  rw [AmRx.recvDataPdu, skipped]
  exact ⟨rfl, refuses⟩

namespace AmEntity

variable {entity : AmEntity}

theorem recvPdu_data {buffer : List Byte} (isData : isDataPdu buffer = true) :
    entity.recvPdu buffer =
      ({ entity with rx := (entity.rx.recvDataPdu entity.cfg entity.tCurrent buffer).1 },
        (entity.rx.recvDataPdu entity.cfg entity.tCurrent buffer).2) := by
  cases read : take? 1 (bytesToBits buffer) with
  | none => simp [isDataPdu, read] at isData
  | some found =>
    obtain ⟨dc, stream⟩ := found
    have notControl : dc ≠ 0 := by simpa [isDataPdu, read] using isData
    simp only [AmEntity.recvPdu, read]
    exact if_neg notControl

structure Awaits (entity : AmEntity) (x : Int) : Prop where
  space : Within entity.cfg.snModulus x
  near : entity.rx.snInRecvWindow entity.cfg x = true
  fresh : ∀ pdu ∈ entity.rx.rxList, pdu.sn ≠ x

def Carries (entity : AmEntity) (sdu : List Byte) (x : Int) (buffer : List Byte) : Prop :=
  isDataPdu buffer = true ∧ ∃ pdu, decodeDataPdu entity.cfg buffer = some pdu ∧ pdu.IsSlice sdu x

theorem Awaits.collects (awaits : entity.Awaits x) (ok : entity.RxOk) (sdu : List Byte) :
    entity.rx.Collects entity.cfg x sdu [] := by
  obtain ⟨before, after, split⟩ :=
    Split.of_fresh ok.rx.space.next awaits.space ok.rx.space.list ok.rx.list.sorted awaits.fresh
  exact ⟨ok.rx, awaits.near, before, [], after, split, .empty sdu⟩

theorem stages (sound : entity.cfg.Sound) (nonempty : sdu ≠ []) (fits : sdu.length ≤ nrSduMax) :
    Gather.Stages AmEntity.recvPdu (entity.Carries sdu x)
      (fun front other buffer => ∀ pdu, decodeDataPdu entity.cfg buffer = some pdu →
        (∃ k, pdu.so ≤ k ∧ k < pdu.so + pdu.data.length ∧
          ¬ Arrived (front.filterMap (decodeDataPdu entity.cfg)) k) →
        pdu.data.length ≤ other.cfg.rxMaxsize - other.rx.rxSize)
      (fun pieces => Complete sdu (pieces.filterMap (decodeDataPdu entity.cfg))) (.deliverSdu sdu)
      (fun pieces other => other.cfg = entity.cfg ∧
        other.rx.Collects entity.cfg x sdu (pieces.filterMap (decodeDataPdu entity.cfg)))
      (fun other => other.cfg = entity.cfg ∧ other.rx.Refuses entity.cfg x sdu) where
  collect pieces other buffer collecting incomplete carries room := by
    obtain ⟨same, collects⟩ := collecting
    obtain ⟨isData, pdu, read, slice⟩ := carries
    have step := collects.recvDataPdu sound nonempty fits incomplete read slice
      (same ▸ room pdu read) other.tCurrent
    rw [recvPdu_data isData, same, filterMap_append, filterMap_cons_some read]
    refine ⟨fun complete => ?_, fun partly => ?_⟩
    · obtain ⟨given, refuses⟩ := step.1 complete
      exact ⟨given, rfl, refuses⟩
    · obtain ⟨silent, kept⟩ := step.2 partly
      exact ⟨silent, rfl, kept⟩
  finish other buffer finished carries := by
    obtain ⟨same, refuses⟩ := finished
    obtain ⟨isData, pdu, read, slice⟩ := carries
    obtain ⟨silent, still⟩ := refuses.recvDataPdu read slice other.tCurrent
    rw [recvPdu_data isData, same]
    exact ⟨silent, rfl, still⟩
  grow pieces buffer complete := by
    intro k inside
    rw [filterMap_append]
    exact covered_append.mpr (.inl (complete k inside))

theorem delivered_once (ok : entity.RxOk) (nonempty : sdu ≠ []) (fits : sdu.length ≤ nrSduMax)
    (awaits : entity.Awaits x) {arrivals : List (List Byte)}
    (carried : ∀ buffer ∈ arrivals, entity.Carries sdu x buffer)
    (room : FindsRoom AmEntity.recvPdu (decodeDataPdu entity.cfg)
      (fun other => other.cfg.rxMaxsize - other.rx.rxSize) entity arrivals) :
    DeliveredOnce AmEntity.recvPdu (decodeDataPdu entity.cfg) sdu entity arrivals := by
  intro front inside
  refine ((stages ok.sound nonempty fits).receive_once ⟨rfl, awaits.collects ok sdu⟩
    (not_complete_nil nonempty) front
    (fun buffer member => carried buffer (inside.subset member)) ?_).1
  intro earlier buffer before _ pdu read new
  exact room earlier buffer (before.trans inside) pdu read new

theorem RxOk.step {next : AmEntity} {op : AmOp} (ok : entity.RxOk) (keeps : AmOp.KeepsLength entity op)
    (taken : entity.step op = some next) : next.RxOk := by
  cases op with
  | data op => exact ok.dataStep taken
  | reestablishment =>
    cases taken
    have large := ok.sound.modulus_large
    exact ⟨ok.sound, .initial (show 0 < entity.cfg.snModulus by omega)⟩
  | reconfigure params snFieldLength =>
    cases taken
    have same : (entity.reconfigure params snFieldLength).cfg.snFieldLength = entity.cfg.snFieldLength := by
      cases snFieldLength with
      | none => rfl
      | some other => exact keeps
    have sound : (entity.reconfigure params snFieldLength).cfg.Sound := by
      refine ⟨?_, ?_, ok.sound.window⟩
      · rw [AmConfig.Admitted, same]
        exact ok.sound.admitted
      · rw [same]
        exact ok.sound.modulus
    exact ⟨sound, ok.rx.space, ok.rx.list⟩

end AmEntity

theorem newNrRlcEntityAm_rxOk {rxMaxsize txMaxsize : Int} {params : AmParams} {snFieldLength : Nat}
    {entity : AmEntity}
    (created : newNrRlcEntityAm rxMaxsize txMaxsize params snFieldLength = some entity) : entity.RxOk := by
  obtain ⟨sound, rx, _, _⟩ := newNrRlcEntityAm_sound created
  have large := sound.modulus_large
  exact ⟨sound, rx ▸ AmRx.ListOk.initial (by omega)⟩

end OranSlice.Rlc
