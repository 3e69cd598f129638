import Mathlib.Data.List.TakeWhile
import OranSlice.Rlc.AmSnSpace

/-! The list of received PDUs: its order, and which bytes it holds. -/

namespace OranSlice.Rlc

open BitCodec Window Ordered List

variable {m window base : Int} {cfg : AmConfig} {rx : AmRx} {a b c : Pdu} {list : List Pdu} {sn : Int}

def PduBefore (m base : Int) (a b : Pdu) : Prop :=
  distance m base a.sn < distance m base b.sn ∨ (a.sn = b.sn ∧ a.so ≤ b.so)

theorem PduBefore.trans (first : PduBefore m base a b) (second : PduBefore m base b c) :
    PduBefore m base a c := before_trans first second le_trans

theorem PduBefore.distance_le (ordered : PduBefore m base a b) :
    distance m base a.sn ≤ distance m base b.sn := by
  rcases ordered with lower | ⟨same, _⟩
  · exact lower.le
  · rw [same]

theorem pduListAdd_pairwise {snCompare : Int → Int → Int} (base_ok : Within m base) (a_ok : Within m a.sn)
    (inside : ListWithin m list)
    (agrees : ∀ b ∈ list, snCompare b.sn a.sn = distance m base b.sn - distance m base a.sn)
    (sorted : list.Pairwise (PduBefore m base)) :
    (nrRlcPduListAdd snCompare list a).Pairwise (PduBefore m base) := by
  have decides : Decides (PduBefore m base)
      (fun a b => comesAfter snCompare b.sn b.so a.sn a.so = true) a list := by
    unfold comesAfter
    simp only [Bool.or_eq_true, decide_eq_true_eq, Bool.and_eq_true, beq_iff_eq]
    constructor
    · intro b member passed
      rw [agrees b member] at passed
      rcases passed with higher | ⟨same, later⟩
      · exact .inl (by omega)
      · exact .inr ⟨same.symm, later.le⟩
    · intro b member failed
      rw [agrees b member] at failed
      rcases lt_or_eq_of_le (show distance m base b.sn ≤ distance m base a.sn by omega) with lower | equal
      · exact .inl lower
      · have same := (distance_inj base_ok (inside b member) a_ok).mp equal
        exact .inr ⟨same, by omega⟩
  exact pairwise_orderedInsert (fun first second => first.trans second) decides sorted

def Holds (list : List Pdu) (sn : Int) (k : Nat) : Prop :=
  ∃ pdu ∈ list, pdu.sn = sn ∧
    ((pdu.so ≤ k ∧ k < pdu.so + pdu.size) ∨ (pdu.isLast = true ∧ pdu.so + pdu.size ≤ k))

theorem Holds.mono {front : List Pdu} {k : Nat} (held : Holds front sn k)
    (sub : ∀ pdu ∈ front, pdu.sn = sn → pdu ∈ list) : Holds list sn k := by
  obtain ⟨pdu, member, same, covers⟩ := held
  exact ⟨pdu, sub pdu member same, same, covers⟩

theorem fullFrom_holds {lastByte : Int} (full : fullFrom sn list lastByte = true) (k : Nat)
    (after : lastByte < k) : Holds list sn k := by
  induction list generalizing lastByte with
  | nil => cases full
  | cons l rest ih =>
    unfold fullFrom at full
    split at full
    · cases full
    rename_i same
    split at full
    · cases full
    by_cases covered : k < l.so + l.size
    · exact ⟨l, mem_cons_self, not_not.mp same, .inl ⟨by omega, covered⟩⟩
    split_ifs at full with isLast
    · exact ⟨l, mem_cons_self, not_not.mp same, .inr ⟨isLast, by omega⟩⟩
    · exact (ih full (by omega)).mono (fun pdu member _ => mem_cons_of_mem l member)

theorem sduFull_holds (full : rx.sduFull sn = true) (k : Nat) : Holds rx.rxList sn k := by
  unfold AmRx.sduFull at full
  rw [Bool.and_eq_true] at full
  have held := fullFrom_holds full.2 k (by omega)
  exact held.mono (fun pdu member _ => (dropWhile_sublist _).subset member)

variable (x : Int) (pdu : Pdu)

def delivered : Pdu := if pdu.sn = x then freeData pdu else pdu

@[simp] theorem delivered_sn : (delivered x pdu).sn = pdu.sn := by
  unfold delivered
  split <;> rfl

@[simp] theorem delivered_shape :
    (delivered x pdu).so = pdu.so ∧ (delivered x pdu).size = pdu.size ∧
      (delivered x pdu).isFirst = pdu.isFirst ∧ (delivered x pdu).isLast = pdu.isLast := by
  unfold delivered
  split <;> exact ⟨rfl, rfl, rfl, rfl⟩

theorem map_delivered_of_ne {x : Int} (others : ∀ pdu ∈ list, pdu.sn ≠ x) : list.map (delivered x) = list := by
  have same : ∀ pdu ∈ list, delivered x pdu = id pdu := by
    intro pdu member
    rw [delivered, if_neg (others pdu member), id]
  rw [map_congr_left same, map_id]

theorem consume_eq_map {x : Int} (sorted : list.Pairwise (PduBefore m base))
    (above : ∀ pdu ∈ list, distance m base x < distance m base pdu.sn ∨ pdu.sn = x) :
    consume freeData x list = list.map (delivered x) := by
  induction list with
  | nil => rfl
  | cons pdu rest ih =>
    obtain ⟨first, later⟩ := pairwise_cons.mp sorted
    by_cases same : pdu.sn = x
    · rw [consume, if_neg (not_not.mpr same), map_cons,
        ih later (forall_mem_cons.mp above).2, delivered, if_pos same]
    -- the SDU ends here: all that follows is above it
    have higher := (above pdu mem_cons_self).resolve_right same
    rw [consume, if_pos same, map_delivered_of_ne]
    intro other member equal
    rcases mem_cons.mp member with here | there
    · exact same (here ▸ equal)
    · have behind := (first other there).distance_le
      rw [equal] at behind
      omega

theorem reassembleAndDeliver_list (sorted : rx.rxList.Pairwise (PduBefore m base)) :
    (rx.reassembleAndDeliver x).1.rxList = rx.rxList.map (delivered x) := by
  change rx.rxList.takeWhile (fun l => l.sn != x) ++ consume freeData x (fromSn x rx.rxList) = _
  have back : consume freeData x (fromSn x rx.rxList) = (fromSn x rx.rxList).map (delivered x) := by
    have suffixSorted : (fromSn x rx.rxList).Pairwise (PduBefore m base) := sorted.sublist (dropWhile_sublist _)
    apply consume_eq_map suffixSorted
    cases found : fromSn x rx.rxList with
    | nil => simp
    | cons head rest =>
      have headSn : head.sn = x := by
        have stopped := head?_dropWhile_not (fun l : Pdu => l.sn != x) rx.rxList
        rw [show rx.rxList.dropWhile (fun l => l.sn != x) = head :: rest from found] at stopped
        simpa using stopped
      rw [found] at suffixSorted
      intro pdu member
      rcases mem_cons.mp member with here | there
      · exact .inr (here ▸ headSn)
      · rcases (pairwise_cons.mp suffixSorted).1 pdu there with lower | ⟨same, _⟩
        · exact .inl (headSn ▸ lower)
        · exact .inr (same ▸ headSn)
  have front : (rx.rxList.takeWhile (fun l => l.sn != x)).map (delivered x) =
      rx.rxList.takeWhile (fun l => l.sn != x) := by
    apply map_delivered_of_ne
    intro pdu member
    simpa using mem_takeWhile_imp member
  rw [back, ← front, ← map_append, fromSn, takeWhile_append_dropWhile]

theorem map_delivered_pairwise (sorted : list.Pairwise (PduBefore m base)) :
    (list.map (delivered x)).Pairwise (PduBefore m base) := by
  rw [pairwise_map]
  exact sorted.imp (fun ordered => by simpa [PduBefore] using ordered)

theorem holds_map_delivered (k : Nat) : Holds (list.map (delivered x)) sn k ↔ Holds list sn k := by
  simp [Holds]

structure Pdu.Shaped (pdu : Pdu) : Prop where
  first : pdu.isFirst = true ↔ pdu.so = 0
  soHigh : pdu.so < 2 ^ 16
  size : 0 < pdu.size

structure PduListOk (m window base : Int) (list : List Pdu) : Prop where
  inside : ListWithin m list
  near : ∀ pdu ∈ list, distance m base pdu.sn < window
  sorted : list.Pairwise (PduBefore m base)
  shaped : ∀ pdu ∈ list, pdu.Shaped
  complete : ∀ pdu ∈ list, pdu.data = none → ∀ k, Holds list pdu.sn k

namespace PduListOk

theorem map_delivered (ok : PduListOk m window base list) {x : Int} (full : ∀ k, Holds list x k) :
    PduListOk m window base (list.map (delivered x)) := by
  refine ⟨?_, ?_, map_delivered_pairwise x ok.sorted, ?_, ?_⟩
  · intro pdu member
    obtain ⟨old, listed, rfl⟩ := mem_map.mp member
    rw [delivered_sn]
    exact ok.inside old listed
  · intro pdu member
    obtain ⟨old, listed, rfl⟩ := mem_map.mp member
    rw [delivered_sn]
    exact ok.near old listed
  · intro pdu member
    obtain ⟨old, listed, rfl⟩ := mem_map.mp member
    have shaped := ok.shaped old listed
    exact ⟨by simpa using shaped.first, by simpa using shaped.soHigh, by simpa using shaped.size⟩
  · intro pdu member consumed k
    obtain ⟨old, listed, rfl⟩ := mem_map.mp member
    rw [holds_map_delivered, delivered_sn]
    by_cases here : old.sn = x
    · rw [here]
      exact full k
    · rw [delivered, if_neg here] at consumed
      exact ok.complete old listed consumed k

theorem drop_lowest (ok : PduListOk m window base list) (base_ok : Within m base) {pdu : Pdu}
    (member : pdu ∈ list.dropWhile (fun l => l.sn == base)) : pdu.sn ≠ base := by
  -- PDUs before one of the lowest SN have the lowest SN
  have listed : list.Pairwise (fun a b => PduBefore m base a b ∧ Within m a.sn) :=
    ok.sorted.imp_of_mem (fun first _ ordered => ⟨ordered, ok.inside _ first⟩)
  have passed := not_of_mem_dropWhile (p := fun l : Pdu => l.sn == base) listed (by
    rintro a b ⟨ordered, a_ok⟩ lowest
    have behind := ordered.distance_le
    have low := (distance_bounds base_ok a_ok).1
    rw [eq_of_beq lowest, distance_self] at behind
    have none : distance m base a.sn = distance m base base := by
      rw [distance_self]
      omega
    exact beq_iff_eq.mpr ((distance_inj base_ok a_ok base_ok).mp none)) member
  exact ne_of_beq_false passed

theorem next (ok : PduListOk m window base list) (base_ok : Within m base) (large : 1 < m) :
    PduListOk m window ((base + 1) % m) (list.dropWhile (fun l => l.sn == base)) := by
  have sub := dropWhile_sublist (fun l : Pdu => l.sn == base) (l := list)
  have others := fun pdu => @drop_lowest _ _ _ _ ok base_ok pdu
  have nextSpace := within_mod (by omega) (base + 1) (m := m)
  have one : distance m base ((base + 1) % m) = 1 := distance_add base_ok ⟨by omega, large⟩
  have above : ∀ pdu ∈ list.dropWhile (fun l => l.sn == base),
      distance m base ((base + 1) % m) ≤ distance m base pdu.sn := by
    intro pdu member
    have fits := ok.inside pdu (sub.subset member)
    have low := (distance_bounds base_ok fits).1
    have different : distance m base pdu.sn ≠ distance m base base := by
      intro equal
      exact others pdu member ((distance_inj base_ok fits base_ok).mp equal)
    rw [distance_self] at different
    omega
  refine ⟨ok.inside.sublist sub, ?_, ?_, ?_, ?_⟩
  · intro pdu member
    have near := ok.near pdu (sub.subset member)
    have ahead := above pdu member
    rw [distance_rebase base_ok nextSpace (ok.inside pdu (sub.subset member)) ahead]
    omega
  · refine (ok.sorted.sublist sub).imp_of_mem (fun aMember bMember ordered => ?_)
    exact before_rebase base_ok nextSpace (ok.inside _ (sub.subset aMember))
      (ok.inside _ (sub.subset bMember)) (above _ aMember) (above _ bMember) ordered
  · intro pdu member
    exact ok.shaped pdu (sub.subset member)
  · intro pdu member consumed k
    apply (ok.complete pdu (sub.subset member) consumed k).mono
    intro other listed same
    rcases mem_append.mp (takeWhile_append_dropWhile (p := fun l : Pdu => l.sn == base) ▸ listed :
      other ∈ list.takeWhile (fun l => l.sn == base) ++ list.dropWhile (fun l => l.sn == base)) with
      front | back
    · have low := mem_takeWhile_imp front
      exact absurd (same.symm.trans (by simpa using low)) (others pdu member)
    · exact back

theorem advance (large : 1 < cfg.snModulus) (fuel : Nat) (base_ok : Within cfg.snModulus base)
    (ok : PduListOk cfg.snModulus cfg.windowSize base list) :
    PduListOk cfg.snModulus cfg.windowSize (advance cfg fuel base list).1 (Rlc.advance cfg fuel base list).2 := by
  induction fuel generalizing base list with
  | zero => exact ok
  | succ fuel ih =>
    unfold Rlc.advance
    split
    · exact ok
    · split
      · exact ih (within_mod (by omega) _) (ok.next base_ok large)
      · exact ok

end PduListOk

namespace AmRx

@[simp] theorem raiseNextHighest_rx (x : Int) :
    (rx.raiseNextHighest cfg x).rxList = rx.rxList ∧ (rx.raiseNextHighest cfg x).rxSize = rx.rxSize ∧
      (rx.raiseNextHighest cfg x).rxNext = rx.rxNext := by
  unfold AmRx.raiseNextHighest
  split <;> exact ⟨rfl, rfl, rfl⟩

@[simp] theorem raiseHighestStatus_rx (x : Int) :
    (rx.raiseHighestStatus cfg x).rxList = rx.rxList ∧ (rx.raiseHighestStatus cfg x).rxSize = rx.rxSize ∧
      (rx.raiseHighestStatus cfg x).rxNext = rx.rxNext := by
  unfold AmRx.raiseHighestStatus
  split <;> exact ⟨rfl, rfl, rfl⟩

@[simp] theorem stopReassemblyTimer_rx :
    (rx.stopReassemblyTimer cfg).rxList = rx.rxList ∧ (rx.stopReassemblyTimer cfg).rxSize = rx.rxSize ∧
      (rx.stopReassemblyTimer cfg).rxNext = rx.rxNext := by
  unfold AmRx.stopReassemblyTimer
  dsimp only
  split <;> exact ⟨rfl, rfl, rfl⟩

@[simp] theorem startReassemblyTimer_rx (tCurrent : Nat) :
    (rx.startReassemblyTimer cfg tCurrent).rxList = rx.rxList ∧ (rx.startReassemblyTimer cfg tCurrent).rxSize = rx.rxSize ∧
      (rx.startReassemblyTimer cfg tCurrent).rxNext = rx.rxNext := by
  unfold AmRx.startReassemblyTimer
  dsimp only
  split <;> exact ⟨rfl, rfl, rfl⟩

end AmRx

structure AmRx.ListOk (cfg : AmConfig) (rx : AmRx) : Prop where
  space : rx.InSpace cfg.snModulus
  list : PduListOk cfg.snModulus cfg.windowSize rx.rxNext rx.rxList

namespace AmRx.ListOk

section

variable {next : AmRx} (ok : rx.ListOk cfg)

include ok

theorem store {pdu : DataPdu} (modulus : cfg.snModulus = 2 ^ cfg.snFieldLength)
    (wellFormed : pdu.WellFormed cfg) (near : rx.snInRecvWindow cfg pdu.sn = true) :
    (rx.store cfg pdu).ListOk cfg := by
  have fits : Within cfg.snModulus pdu.sn := ⟨wellFormed.snLow, modulus ▸ wellFormed.snHigh⟩
  have inside : ListWithin cfg.snModulus (rx.store cfg pdu).rxList := ok.space.list.add _ fits
  refine ⟨{ ok.space with list := inside }, inside, ?_, ?_, ?_, ?_⟩
  · intro other member
    rcases (mem_orderedInsert _).mp member with new | old
    · rw [new]
      exact of_decide_eq_true near
    · exact ok.list.near other old
  · exact pduListAdd_pairwise ok.space.next fits ok.space.list (fun _ _ => rfl) ok.list.sorted
  · intro other member
    rcases (mem_orderedInsert _).mp member with new | old
    · rw [new]
      exact ⟨wellFormed.first, wellFormed.soHigh, length_pos_iff.mpr wellFormed.data⟩
    · exact ok.list.shaped other old
  · intro other member consumed k
    rcases (mem_orderedInsert _).mp member with new | old
    · rw [new] at consumed
      cases consumed
    · exact (ok.list.complete other old consumed k).mono
        (fun pdu listed _ => (mem_orderedInsert _).mpr (.inr listed))

theorem accepted {buffer : List Byte} {pdu : DataPdu} (modulus : cfg.snModulus = 2 ^ cfg.snFieldLength)
    (read : decodeDataPdu cfg buffer = some pdu) (accepted : rx.accepts cfg pdu = true) :
    (rx.store cfg pdu).ListOk cfg := by
  simp only [AmRx.accepts, Bool.and_eq_true] at accepted
  exact ok.store modulus (decodeDataPdu_wellFormed read) accepted.1.2

theorem moves (large : 1 < cfg.snModulus) (moves : rx.Moves cfg next) : next.ListOk cfg := by
  induction moves with
  | refl => exact ok
  | tail _ move ok =>
    refine ⟨ok.space.moves (by omega) (.single move), ?_⟩
    cases move with
    | deliver x full =>
      rw [reassembleAndDeliver_list x ok.list.sorted]
      exact ok.list.map_delivered (sduFull_holds full)
    | advance fuel => exact ok.list.advance large fuel ok.space.next
    | _ => exact ok.list

end

end AmRx.ListOk

end OranSlice.Rlc
