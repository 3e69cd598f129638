import OranSlice.Rlc.AmReassembly
import OranSlice.Rlc.UmOrder

/-! Reassembly in a UM receiver, and what AM and UM receivers have in common: an SDU is delivered once,
when all of it has arrived. -/

namespace OranSlice.Rlc

open BitCodec Window List

variable {length : Nat} {m window x : Int} {entity : UmEntity} {sdu : List Byte} {pdus : List DataPdu}
  {pdu : DataPdu}

theorem isConsumed_fromSn {list : List Pdu} (unread : ∀ pdu ∈ list, pdu.sn = x → pdu.data ≠ none) :
    isConsumed (fromSn x list) = false := by
  have stopped := head?_dropWhile_not (fun l : Pdu => l.sn != x) list
  cases found : fromSn x list with
  | nil => rfl
  | cons first rest =>
    rw [show list.dropWhile (fun l => l.sn != x) = first :: rest from found] at stopped
    have listed : first ∈ list := (dropWhile_sublist _).subset (found ▸ mem_cons_self)
    have data := unread first listed (by simpa using stopped)
    rw [isConsumed, Option.isNone_eq_false_iff]
    exact Option.isSome_iff_ne_none.mpr data

namespace UmEntity

section Window

variable (arith : UmSpace length m window) (inside : entity.InSpace length m window) (x_ok : Within m x)

include arith inside x_ok

omit arith in
theorem skipDelivered_le {base : Int} (base_ok : Within m base) (waits : entity.sduDelivered x = false)
    (fuel : Nat) {sn : Int} (sn_ok : Within m sn) (low : distance m base sn ≤ distance m base x) :
    distance m base (entity.skipDelivered fuel sn) ≤ distance m base x := by
  induction fuel generalizing sn with
  | zero => exact low
  | succ fuel ih =>
    unfold UmEntity.skipDelivered
    split
    · rename_i passed
      have bounds := distance_bounds base_ok x_ok
      have different : distance m base sn ≠ distance m base x := by
        intro equal
        rw [(distance_inj base_ok sn_ok x_ok).mp equal, waits] at passed
        cases passed
      have one := distance_succ base_ok sn_ok (by omega)
      rw [inside.modulus]
      exact ih (within_mod (by omega) _) (by omega)
    · exact low

theorem raiseNextReassembly_above (last : distance m entity.lowest x = window - 1)
    (waits : entity.sduDelivered x = false) :
    0 ≤ entity.raiseNextReassembly.snCompareRx x entity.raiseNextReassembly.rxNextReassembly := by
  have half := arith.half
  have positive := arith.positive
  have low := inside.lowest_within arith
  unfold UmEntity.raiseNextReassembly
  split_ifs with near
  · have start : (entity.rxNextHighest - entity.windowSize + entity.snModulus) % entity.snModulus =
        entity.lowest := Int.add_emod_right _ _
    rw [start]
    change 0 ≤ entity.snCompareRx x (entity.skipDelivered (entity.rxList.length + 1) entity.lowest)
    have within := inside.skipDelivered (by omega) (entity.rxList.length + 1) low
    have found := skipDelivered_le inside x_ok low waits (entity.rxList.length + 1) low
      (by rw [distance_self]; omega)
    rw [inside.snCompareRx_eq arith x_ok within]
    omega
  · rw [ge_iff_le, inside.beyond_iff arith inside.nextReassembly] at near
    rw [inside.snCompareRx_eq arith x_ok inside.nextReassembly]
    omega

theorem raised_keeps (beyond : window ≤ distance m entity.lowest x) {pdu : Pdu} (same : pdu.sn = x) :
    ¬ 0 ≤ (RxOrdered.raised entity x).snCompareRx pdu.sn (RxOrdered.raised entity x).rxNextHighest := by
  have positive := arith.positive
  rw [RxOrdered.outside_iff arith inside x_ok beyond (same ▸ x_ok) (.inr same),
    RxOrdered.distance_raised arith inside x_ok beyond, same]
  omega

theorem moveWindow_mem {pdu : Pdu} (same : pdu.sn = x) :
    pdu ∈ (entity.moveWindow x).rxList ↔ pdu ∈ entity.rxList := by
  rcases RxOrdered.moveWindow_cases arith inside x_ok with ⟨beyond, moved⟩ | ⟨_, stays⟩
  · have kept := raised_keeps arith inside x_ok beyond same
    rw [moved, (RxOrdered.raiseNextReassembly_rx _).1]
    constructor
    · exact fun member => (dropWhile_sublist _).subset member
    · intro member
      rw [← takeWhile_append_dropWhile (p := fun pdu : Pdu =>
        decide ((RxOrdered.raised entity x).snCompareRx pdu.sn (RxOrdered.raised entity x).rxNextHighest ≥ 0))
        (l := entity.rxList)] at member
      rcases mem_append.mp member with dropped | stays
      · have outside := mem_takeWhile_imp dropped
        exact absurd (of_decide_eq_true outside) kept
      · exact stays
  · rw [stays]

theorem moveWindow_above (unread : ∀ pdu ∈ entity.rxList, pdu.sn = x → pdu.data ≠ none)
    (above : 0 ≤ entity.snCompareRx x entity.rxNextReassembly) :
    0 ≤ (entity.moveWindow x).snCompareRx x (entity.moveWindow x).rxNextReassembly := by
  have positive := arith.positive
  rcases RxOrdered.moveWindow_cases arith inside x_ok with ⟨beyond, moved⟩ | ⟨_, stays⟩
  · have space := RxOrdered.raised_inSpace arith inside x
    have low := space.lowest_within arith
    have last : distance m (RxOrdered.raised entity x).lowest x = window - 1 := by
      rw [distance_rebase (inside.lowest_within arith) low x_ok]
      all_goals
        rw [RxOrdered.distance_raised arith inside x_ok beyond]
        omega
    have part : (RxOrdered.raised entity x).discardOutside.rxList.Sublist entity.rxList := dropWhile_sublist _
    have discarded : (RxOrdered.raised entity x).discardOutside.InSpace length m window :=
      { space with rxList := inside.rxList.sublist part }
    have waits : (RxOrdered.raised entity x).discardOutside.sduDelivered x = false :=
      isConsumed_fromSn (fun pdu member => unread pdu (part.subset member))
    rw [moved]
    exact raiseNextReassembly_above arith discarded x_ok last waits
  · rw [stays]
    exact above

end Window

structure Collects (length : Nat) (m window x : Int) (sdu : List Byte) (pdus : List DataPdu)
    (entity : UmEntity) : Prop where
  ordered : entity.RxOrdered length m window
  above : 0 ≤ entity.snCompareRx x entity.rxNextReassembly
  gathered : ∃ before block after,
    Split m entity.lowest x entity.rxList before block after ∧ Gathered sdu pdus block

structure Marks (length : Nat) (m window x : Int) (entity : UmEntity) : Prop where
  ordered : entity.RxOrdered length m window
  mark : ∃ before first rest after, Split m entity.lowest x entity.rxList before (first :: rest) after ∧
    first.so = 0 ∧ first.data = none

theorem recvSegment_eq (room : entity.rxSize + pdu.data.length ≤ entity.rxMaxsize)
    (above : 0 ≤ entity.snCompareRx pdu.sn entity.rxNextReassembly) :
    entity.recvSegment pdu = (entity.withPdu pdu).receptionActions pdu.sn := by
  rw [UmEntity.recvSegment, if_neg (by omega), if_neg (by omega)]

theorem receptionActions_full (full : entity.sduFull x = true) : ∃ start trigger reassembly,
    (entity.receptionActions x).1 = { (entity.reassembleAndDeliver x).1 with
      rxNextReassembly := reassembly, tReassemblyStart := start, rxTimerTrigger := trigger } ∧
    (entity.receptionActions x).2 = (entity.reassembleAndDeliver x).2 := by
  obtain ⟨reassembly, delivered⟩ := afterDelivery_eq (entity.reassembleAndDeliver x).1 x
  obtain ⟨start, trigger, timed⟩ := updateTimer_eq ((entity.reassembleAndDeliver x).1.afterDelivery x)
  refine ⟨start, trigger, reassembly, ?_, ?_⟩
  · rw [UmEntity.receptionActions, if_pos full]
    dsimp only
    rw [timed, delivered]
  · rw [UmEntity.receptionActions, if_pos full]

theorem receptionActions_partly (partly : ¬ entity.sduFull x = true) : ∃ start trigger,
    (entity.receptionActions x).1 = { entity.moveWindow x with
      tReassemblyStart := start, rxTimerTrigger := trigger } ∧ (entity.receptionActions x).2 = [] := by
  obtain ⟨start, trigger, timed⟩ := updateTimer_eq (entity.moveWindow x)
  refine ⟨start, trigger, ?_, ?_⟩
  · rw [UmEntity.receptionActions, if_neg partly]
    exact timed
  · rw [UmEntity.receptionActions, if_neg partly]

namespace Collects

variable (arith : UmSpace length m window) (x_ok : Within m x)
  (collects : entity.Collects length m window x sdu pdus)

include collects

theorem skip (known : ∀ k, pdu.so ≤ k → k < pdu.so + pdu.data.length → Arrived pdus k) :
    entity.Collects length m window x sdu (pdus ++ [pdu]) := by
  obtain ⟨before, block, after, split, gathered⟩ := collects.gathered
  exact ⟨collects.ordered, collects.above, before, block, after, split, gathered.skip known⟩

include arith x_ok

section

variable (slice : pdu.IsSlice sdu x) (data : pdu.data ≠ [])

include slice data

theorem withPdu_split : ∃ before block after, Split m entity.lowest x (entity.withPdu pdu).rxList before block after ∧
      block.Pairwise (fun a b => a.so ≤ b.so) ∧ Gathered sdu (pdus ++ [pdu]) block := by
  obtain ⟨before, block, after, split, gathered⟩ := collects.gathered
  have sn := slice.sn
  have added := @Split.add _ _ _ _ _ _ _ split entity.snCompareRx pdu.stored sn (fun other member =>
    collects.ordered.inside.snCompareRx_eq arith (collects.ordered.inside.rxList other member) x_ok)
  refine ⟨before, _, after, added, ?_, gathered.insert slice data⟩
  exact added.block_sorted (collects.ordered.withPdu_sorted arith (sn ▸ x_ok))

theorem sduFull_iff (nonempty : sdu ≠ []) : (entity.withPdu pdu).sduFull x = true ↔ Complete sdu (pdus ++ [pdu]) := by
  obtain ⟨before, block, after, split, sorted, gathered⟩ := collects.withPdu_split arith x_ok slice data
  rw [UmEntity.sduFull, split.isConsumed_eq, gathered.isConsumed, split.fullFrom_eq]
  exact gathered.full_iff split.here sorted nonempty

theorem deliver (nonempty : sdu ≠ []) (fits : sdu.length ≤ nrSduMax) (complete : Complete sdu (pdus ++ [pdu]))
    (ordered : ((entity.withPdu pdu).receptionActions x).1.RxOrdered length m window) :
    ((entity.withPdu pdu).receptionActions x).2 = [.deliverSdu sdu] ∧
      ((entity.withPdu pdu).receptionActions x).1.Marks length m window x := by
  obtain ⟨start, trigger, reassembly, state, events⟩ :=
    receptionActions_full ((collects.sduFull_iff arith x_ok slice data nonempty).mpr complete)
  obtain ⟨before, block, after, split, sorted, gathered⟩ := collects.withPdu_split arith x_ok slice data
  constructor
  · rw [events, UmEntity.reassembleAndDeliver]
    rw [split.reassemble_eq, gathered.reassembled split.here sorted fits complete]
  · obtain ⟨held, member, low, _⟩ := (gathered.held 0).mpr (complete 0 (length_pos_iff.mpr nonempty))
    obtain ⟨first, rest, same⟩ := exists_cons_of_ne_nil (ne_nil_of_mem member)
    have zero : first.so = 0 := by
      rw [same] at member sorted
      rcases mem_cons.mp member with here | there
      · rw [← here]
        omega
      · have := (pairwise_cons.mp sorted).1 held there
        omega
    refine ⟨ordered, before, freePdu first, rest.map freePdu, after, ?_, zero, rfl⟩
    rw [← map_cons, ← same, state]
    have list := split.consume_eq freePdu
    have marked := @Split.map_block _ _ _ _ _ _ _ split freePdu (fun _ => rfl)
    rw [← list] at marked
    exact marked

theorem gather (nonempty : sdu ≠ []) (partly : ¬ Complete sdu (pdus ++ [pdu]))
    (ordered : ((entity.withPdu pdu).receptionActions x).1.RxOrdered length m window) :
    ((entity.withPdu pdu).receptionActions x).2 = [] ∧
      ((entity.withPdu pdu).receptionActions x).1.Collects length m window x sdu (pdus ++ [pdu]) := by
  obtain ⟨start, trigger, state, events⟩ :=
    receptionActions_partly (fun full => partly ((collects.sduFull_iff arith x_ok slice data nonempty).mp full))
  obtain ⟨before, block, after, split, sorted, gathered⟩ := collects.withPdu_split arith x_ok slice data
  have stored : (entity.withPdu pdu).InSpace length m window :=
    { collects.ordered.inside with
      rxList := collects.ordered.inside.rxList.add _ (show Within m pdu.sn from slice.sn ▸ x_ok) }
  have unread : ∀ other ∈ (entity.withPdu pdu).rxList, other.sn = x → other.data ≠ none := by
    intro other member same
    rw [(gathered.slices other (split.mem_iff.mpr ⟨member, same⟩)).data]
    exact Option.some_ne_none _
  refine ⟨events, ordered, ?_, ?_⟩
  · rw [state]
    exact moveWindow_above arith stored x_ok unread collects.above
  · obtain ⟨low, here, high, parts⟩ := Split.of_sorted (ordered.inside.lowest_within arith) x_ok
      ordered.inside.rxList ordered.sorted
    refine ⟨low, here, high, parts, gathered.congr (fun other => ?_)⟩
    rw [parts.mem_iff, split.mem_iff, state]
    refine and_congr_left (fun same => ?_)
    exact moveWindow_mem arith stored x_ok same

theorem recvSegment
    (segment : ¬ (pdu.so = 0 ∧ pdu.isLast = true)) (nonempty : sdu ≠ []) (fits : sdu.length ≤ nrSduMax)
    (incomplete : ¬ Complete sdu pdus)
    (room : (∃ k, pdu.so ≤ k ∧ k < pdu.so + pdu.data.length ∧ ¬ Arrived pdus k) →
      pdu.data.length ≤ entity.rxMaxsize - entity.rxSize) :
    (Complete sdu (pdus ++ [pdu]) → (entity.recvSegment pdu).2 = [.deliverSdu sdu] ∧
        (entity.recvSegment pdu).1.Marks length m window x) ∧
      (¬ Complete sdu (pdus ++ [pdu]) → (entity.recvSegment pdu).2 = [] ∧
        (entity.recvSegment pdu).1.Collects length m window x sdu (pdus ++ [pdu])) := by
  have ordered := collects.ordered.recvSegment arith (slice.sn ▸ x_ok) segment
  by_cases free : entity.rxSize + pdu.data.length ≤ entity.rxMaxsize
  · have above := collects.above
    rw [← slice.sn] at above
    rw [recvSegment_eq free above, slice.sn] at ordered ⊢
    exact ⟨fun complete => collects.deliver arith x_ok slice data nonempty fits complete ordered,
      fun partly => collects.gather arith x_ok slice data nonempty partly ordered⟩
  · -- without room the segment is dropped, and it has brought nothing new
    have known : ∀ k, pdu.so ≤ k → k < pdu.so + pdu.data.length → Arrived pdus k := by
      intro k low high
      by_contra new
      have := room ⟨k, low, high, new⟩
      omega
    have dropped : entity.recvSegment pdu = (entity, []) := by
      rw [UmEntity.recvSegment, if_pos (by omega)]
    rw [dropped]
    exact ⟨fun complete => absurd (complete.of_known known) incomplete, fun _ => ⟨rfl, collects.skip known⟩⟩

end

end Collects

theorem Marks.recvSegment (arith : UmSpace length m window) (x_ok : Within m x)
    (marks : entity.Marks length m window x) (sn : pdu.sn = x) (segment : ¬ (pdu.so = 0 ∧ pdu.isLast = true)) :
    (entity.recvSegment pdu).2 = [] ∧ (entity.recvSegment pdu).1.Marks length m window x := by
  have ordered := marks.ordered.recvSegment arith (sn ▸ x_ok) segment
  by_cases accepted : entity.rxSize + pdu.data.length ≤ entity.rxMaxsize ∧
      0 ≤ entity.snCompareRx pdu.sn entity.rxNextReassembly
  · rw [recvSegment_eq accepted.1 accepted.2, sn] at ordered ⊢
    obtain ⟨before, first, rest, after, split, zero, consumed⟩ := marks.mark
    have added := @Split.add _ _ _ _ _ _ _ split entity.snCompareRx pdu.stored sn (fun other member =>
      marks.ordered.inside.snCompareRx_eq arith (marks.ordered.inside.rxList other member) x_ok)
    rw [orderedInsert_of_not_le _ _ (by omega)] at added
    have notFull : ¬ (entity.withPdu pdu).sduFull x = true := by
      rw [UmEntity.sduFull, show isConsumed (fromSn x (entity.withPdu pdu).rxList) = true from
        added.isConsumed_eq.trans (by simp [isConsumed, consumed])]
      simp
    have near : distance m entity.lowest x < window := by
      have member : first ∈ entity.rxList := (split.mem_iff.mp mem_cons_self).1
      have inside := marks.ordered.near first member
      rwa [split.here first mem_cons_self] at inside
    have stored : (entity.withPdu pdu).InSpace length m window :=
      { marks.ordered.inside with
        rxList := marks.ordered.inside.rxList.add _ (show Within m pdu.sn from sn ▸ x_ok) }
    have stays : (entity.withPdu pdu).moveWindow x = entity.withPdu pdu := by
      rcases RxOrdered.moveWindow_cases arith stored x_ok with ⟨beyond, _⟩ | ⟨_, stays⟩
      · exact absurd beyond (not_le.mpr near)
      · exact stays
    obtain ⟨start, trigger, state, events⟩ := receptionActions_partly notFull
    refine ⟨events, ordered, before, first, rest.orderedInsert (fun a b => a.so < b.so) pdu.stored, after, ?_,
      zero, consumed⟩
    rw [state, stays]
    exact added
  · have dropped : entity.recvSegment pdu = (entity, []) := by
      rw [UmEntity.recvSegment]
      split
      · rfl
      · rw [if_pos (by omega)]
    rw [dropped]
    exact ⟨rfl, marks⟩

end UmEntity

end OranSlice.Rlc
