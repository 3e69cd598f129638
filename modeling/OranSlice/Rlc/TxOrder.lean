import OranSlice.Core.Ordered
import OranSlice.Rlc.AmTransmit

/-! The order of the segments that a sender has sent. -/

namespace OranSlice.Rlc

open Window Ordered List

variable {m base : Int} {cfg : AmConfig} {tx : AmTx} {s t u : SduSegment}

def Before (m base : Int) (s t : SduSegment) : Prop :=
  distance m base s.sn < distance m base t.sn ∨ (s.sn = t.sn ∧ s.so < t.so ∧ s.so + s.size ≤ t.so)

abbrev AmTx.Before (cfg : AmConfig) (tx : AmTx) : SduSegment → SduSegment → Prop :=
  Rlc.Before cfg.snModulus tx.txNextAck

theorem Before.trans (first : Before m base s t) (second : Before m base t u) : Before m base s u :=
  before_trans first second (by omega)

theorem Before.distance_le (ordered : Before m base s t) : distance m base s.sn ≤ distance m base t.sn := by
  rcases ordered with lower | ⟨same, _⟩
  · exact lower.le
  · rw [same]

theorem Before.asymm (ordered : Before m base s t) : ¬ Before m base t s := by
  intro reverse
  rcases ordered with lower | ⟨same, first⟩
  · rcases reverse with higher | ⟨equal, _⟩
    · omega
    · rw [equal] at lower
      omega
  · rcases reverse with higher | ⟨equal, second⟩
    · rw [same] at higher
      omega
    · omega

structure SduSegment.PartOf (part whole : SduSegment) : Prop where
  sn : part.sn = whole.sn
  start : whole.so ≤ part.so
  proper : part.so = whole.so ∨ part.so < whole.so + whole.size
  stop : part.so + part.size ≤ whole.so + whole.size

theorem SduSegment.PartOf.refl (s : SduSegment) : s.PartOf s := ⟨rfl, le_rfl, .inl rfl, le_rfl⟩

theorem Before.part_left (ordered : Before m base s t) (part : u.PartOf s) : Before m base u t := by
  obtain ⟨sn, start, proper, stop⟩ := part
  rcases ordered with lower | ⟨same, first, last⟩
  · exact .inl (sn ▸ lower)
  · exact .inr ⟨sn.trans same, by omega, by omega⟩

theorem Before.part_right (ordered : Before m base s t) (part : u.PartOf t) : Before m base s u := by
  obtain ⟨sn, start, proper, stop⟩ := part
  rcases ordered with lower | ⟨same, first, last⟩
  · exact .inl (sn ▸ lower)
  · exact .inr ⟨same.trans sn.symm, by omega, by omega⟩

theorem comparable_part (compared : Comparable (Before m base) s t) (part : u.PartOf s) :
    Comparable (Before m base) u t := by
  rcases compared with ordered | reverse
  · exact .inl (ordered.part_left part)
  · exact .inr (reverse.part_right part)

inductive SduSegment.Split (segment : SduSegment) : SduSegment → List SduSegment → Prop
  | whole : Split segment segment []
  | cut (k : Nat) (some_ : 0 < k) (notAll : k < segment.size) :
      Split segment { segment with size := k, isLast := false }
        [{ segment with so := segment.so + k, size := segment.size - k, isFirst := false }]

namespace SduSegment.Split

variable {segment sent : SduSegment} {left : List SduSegment}

section

variable (split : segment.Split sent left)

include split

theorem sentPart : sent.PartOf segment := by
  cases split with
  | whole => exact .refl segment
  | cut k some_ notAll =>
    refine ⟨rfl, le_rfl, .inl rfl, ?_⟩
    dsimp only
    omega

theorem leftPart : ∀ l ∈ left, l.PartOf segment := by
  cases split with
  | whole => simp
  | cut k some_ notAll =>
    intro l member
    rw [mem_singleton.mp member]
    refine ⟨rfl, ?_, .inr ?_, ?_⟩
    all_goals
      dsimp only
      omega

theorem single : left.length ≤ 1 := by
  cases split with
  | whole => simp
  | cut k some_ notAll => simp

theorem ordered (m base : Int) : ∀ l ∈ left, Before m base sent l := by
  cases split with
  | whole => simp
  | cut k some_ notAll =>
    intro l member
    rw [mem_singleton.mp member]
    refine .inr ⟨rfl, ?_, ?_⟩
    all_goals
      dsimp only
      omega

end

end SduSegment.Split

theorem resegment_split (cfg : AmConfig) {segment : SduSegment} {size : Nat}
    (room : computePduHeaderSize cfg segment + 1 ≤ size)
    (tooBig : computePduHeaderSize cfg segment + segment.size > size) :
    segment.Split (resegment cfg segment size).1 [(resegment cfg segment size).2] := by
  have cut := @SduSegment.Split.cut segment
    (segment.size - (computePduHeaderSize cfg segment + segment.size - size)) (by omega) (by omega)
  have left : segment.size - (segment.size - (computePduHeaderSize cfg segment + segment.size - size)) =
      computePduHeaderSize cfg segment + segment.size - size := by omega
  rw [left] at cut
  exact cut

theorem comesAfter_iff (compared : Comparable (tx.Before cfg) s t) :
    comesAfter (tx.snCompareTx cfg) t.sn t.so s.sn s.so = true ↔ tx.Before cfg s t := by
  unfold comesAfter AmTx.snCompareTx AmTx.modulusTx
  simp only [Bool.or_eq_true, decide_eq_true_eq, Bool.and_eq_true, beq_iff_eq]
  constructor
  · intro passed
    rcases compared with ordered | reverse
    · exact ordered
    rcases reverse with lower | ⟨same, first, _⟩
    · rcases passed with higher | ⟨equal, _⟩
      · omega
      · rw [equal] at lower
        omega
    · rcases passed with higher | ⟨_, second⟩
      · rw [same] at higher
        omega
      · omega
  · intro ordered
    rcases ordered with lower | ⟨same, first, _⟩
    · exact .inl (by omega)
    · exact .inr ⟨same.symm, first⟩

theorem waitFirst_iff (compared : Comparable (tx.Before cfg) s t) :
    tx.waitFirst cfg s t = true ↔ tx.Before cfg s t := by
  unfold AmTx.waitFirst AmTx.snCompareTx AmTx.modulusTx
  simp only [Bool.or_eq_true, decide_eq_true_eq, Bool.and_eq_true]
  constructor
  · intro passed
    rcases compared with ordered | reverse
    · exact ordered
    rcases reverse with lower | ⟨same, first, _⟩
    · omega
    · rw [same] at passed
      omega
  · intro ordered
    rcases ordered with lower | ⟨same, first, _⟩
    · exact .inl (by omega)
    · rw [same]
      exact .inr ⟨by omega, first⟩

theorem listAdd_pairwise {list : List SduSegment} (sorted : list.Pairwise (tx.Before cfg))
    (compared : ∀ t ∈ list, Comparable (tx.Before cfg) s t) :
    (nrRlcSduSegmentListAdd (tx.snCompareTx cfg) list s).Pairwise (tx.Before cfg) := by
  have decides : Decides (tx.Before cfg)
      (fun s t => comesAfter (tx.snCompareTx cfg) t.sn t.so s.sn s.so = true) s list := by
    refine ⟨fun t member => (comesAfter_iff (compared t member)).mp, ?_⟩
    intro t member failed
    exact (compared t member).resolve_left (fun before => failed ((comesAfter_iff (.inl before)).mpr before))
  exact pairwise_orderedInsert (fun first second => first.trans second) decides sorted

theorem listAdd_perm (snCompare : Int → Int → Int) (list : List SduSegment) (s : SduSegment) :
    (nrRlcSduSegmentListAdd snCompare list s).Perm (s :: list) := perm_orderedInsert _ s list

theorem listAddAll_perm (snCompare : Int → Int → Int) (moved list : List SduSegment) :
    (moved.foldl (nrRlcSduSegmentListAdd snCompare) list).Perm (moved ++ list) := by
  induction moved generalizing list with
  | nil => exact List.Perm.refl list
  | cons s rest ih =>
    have first := (ih _).trans ((listAdd_perm snCompare list s).append_left rest)
    exact first.trans perm_middle

theorem listAddAll_pairwise {moved list : List SduSegment} (sorted : list.Pairwise (tx.Before cfg))
    (compared : (moved ++ list).Pairwise (Comparable (tx.Before cfg))) :
    (moved.foldl (nrRlcSduSegmentListAdd (tx.snCompareTx cfg)) list).Pairwise (tx.Before cfg) := by
  induction moved generalizing list with
  | nil => exact sorted
  | cons s rest ih =>
    obtain ⟨first, later⟩ := pairwise_cons.mp compared
    apply ih
    · exact listAdd_pairwise sorted (forall_mem_append.mp first).2
    · have moved : (rest ++ nrRlcSduSegmentListAdd (tx.snCompareTx cfg) list s).Perm (s :: rest ++ list) :=
        ((listAdd_perm _ list s).append_left rest).trans perm_middle
      exact (moved.pairwise_iff Comparable.symm).mpr compared

theorem putInWaitList_perm (cfg : AmConfig) (tx : AmTx) (s : SduSegment) :
    (tx.putInWaitList cfg s).waitList.Perm (s :: tx.waitList) := by
  unfold AmTx.putInWaitList
  split
  · exact perm_append_singleton s tx.waitList
  · exact listAdd_perm _ tx.waitList s

theorem putInWaitList_pairwise (sorted : tx.waitList.Pairwise (tx.Before cfg))
    (compared : ∀ t ∈ tx.waitList, Comparable (tx.Before cfg) s t) :
    (tx.putInWaitList cfg s).waitList.Pairwise (tx.Before cfg) := by
  unfold AmTx.putInWaitList
  split_ifs with fits
  · rw [pairwise_append]
    refine ⟨sorted, pairwise_singleton _ s, ?_⟩
    intro t member other here
    rw [mem_singleton.mp here]
    -- the list ends with a segment that is before the new one
    cases final : tx.waitList.getLast? with
    | none =>
      rw [getLast?_eq_none_iff.mp final] at member
      cases member
    | some last =>
      have lastListed : last ∈ tx.waitList := mem_of_getLast? final
      have atEnd : tx.Before cfg last s := by
        rcases compared last lastListed with reverse | ordered
        · rw [AmTx.fitsAtEnd, final] at fits
          simp only [Bool.or_eq_true, decide_eq_true_eq, Bool.and_eq_true] at fits
          unfold AmTx.snCompareTx AmTx.modulusTx at fits
          rcases reverse with lower | ⟨same, first, _⟩
          · omega
          · rw [same] at fits
            omega
        · exact ordered
      rcases before_getLast sorted final member with isLast | ordered
      · rw [isLast]
        exact atEnd
      · exact ordered.trans atEnd
  · exact listAdd_pairwise sorted compared

end OranSlice.Rlc
