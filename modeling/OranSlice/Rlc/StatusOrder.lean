import OranSlice.Rlc.StatusMoves
import OranSlice.Rlc.TxOrder

/-! The order of the lists while a status report is processed, and the segments that its
NACKs hit. -/

namespace OranSlice.Rlc

open Ordered List

variable {cfg : AmConfig} {tx : AmTx} {ackSn : Int}

theorem AmTx.Accounted.isAfter_eq {old new : AmTx} (same : old.Accounted new) :
    new.isAfter cfg = old.isAfter cfg := by
  obtain ⟨_, _, _, _, rfl⟩ := same
  rfl

theorem AmTx.Accounted.waitFirst_eq {old new : AmTx} (same : old.Accounted new) :
    new.waitFirst cfg = old.waitFirst cfg := by
  obtain ⟨_, _, _, _, rfl⟩ := same
  rfl

namespace ControlState

variable {s next : ControlState} {part : NackedPart} {segment : SduSegment} {rest : List SduSegment}

structure InOrder (cfg : AmConfig) (tx : AmTx) (s : ControlState) : Prop where
  follows : Follows tx s
  waitSorted : s.wait.Pairwise (tx.Before cfg)
  retxSorted : (s.kept ++ s.retx).Pairwise (tx.Before cfg)
  keptFirst : ∀ k ∈ s.kept, ∀ w ∈ s.wait, tx.Before cfg k w
  apart : ((s.passed ++ s.wait) ++ (s.kept ++ s.retx)).Pairwise (Comparable (tx.Before cfg))

namespace InOrder

variable (ordered : InOrder cfg tx s)

include ordered

theorem compared {w r : SduSegment} (waiting : w ∈ s.wait) (listed : r ∈ s.retx) :
    Comparable (tx.Before cfg) w r :=
  (pairwise_append.mp ordered.apart).2.2 w (mem_append_right _ waiting) r (mem_append_right _ listed)

theorem wait_least (current : s.CurrentWait cfg segment rest) :
    (∀ w ∈ rest, tx.Before cfg segment w) ∧ ∀ r ∈ s.retx, tx.Before cfg segment r := by
  obtain ⟨same, first⟩ := current
  have waits := ordered.waitSorted
  rw [same] at waits
  refine ⟨(pairwise_cons.mp waits).1, ?_⟩
  have retxs := (pairwise_append.mp ordered.retxSorted).2.1
  have compared : ∀ r ∈ s.retx, Comparable (tx.Before cfg) segment r := by
    intro r listed
    exact ordered.compared (by simp [same]) listed
  cases listed : s.retx with
  | nil => simp
  | cons head others =>
    rw [listed] at first retxs compared
    have least : tx.Before cfg segment head := by
      have passed := first head rfl
      rw [ordered.follows.accounted.waitFirst_eq] at passed
      exact (waitFirst_iff (compared head mem_cons_self)).mp passed
    intro r member
    rcases mem_cons.mp member with here | there
    · rw [here]
      exact least
    · exact least.trans ((pairwise_cons.mp retxs).1 r there)

theorem retx_least (current : s.CurrentRetx cfg segment rest) :
    (∀ r ∈ rest, tx.Before cfg segment r) ∧ ∀ w ∈ s.wait, tx.Before cfg segment w := by
  obtain ⟨same, first⟩ := current
  have retxs := (pairwise_append.mp ordered.retxSorted).2.1
  rw [same] at retxs
  refine ⟨(pairwise_cons.mp retxs).1, ?_⟩
  have waits := ordered.waitSorted
  have compared : ∀ w ∈ s.wait, Comparable (tx.Before cfg) w segment := by
    intro w waiting
    exact ordered.compared waiting (by simp [same])
  cases listed : s.wait with
  | nil => simp
  | cons head others =>
    rw [listed] at first waits compared
    have least : tx.Before cfg segment head := by
      have failed := first head rfl
      rw [ordered.follows.accounted.waitFirst_eq] at failed
      rcases compared head mem_cons_self with before | after
      · rw [(waitFirst_iff (.inl before)).mpr before] at failed
        cases failed
      · exact after
    intro w member
    rcases mem_cons.mp member with here | there
    · rw [here]
      exact least
    · exact least.trans ((pairwise_cons.mp waits).1 w there)

end InOrder

theorem InOrder.move (ordered : InOrder cfg tx s) (move : NackMove cfg ackSn part s next) :
    InOrder cfg tx next := by
  have follows := ordered.follows.move move
  have waits := ordered.waitSorted
  have retxs := ordered.retxSorted
  have keptFirst := ordered.keptFirst
  have apart := ordered.apart
  cases move with
  | nackWait segment rest current _ =>
    obtain ⟨behindWait, behindRetx⟩ := ordered.wait_least current
    rw [current.1] at waits keptFirst apart
    obtain ⟨keptSorted, retxSorted, across⟩ := pairwise_append.mp retxs
    refine ⟨follows, (pairwise_cons.mp waits).2, ?_, ?_, ?_⟩
    · simp only [append_assoc]
      rw [pairwise_append]
      refine ⟨keptSorted, pairwise_cons.mpr ⟨behindRetx, retxSorted⟩, ?_⟩
      intro k inKept r member
      rcases mem_cons.mp member with here | there
      · rw [here]
        exact keptFirst k inKept segment mem_cons_self
      · exact across k inKept r there
    · intro k member w inRest
      rcases mem_append.mp member with old | new
      · exact keptFirst k old w (mem_cons_of_mem segment inRest)
      · rw [mem_singleton.mp new]
        exact behindWait w inRest
    · have perm : ((s.passed ++ rest) ++ ((s.kept ++ [segment]) ++ s.retx)).Perm
          ((s.passed ++ segment :: rest) ++ (s.kept ++ s.retx)) := by
        apply perm_iff_count.mpr
        simp only [count_append, count_cons, count_nil]
        omega
      exact (perm.pairwise_iff Comparable.symm).mpr apart
  | freeWait segment rest current _ _ =>
    rw [current.1] at waits keptFirst apart
    refine ⟨follows, (pairwise_cons.mp waits).2, retxs, ?_, ?_⟩
    · intro k inKept w inRest
      exact keptFirst k inKept w (mem_cons_of_mem segment inRest)
    · exact apart.sublist (((sublist_cons_self segment rest).append_left _).append_right _)
  | passAll segment rest current _ _ =>
    rw [current.1] at apart
    exact ⟨follows, .nil, retxs, by simp, by simpa using apart⟩
  | pass segment rest current _ _ =>
    rw [current.1] at waits keptFirst apart
    refine ⟨follows, (pairwise_cons.mp waits).2, retxs, ?_, by simpa using apart⟩
    intro k inKept w inRest
    exact keptFirst k inKept w (mem_cons_of_mem segment inRest)
  | nackRetx segment rest current _ | keepRetx segment rest current _ _ _ =>
    obtain ⟨_, behindWait⟩ := ordered.retx_least current
    rw [current.1] at retxs apart
    refine ⟨follows, waits, by simpa using retxs, ?_, by simpa using apart⟩
    intro k member w waiting
    rcases mem_append.mp member with old | new
    · exact keptFirst k old w waiting
    · rw [mem_singleton.mp new]
      exact behindWait w waiting
  | freeRetx segment rest current _ _ =>
    rw [current.1] at retxs apart
    have shorter : (s.kept ++ rest).Sublist (s.kept ++ segment :: rest) :=
      (sublist_cons_self segment rest).append_left _
    exact ⟨follows, waits, retxs.sublist shorter, keptFirst, apart.sublist (shorter.append_left _)⟩
  | cutRetx segment rest current _ _ _ =>
    have shorter : (s.kept ++ []).Sublist (s.kept ++ s.retx) := (nil_sublist _).append_left _
    exact ⟨follows, waits, retxs.sublist shorter, keptFirst, apart.sublist (shorter.append_left _)⟩

end ControlState

def AmTx.hits (cfg : AmConfig) (tx : AmTx) (segment : SduSegment) : List NackedPart → Bool
  | [] => false
  | part :: parts =>
    part.overlaps segment || (tx.isAfter cfg segment part && tx.hits cfg segment parts)

theorem overlaps_later {part : NackedPart} {s t : SduSegment} (ordered : tx.Before cfg s t)
    (missed : part.overlaps s = false) (after : tx.isAfter cfg s part = true) : part.overlaps t = false := by
  unfold AmTx.isAfter AmTx.snCompareTx AmTx.modulusTx at after
  simp only [Bool.or_eq_true, decide_eq_true_eq, Bool.and_eq_true] at after
  by_contra concerned
  simp only [NackedPart.overlaps, Bool.not_eq_false, Bool.and_eq_true, beq_iff_eq] at concerned
  obtain ⟨sameSn, overlap⟩ := concerned
  rcases ordered with lower | ⟨equal, first, _⟩
  · rw [sameSn] at lower
    omega
  rw [equal, sameSn] at after
  have start : part.soStart < s.so := by omega
  simp only [NackedPart.overlaps, equal, sameSn, BEq.rfl, Bool.true_and, soOverlap, if_pos start,
    Bool.or_eq_false_iff, decide_eq_false_iff_not, beq_eq_false_iff_ne] at missed
  simp only [soOverlap, if_pos (show part.soStart < (t.so : Int) by omega), Bool.or_eq_true,
    beq_iff_eq, decide_eq_true_eq] at overlap
  omega

theorem isAfter_later {part : NackedPart} {s t : SduSegment} (ordered : tx.Before cfg s t)
    (after : tx.isAfter cfg s part = true) : tx.isAfter cfg t part = true := by
  unfold AmTx.isAfter AmTx.snCompareTx AmTx.modulusTx at after ⊢
  simp only [Bool.or_eq_true, decide_eq_true_eq, Bool.and_eq_true] at after ⊢
  rcases ordered with lower | ⟨equal, first, _⟩
  · exact .inl (by omega)
  · rw [← equal]
    omega

namespace ControlState

variable {s next : ControlState} {part : NackedPart} {parts : List NackedPart} {t : SduSegment}

theorem InOrder.stopped (ordered : InOrder cfg tx s) (stuck : s.nackStep cfg ackSn part = none)
    (member : t ∈ s.wait ∨ t ∈ s.retx) : part.overlaps t = false ∧ tx.isAfter cfg t part = true := by
  rcases nackStep_stop stuck with ⟨noWait, noRetx⟩ | ⟨segment, rest, current, missed, after⟩
  · simp [noWait, noRetx] at member
  rw [ordered.follows.accounted.isAfter_eq] at after
  have least : t = segment ∨ tx.Before cfg segment t := by
    rcases current with wait | retx
    · obtain ⟨behindWait, behindRetx⟩ := ordered.wait_least wait
      rcases member with waiting | listed
      · rw [wait.1] at waiting
        exact (mem_cons.mp waiting).imp_right (behindWait t)
      · exact .inr (behindRetx t listed)
    · obtain ⟨behindRetx, behindWait⟩ := ordered.retx_least retx
      rcases member with waiting | listed
      · exact .inr (behindWait t waiting)
      · rw [retx.1] at listed
        exact (mem_cons.mp listed).imp_right (behindRetx t)
  rcases least with same | later
  · rw [same]
    exact ⟨missed, after⟩
  · exact ⟨overlaps_later later missed after, isAfter_later later after⟩

structure Pending (cfg : AmConfig) (tx : AmTx) (whole parts : List NackedPart) (s : ControlState) :
    Prop where
  open_ : ∀ t, t ∈ s.wait ∨ t ∈ s.retx → tx.hits cfg t whole = tx.hits cfg t parts
  old : ∀ t ∈ s.retx, t ∈ tx.retransmitList
  last : ∀ w ∈ tx.waitList, w ∈ s.wait ∨ ∀ t, t ∈ s.wait ∨ t ∈ s.retx → tx.Before cfg w t

variable {whole : List NackedPart}

theorem Pending.shrink (pending : Pending cfg tx whole parts s)
    (wait : ∀ t ∈ next.wait, t ∈ s.wait) (retx : ∀ t ∈ next.retx, t ∈ s.retx)
    (done : ∀ w ∈ s.wait, w ∈ next.wait ∨ ∀ t, t ∈ next.wait ∨ t ∈ next.retx → tx.Before cfg w t) :
    Pending cfg tx whole parts next where
  open_ t member := pending.open_ t (member.imp (wait t) (retx t))
  old t member := pending.old t (retx t member)
  last w listed := by
    rcases pending.last w listed with here | before
    · exact done w here
    · exact .inr (fun t member => before t (member.imp (wait t) (retx t)))

theorem Behind.le (follows : Follows tx s) (behind : s.Behind cfg part t) :
    tx.snCompareTx cfg t.sn part.sn ≤ 0 := by
  have notAfter := behind.2
  rw [follows.accounted.isAfter_eq, AmTx.isAfter] at notAfter
  simp only [Bool.or_eq_false_iff, decide_eq_false_iff_not] at notAfter
  omega

theorem Behind.notBeyond (follows : Follows tx s) (behind : s.Behind cfg part t)
    (fits : tx.snCompareTx cfg part.sn ackSn ≤ 0) : ¬ s.tx.snCompareTx cfg t.sn ackSn > 0 := by
  have le := behind.le follows
  rw [follows.accounted.snCompareTx cfg]
  unfold AmTx.snCompareTx at le fits ⊢
  omega

theorem Pending.move (ordered : InOrder cfg tx s)
    (pending : Pending cfg tx whole parts s) (fits : tx.snCompareTx cfg part.sn ackSn ≤ 0)
    (move : NackMove cfg ackSn part s next) : Pending cfg tx whole parts next := by
  have waitDone : ∀ {segment : SduSegment} {rest : List SduSegment}, s.CurrentWait cfg segment rest →
      ∀ w ∈ s.wait, w ∈ rest ∨ ∀ t, t ∈ rest ∨ t ∈ s.retx → tx.Before cfg w t := by
    intro segment rest current w waiting
    obtain ⟨behindWait, behindRetx⟩ := ordered.wait_least current
    rw [current.1] at waiting
    rcases mem_cons.mp waiting with here | there
    · rw [here]
      exact .inr (fun t member => member.elim (behindWait t) (behindRetx t))
    · exact .inl there
  have waitRest : ∀ {segment : SduSegment} {rest : List SduSegment}, s.CurrentWait cfg segment rest →
      ∀ t ∈ rest, t ∈ s.wait := by
    intro segment rest current t member
    rw [current.1]
    exact mem_cons_of_mem segment member
  have retxRest := move.retx_subset
  cases move with
  | nackWait segment rest current _ | freeWait segment rest current _ _ | pass segment rest current _ _ =>
    exact pending.shrink (waitRest current) retxRest (waitDone current)
  | passAll segment rest current behind beyond =>
    exact absurd beyond (behind.notBeyond ordered.follows fits)
  | nackRetx segment rest current _ | freeRetx segment rest current _ _ | cutRetx segment rest current _ _ _
  | keepRetx segment rest current _ _ _ =>
    exact pending.shrink (fun _ same => same) retxRest (fun _ here => .inl here)

theorem Pending.stop (ordered : InOrder cfg tx s)
    (pending : Pending cfg tx whole (part :: parts) s) (stuck : s.nackStep cfg ackSn part = none) :
    Pending cfg tx whole parts s := by
  refine { pending with open_ := ?_ }
  intro t member
  obtain ⟨missed, after⟩ := ordered.stopped stuck member
  rw [pending.open_ t member, AmTx.hits, missed, after, Bool.false_or, Bool.true_and]

theorem Pending.hit (pending : Pending cfg tx whole (part :: parts) s)
    (member : t ∈ s.wait ∨ t ∈ s.retx) (overlaps : part.overlaps t = true) : tx.hits cfg t whole = true := by
  rw [pending.open_ t member, AmTx.hits, overlaps, Bool.true_or]

theorem Pending.missed (follows : Follows tx s)
    (pending : Pending cfg tx whole (part :: parts) s) (member : t ∈ s.wait ∨ t ∈ s.retx)
    (behind : s.Behind cfg part t) : tx.hits cfg t whole = false := by
  obtain ⟨missed, notAfter⟩ := behind
  rw [follows.accounted.isAfter_eq] at notAfter
  rw [pending.open_ t member, AmTx.hits, missed, notAfter, Bool.false_or, Bool.false_and]

structure Settled (cfg : AmConfig) (tx : AmTx) (ackSn : Int) (whole : List NackedPart)
    (s : ControlState) : Prop where
  passed : ∀ t ∈ s.passed, tx.hits cfg t whole = false ∧ ¬ tx.snCompareTx cfg t.sn ackSn < 0
  kept : ∀ t ∈ s.kept, (t ∈ tx.waitList ∧ tx.hits cfg t whole = true) ∨
    (t ∈ tx.retransmitList ∧ (tx.hits cfg t whole = true ∨ ¬ tx.snCompareTx cfg t.sn ackSn < 0))
  wait : ∀ t ∈ tx.waitList, t ∈ s.wait ∨ t ∈ s.passed ∨ t ∈ s.kept ∨
    (tx.hits cfg t whole = false ∧ tx.snCompareTx cfg t.sn ackSn < 0)
  retx : ∀ t ∈ tx.retransmitList, t ∈ s.retx ∨ t ∈ s.kept ∨
    (tx.hits cfg t whole = false ∧ tx.snCompareTx cfg t.sn ackSn < 0)

theorem Settled.move (ordered : InOrder cfg tx s)
    (pending : Pending cfg tx whole (part :: parts) s) (settled : Settled cfg tx ackSn whole s)
    (fits : tx.snCompareTx cfg part.sn ackSn ≤ 0)
    (uncut : ∀ r rest, s.CurrentRetx cfg r rest → s.Behind cfg part r →
      ¬ tx.snCompareTx cfg r.sn ackSn < 0 → s.wait ≠ [])
    (move : NackMove cfg ackSn part s next) : Settled cfg tx ackSn whole next := by
  have follows := ordered.follows
  have compare := follows.accounted.snCompareTx cfg
  obtain ⟨passed, kept, wait, retx⟩ := settled
  cases move with
  | nackWait segment rest current hit =>
    have here : segment ∈ s.wait := by simp [current.1]
    have isHit := pending.hit (.inl here) hit
    have waiting : segment ∈ tx.waitList := follows.wait.subset (mem_append_right _ here)
    refine ⟨passed, ?_, ?_, ?_⟩
    · exact forall_mem_append.mpr ⟨kept, forall_mem_singleton.mpr (.inl ⟨waiting, isHit⟩)⟩
    · intro t listed
      rw [current.1] at wait
      have := wait t listed
      simp only [mem_cons, mem_append] at this ⊢
      tauto
    · intro t listed
      have := retx t listed
      simp only [mem_append]
      tauto
  | freeWait segment rest current behind acked =>
    rw [compare] at acked
    have missed := pending.missed follows (.inl (by simp [current.1])) behind
    refine ⟨passed, kept, ?_, retx⟩
    intro t listed
    rw [current.1] at wait
    rcases wait t listed with waiting | other
    · rcases mem_cons.mp waiting with here | there
      · rw [here]
        exact .inr (.inr (.inr ⟨missed, acked⟩))
      · exact .inl there
    · exact .inr other
  | passAll segment rest current behind beyond =>
    exact absurd beyond (behind.notBeyond follows fits)
  | pass segment rest current behind border =>
    rw [compare] at border
    have missed := pending.missed follows (.inl (by simp [current.1])) behind
    refine ⟨?_, kept, ?_, retx⟩
    · exact forall_mem_append.mpr ⟨passed, forall_mem_singleton.mpr ⟨missed, by omega⟩⟩
    · intro t listed
      rw [current.1] at wait
      have := wait t listed
      simp only [mem_cons, mem_append] at this ⊢
      tauto
  | nackRetx segment rest current hit =>
    have here : segment ∈ s.retx := by simp [current.1]
    have isHit := pending.hit (.inr here) hit
    refine ⟨passed, ?_, ?_, ?_⟩
    · exact forall_mem_append.mpr ⟨kept, forall_mem_singleton.mpr (.inr ⟨pending.old segment here, .inl isHit⟩)⟩
    · intro t listed
      have := wait t listed
      simp only [mem_append]
      tauto
    · intro t listed
      rw [current.1] at retx
      have := retx t listed
      simp only [mem_cons, mem_append] at this ⊢
      tauto
  | freeRetx segment rest current behind acked =>
    rw [compare] at acked
    have missed := pending.missed follows (.inr (by simp [current.1])) behind
    refine ⟨passed, kept, wait, ?_⟩
    intro t listed
    rw [current.1] at retx
    rcases retx t listed with inRetx | other
    · rcases mem_cons.mp inRetx with here | there
      · rw [here]
        exact .inr (.inr ⟨missed, acked⟩)
      · exact .inl there
    · exact .inr other
  | cutRetx segment rest current behind notAcked done =>
    rw [compare] at notAcked
    exact absurd done (uncut segment rest current behind notAcked)
  | keepRetx segment rest current behind notAcked _ =>
    rw [compare] at notAcked
    have here : segment ∈ s.retx := by simp [current.1]
    refine ⟨passed, ?_, ?_, ?_⟩
    · exact forall_mem_append.mpr
        ⟨kept, forall_mem_singleton.mpr (.inr ⟨pending.old segment here, .inr notAcked⟩)⟩
    · intro t listed
      have := wait t listed
      simp only [mem_append]
      tauto
    · intro t listed
      rw [current.1] at retx
      have := retx t listed
      simp only [mem_cons, mem_append] at this ⊢
      tauto

end ControlState

end OranSlice.Rlc
