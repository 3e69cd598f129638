import OranSlice.Rlc.StatusOrder

/-! What a status report does to each segment of ordered lists. A segment that a NACK hits is
retransmitted, one before ACK_SN is freed, and any other stays, unless the loop over the NACKs cuts off
the rest of the retransmit list. -/

namespace OranSlice.Rlc

open Ordered List

variable {cfg : AmConfig} {tx : AmTx}

theorem Before.irrefl {m base : Int} (s : SduSegment) : ¬ Before m base s s :=
  fun itself => itself.asymm itself

structure AmTx.Sorted (cfg : AmConfig) (tx : AmTx) : Prop where
  wait : tx.waitList.Pairwise (tx.Before cfg)
  retx : tx.retransmitList.Pairwise (tx.Before cfg)
  apart : (tx.waitList ++ tx.retransmitList).Pairwise (Comparable (tx.Before cfg))

theorem ControlState.InOrder.freed {s : ControlState} (ordered : s.InOrder cfg tx) (sorted : tx.Sorted cfg)
    (acked : SduSegment → Bool) :
    (s.passed ++ s.wait.dropWhile acked).Sublist tx.waitList ∧
      (∀ t ∈ s.kept ++ s.retx.dropWhile acked, t ∈ tx.waitList ∨ t ∈ tx.retransmitList) ∧
      AmTx.Sorted cfg { tx with
        waitList := s.passed ++ s.wait.dropWhile acked, retransmitList := s.kept ++ s.retx.dropWhile acked } := by
  have waitSub := (dropWhile_sublist (l := s.wait) acked).append_left s.passed
  have retxSub := (dropWhile_sublist (l := s.retx) acked).append_left s.kept
  have waits := waitSub.trans ordered.follows.wait
  exact ⟨waits, fun t listed => ordered.follows.retx t (retxSub.subset listed), sorted.wait.sublist waits,
    ordered.retxSorted.sublist retxSub, ordered.apart.sublist (waitSub.append retxSub)⟩

namespace AmTx

theorem Sorted.disjoint (sorted : tx.Sorted cfg) {t : SduSegment} (waiting : t ∈ tx.waitList) :
    t ∉ tx.retransmitList := by
  intro listed
  rcases (pairwise_append.mp sorted.apart).2.2 t waiting t listed with itself | itself
  · exact itself.irrefl
  · exact itself.irrefl

theorem reportStart_inOrder (sorted : tx.Sorted cfg) (ackSn : Int) :
    ControlState.InOrder cfg tx (tx.reportStart cfg ackSn) := by
  obtain ⟨passed, wait, kept, retx⟩ := tx.reportStart_lists cfg ackSn
  have follows : ControlState.Follows tx (tx.reportStart cfg ackSn) := by
    refine ⟨tx.reportStart_accounted cfg ackSn, ?_, ?_⟩
    · rw [wait]
      exact List.Sublist.refl _
    · intro segment member
      rw [retx] at member
      exact .inr member
  refine ⟨follows, ?_, ?_, ?_, ?_⟩
  · rw [wait]
    exact sorted.wait
  · rw [retx]
    exact sorted.retx
  · rw [kept]
    simp
  · rw [wait, retx]
    exact sorted.apart

end AmTx

theorem ControlState.InOrder.stopPoll {s : ControlState} (ordered : InOrder cfg tx s) :
    InOrder cfg tx { s with tx := { s.tx with tPollRetransmitStart := 0 } } :=
  { ordered with
    follows := ⟨ordered.follows.accounted.trans (.stopPoll s.tx), ordered.follows.wait, ordered.follows.retx⟩ }

namespace AmTx

theorem afterNacks_inOrder (sorted : tx.Sorted cfg) (status : StatusPdu) :
    ControlState.InOrder cfg tx (tx.afterNacks cfg status) := by
  apply ControlState.processNacks_good (fun _ s => ControlState.InOrder cfg tx s)
  · intro part parts s next ordered move
    exact ordered.move move
  · intro part parts s ordered _
    exact ordered
  · intro parts s ordered
    exact ordered.stopPoll
  · exact reportStart_inOrder sorted status.ackSn

def Cuts (cfg : AmConfig) (tx : AmTx) (status : StatusPdu) (r : SduSegment) : Prop :=
  ¬ tx.snCompareTx cfg r.sn status.ackSn < 0 ∧ tx.hits cfg r (status.parts cfg) = false ∧
    (∃ part ∈ status.parts cfg, part.overlaps r = false ∧ tx.isAfter cfg r part = false) ∧
    ∀ w ∈ tx.waitList, ¬ tx.Before cfg r w

end AmTx

namespace ControlState

variable {status : StatusPdu} {part : NackedPart} {parts : List NackedPart} {s next : ControlState}

structure Progress (cfg : AmConfig) (tx : AmTx) (status : StatusPdu) (parts : List NackedPart)
    (s : ControlState) : Prop where
  later : ∀ part ∈ parts, part ∈ status.parts cfg
  ordered : InOrder cfg tx s
  pending : Pending cfg tx (status.parts cfg) parts s

namespace Progress

theorem start (sorted : tx.Sorted cfg) (status : StatusPdu) :
    Progress cfg tx status (status.parts cfg) (tx.reportStart cfg status.ackSn) := by
  obtain ⟨_, wait, _, retx⟩ := tx.reportStart_lists cfg status.ackSn
  refine ⟨fun _ same => same, tx.reportStart_inOrder sorted status.ackSn, fun _ _ => rfl, ?_, ?_⟩
  · rw [retx]
    exact fun _ same => same
  · rw [wait]
    exact fun _ here => .inl here

theorem move (progress : Progress cfg tx status (part :: parts) s)
    (fits : ∀ part ∈ status.parts cfg, tx.snCompareTx cfg part.sn status.ackSn ≤ 0)
    (move : NackMove cfg status.ackSn part s next) : Progress cfg tx status (part :: parts) next where
  later := progress.later
  ordered := progress.ordered.move move
  pending := progress.pending.move progress.ordered
    (fits part (progress.later part mem_cons_self)) move

theorem stop (progress : Progress cfg tx status (part :: parts) s)
    (stuck : s.nackStep cfg status.ackSn part = none) : Progress cfg tx status parts s where
  later other member := progress.later other (mem_cons_of_mem part member)
  ordered := progress.ordered
  pending := progress.pending.stop progress.ordered stuck

theorem stopPoll (progress : Progress cfg tx status parts s) :
    Progress cfg tx status parts { s with tx := { s.tx with tPollRetransmitStart := 0 } } where
  later := progress.later
  ordered := progress.ordered.stopPoll
  pending := { progress.pending with }

theorem uncut (progress : Progress cfg tx status (part :: parts) s)
    (uncut : ∀ r ∈ tx.retransmitList, ¬ tx.Cuts cfg status r) {r : SduSegment} {rest : List SduSegment}
    (current : s.CurrentRetx cfg r rest) (behind : s.Behind cfg part r)
    (notAcked : ¬ tx.snCompareTx cfg r.sn status.ackSn < 0) : s.wait ≠ [] := by
  obtain ⟨later, ordered, pending⟩ := progress
  intro done
  have here : r ∈ s.retx := by simp [current.1]
  have notAfter := behind.2
  rw [ordered.follows.accounted.isAfter_eq] at notAfter
  apply uncut r (pending.old r here)
  refine ⟨notAcked, pending.missed ordered.follows (.inr here) behind,
    ⟨part, later part mem_cons_self, behind.1, notAfter⟩, ?_⟩
  intro w waiting after
  rcases pending.last w waiting with still | before
  · rw [done] at still
    cases still
  · exact after.asymm (before r (.inr here))

end Progress

end ControlState

namespace AmTx

theorem afterNacks_settled (sorted : tx.Sorted cfg) {status : StatusPdu}
    (fits : ∀ part ∈ status.parts cfg, tx.snCompareTx cfg part.sn status.ackSn ≤ 0)
    (uncut : ∀ r ∈ tx.retransmitList, ¬ tx.Cuts cfg status r) :
    ControlState.Pending cfg tx (status.parts cfg) [] (tx.afterNacks cfg status) ∧
      ControlState.Settled cfg tx status.ackSn (status.parts cfg) (tx.afterNacks cfg status) := by
  let good (parts : List NackedPart) (s : ControlState) : Prop :=
    ControlState.Progress cfg tx status parts s ∧ ControlState.Settled cfg tx status.ackSn (status.parts cfg) s
  suffices all : good [] (tx.afterNacks cfg status) from ⟨all.1.pending, all.2⟩
  apply ControlState.processNacks_good good
  · intro part parts s next before move
    obtain ⟨progress, settled⟩ := before
    refine ⟨progress.move fits move, settled.move progress.ordered progress.pending
      (fits part (progress.later part mem_cons_self)) ?_ move⟩
    exact fun r rest current behind notAcked => progress.uncut uncut current behind notAcked
  · intro part parts s before stuck
    exact ⟨before.1.stop stuck, before.2⟩
  · intro parts s before
    exact ⟨before.1.stopPoll, { before.2 with }⟩
  · obtain ⟨passed, wait, kept, retx⟩ := tx.reportStart_lists cfg status.ackSn
    refine ⟨.start sorted status, ⟨?_, ?_, ?_, ?_⟩⟩
    · rw [passed]
      simp
    · rw [kept]
      simp
    · rw [wait]
      exact fun _ here => .inl here
    · rw [retx]
      exact fun _ here => .inl here

end AmTx

theorem mem_dropWhile_acked {list : List SduSegment} (sorted : list.Pairwise (tx.Before cfg))
    (ackSn : Int) (t : SduSegment) :
    t ∈ list.dropWhile (fun segment => decide (tx.snCompareTx cfg segment.sn ackSn < 0)) ↔
      t ∈ list ∧ ¬ tx.snCompareTx cfg t.sn ackSn < 0 := by
  induction list with
  | nil => simp
  | cons head rest ih =>
    obtain ⟨first, later⟩ := pairwise_cons.mp sorted
    by_cases acked : tx.snCompareTx cfg head.sn ackSn < 0
    · rw [dropWhile_cons_of_pos (by simpa using acked), ih later, mem_cons]
      constructor
      · exact fun both => ⟨.inr both.1, both.2⟩
      · rintro ⟨here | there, notAcked⟩
        · rw [here] at notAcked
          exact absurd acked notAcked
        · exact ⟨there, notAcked⟩
    · rw [dropWhile_cons_of_neg (by simpa using acked)]
      constructor
      · intro member
        refine ⟨member, ?_⟩
        rcases mem_cons.mp member with here | there
        · rw [here]
          exact acked
        · have above := (first t there).distance_le
          unfold AmTx.snCompareTx AmTx.modulusTx at acked ⊢
          omega
      · exact fun both => both.1

namespace AmTx

variable {status : StatusPdu}

theorem processStatus_lists (cfg : AmConfig) (tx : AmTx) (status : StatusPdu) :
    (tx.processStatus cfg status).1.waitList = (tx.afterNacks cfg status).passed ++
        (tx.afterNacks cfg status).wait.dropWhile
          (fun segment => decide (tx.snCompareTx cfg segment.sn status.ackSn < 0)) ∧
      (tx.processStatus cfg status).1.retransmitList = (tx.afterNacks cfg status).kept ++
        (tx.afterNacks cfg status).retx.dropWhile
          (fun segment => decide (tx.snCompareTx cfg segment.sn status.ackSn < 0)) := by
  obtain ⟨left, _, result⟩ := tx.processStatus_result cfg status
  rw [result]
  exact ⟨rfl, rfl⟩

section After

variable (sorted : tx.Sorted cfg) (fits : ∀ part ∈ status.parts cfg, tx.snCompareTx cfg part.sn status.ackSn ≤ 0)
  (uncut : ∀ r ∈ tx.retransmitList, ¬ tx.Cuts cfg status r) (t : SduSegment)

include sorted fits uncut

theorem mem_waitList_after :
    t ∈ (tx.processStatus cfg status).1.waitList ↔ t ∈ tx.waitList ∧
      tx.hits cfg t (status.parts cfg) = false ∧ ¬ tx.snCompareTx cfg t.sn status.ackSn < 0 := by
  obtain ⟨pending, settled⟩ := afterNacks_settled sorted fits uncut
  have ordered := afterNacks_inOrder sorted status
  rw [(tx.processStatus_lists cfg status).1, mem_append, mem_dropWhile_acked ordered.waitSorted]
  constructor
  · rintro (passed | ⟨waiting, notAcked⟩)
    · exact ⟨ordered.follows.wait.subset (mem_append_left _ passed), settled.passed t passed⟩
    · exact ⟨ordered.follows.wait.subset (mem_append_right _ waiting), pending.open_ t (.inl waiting), notAcked⟩
  · rintro ⟨listed, missed, notAcked⟩
    rcases settled.wait t listed with waiting | passed | kept | ⟨_, acked⟩
    · exact .inr ⟨waiting, notAcked⟩
    · exact .inl passed
    · rcases settled.kept t kept with ⟨_, hit⟩ | ⟨retx, _⟩
      · cases hit.symm.trans missed
      · exact absurd retx (sorted.disjoint listed)
    · exact absurd acked notAcked

theorem mem_retransmitList_after :
    t ∈ (tx.processStatus cfg status).1.retransmitList ↔
      (t ∈ tx.waitList ∧ tx.hits cfg t (status.parts cfg) = true) ∨
      (t ∈ tx.retransmitList ∧ (tx.hits cfg t (status.parts cfg) = true ∨
        ¬ tx.snCompareTx cfg t.sn status.ackSn < 0)) := by
  obtain ⟨pending, settled⟩ := afterNacks_settled sorted fits uncut
  have ordered := afterNacks_inOrder sorted status
  have retxSorted := (pairwise_append.mp ordered.retxSorted).2.1
  rw [(tx.processStatus_lists cfg status).2, mem_append, mem_dropWhile_acked retxSorted]
  constructor
  · rintro (kept | ⟨listed, notAcked⟩)
    · exact settled.kept t kept
    · exact .inr ⟨pending.old t listed, .inr notAcked⟩
  · rintro (⟨waiting, hit⟩ | ⟨listed, stays⟩)
    · rcases settled.wait t waiting with still | passed | kept | ⟨missed, _⟩
      · have none := pending.open_ t (.inl still)
        cases hit.symm.trans none
      · have missed := (settled.passed t passed).1
        cases hit.symm.trans missed
      · exact .inl kept
      · cases hit.symm.trans missed
    · rcases settled.retx t listed with still | kept | ⟨missed, acked⟩
      · rcases stays with hit | notAcked
        · have none := pending.open_ t (.inr still)
          cases hit.symm.trans none
        · exact .inr ⟨still, notAcked⟩
      · exact .inl kept
      · rcases stays with hit | notAcked
        · cases hit.symm.trans missed
        · exact absurd acked notAcked

end After

end AmTx

namespace ControlState

variable {s next : ControlState} {part : NackedPart} {parts : List NackedPart} {ackSn : Int}
  {r : SduSegment}

def Doomed (cfg : AmConfig) (tx : AmTx) (r : SduSegment) (parts : List NackedPart) (s : ControlState) :
    Prop :=
  (r ∈ s.retx ∧ tx.hits cfg r parts = false ∧
      (∃ part ∈ parts, part.overlaps r = false ∧ tx.isAfter cfg r part = false) ∧
      ∀ w ∈ s.wait, ¬ tx.Before cfg r w) ∨
    (r ∉ s.kept ∧ r ∉ s.retx)

theorem Doomed.move (ordered : InOrder cfg tx s) (doomed : Doomed cfg tx r (part :: parts) s)
    (notWaiting : r ∉ tx.waitList) (notAcked : ¬ tx.snCompareTx cfg r.sn ackSn < 0)
    (move : NackMove cfg ackSn part s next) : Doomed cfg tx r (part :: parts) next := by
  have compare := ordered.follows.accounted.snCompareTx cfg
  have fromWait : ∀ {segment : SduSegment} {rest : List SduSegment}, s.CurrentWait cfg segment rest →
      r ≠ segment := by
    intro segment rest current same
    apply notWaiting
    apply ordered.follows.wait.subset
    simp [current.1, same]
  rcases doomed with ⟨listed, missed, behind, last⟩ | ⟨notKept, notListed⟩
  · cases move with
    | nackWait segment rest current _ | freeWait segment rest current _ _ | pass segment rest current _ _ =>
      exact .inl ⟨listed, missed, behind, fun w member => last w (by simp [current.1, member])⟩
    | passAll segment rest current _ _ => exact .inl ⟨listed, missed, behind, by simp⟩
    | nackRetx segment rest current hit =>
      rw [current.1] at listed
      rcases mem_cons.mp listed with here | there
      · rw [here, AmTx.hits, hit] at missed
        cases missed
      · exact .inl ⟨there, missed, behind, last⟩
    | freeRetx segment rest current _ acked =>
      rw [current.1] at listed
      rcases mem_cons.mp listed with here | there
      · rw [compare, ← here] at acked
        exact absurd acked notAcked
      · exact .inl ⟨there, missed, behind, last⟩
    | cutRetx segment rest current _ _ _ =>
      refine .inr ⟨?_, by simp⟩
      intro kept
      exact Before.irrefl r ((pairwise_append.mp ordered.retxSorted).2.2 r kept r listed)
    | keepRetx segment rest current _ _ more =>
      obtain ⟨_, behindWait⟩ := ordered.retx_least current
      rw [current.1] at listed
      rcases mem_cons.mp listed with here | there
      · obtain ⟨w, waiting⟩ := exists_mem_of_ne_nil _ more
        rw [← here] at behindWait
        exact absurd (behindWait w waiting) (last w waiting)
      · exact .inl ⟨there, missed, behind, last⟩
  · right
    cases move with
    | nackWait segment rest current _ => exact ⟨by simp [notKept, fromWait current], notListed⟩
    | freeWait segment rest current _ _ | passAll segment rest current _ _ | pass segment rest current _ _ =>
      exact ⟨notKept, notListed⟩
    | nackRetx segment rest current _ | keepRetx segment rest current _ _ _ =>
      rw [current.1, mem_cons, not_or] at notListed
      exact ⟨by simp [notKept, notListed.1], notListed.2⟩
    | freeRetx segment rest current _ _ =>
      rw [current.1, mem_cons, not_or] at notListed
      exact ⟨notKept, notListed.2⟩
    | cutRetx segment rest current _ _ _ => exact ⟨notKept, by simp⟩

theorem Doomed.stop (ordered : InOrder cfg tx s) (doomed : Doomed cfg tx r (part :: parts) s)
    (stuck : s.nackStep cfg ackSn part = none) : Doomed cfg tx r parts s := by
  rcases doomed with ⟨listed, missed, ⟨other, member, behind⟩, last⟩ | gone
  · obtain ⟨notHit, after⟩ := ordered.stopped stuck (.inr listed)
    rw [AmTx.hits, notHit, after] at missed
    refine .inl ⟨listed, missed, ⟨other, ?_, behind⟩, last⟩
    rcases mem_cons.mp member with here | there
    · rw [here, after] at behind
      cases behind.2
    · exact there
  · exact .inr gone

end ControlState

theorem AmTx.Cuts.lost (sorted : tx.Sorted cfg) {status : StatusPdu} {r : SduSegment}
    (listed : r ∈ tx.retransmitList) (cuts : tx.Cuts cfg status r) :
    r ∉ (tx.processStatus cfg status).1.retransmitList := by
  obtain ⟨notAcked, missed, behind, last⟩ := cuts
  have notWaiting : r ∉ tx.waitList := fun waiting => sorted.disjoint waiting listed
  let good (parts : List NackedPart) (s : ControlState) : Prop :=
    ControlState.InOrder cfg tx s ∧ ControlState.Doomed cfg tx r parts s
  have reached : good [] (tx.afterNacks cfg status) := by
    apply ControlState.processNacks_good good
    · intro part parts s next before move
      exact ⟨before.1.move move, before.2.move before.1 notWaiting notAcked move⟩
    · intro part parts s before stuck
      exact ⟨before.1, before.2.stop before.1 stuck⟩
    · intro parts s before
      exact ⟨before.1.stopPoll, before.2⟩
    · obtain ⟨_, wait, _, retx⟩ := tx.reportStart_lists cfg status.ackSn
      refine ⟨reportStart_inOrder sorted status.ackSn, .inl ⟨?_, missed, behind, ?_⟩⟩
      · rw [retx]
        exact listed
      · rw [wait]
        exact last
  rw [(tx.processStatus_lists cfg status).2, mem_append]
  rcases reached.2 with ⟨_, _, ⟨_, none, _⟩, _⟩ | ⟨notKept, notListed⟩
  · cases none
  · rintro (kept | dropped)
    · exact notKept kept
    · exact notListed ((dropWhile_sublist _).subset dropped)

end OranSlice.Rlc
