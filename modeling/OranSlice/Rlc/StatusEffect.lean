import OranSlice.Rlc.AmSnSpace
import OranSlice.Rlc.StatusRejection
import OranSlice.Rlc.StatusWindow
import OranSlice.Rlc.TxLedger

/-! The effect of a valid status report, segment by segment. -/

namespace OranSlice.Rlc

open BitCodec Window Ordered ControlState List

variable {cfg : AmConfig} {tx : AmTx} {ackSn : Int}

section WaitEnd

/-! The pointer to the last segment of the wait list: while a report is processed, the segment before
the last one is noted when the last one is taken off. -/

/-- `end_wait_list`: not set, or the segment that is the last one now (`none` for the head). -/
abbrev EndMark := Option (Option SduSegment)

def ControlState.takesLast (cfg : AmConfig) (ackSn : Int) (part : NackedPart) (s : ControlState) : Bool :=
  match s.wait with
  | [last] =>
    s.retx.head?.all (fun other => s.tx.waitFirst cfg last other) && (part.overlaps last ||
        (!s.tx.isAfter cfg last part && decide (s.tx.snCompareTx cfg last.sn ackSn < 0)))
  | _ => false

def ControlState.markStep (cfg : AmConfig) (ackSn : Int) (part : NackedPart) (s : ControlState)
    (mark : EndMark) : EndMark :=
  if s.takesLast cfg ackSn part then some s.passed.getLast? else mark

def ControlState.markPart (cfg : AmConfig) (ackSn : Int) (part : NackedPart) :
    Nat → ControlState → EndMark → EndMark
  | 0, _, mark => mark
  | fuel + 1, s, mark =>
    match s.nackStep cfg ackSn part with
    | none => mark
    | some next => next.markPart cfg ackSn part fuel (s.markStep cfg ackSn part mark)

def ControlState.markParts (cfg : AmConfig) (ackSn : Int) :
    List NackedPart → ControlState → EndMark → EndMark
  | [], _, mark => mark
  | part :: parts, s, mark =>
    markParts cfg ackSn parts (s.processPart cfg ackSn part (s.wait.length + s.retx.length))
      (s.markPart cfg ackSn part (s.wait.length + s.retx.length) mark)

def ControlState.markNacks (cfg : AmConfig) (ackSn : Int) :
    List Nack → ControlState → EndMark → EndMark
  | [], _, mark => mark
  | nack :: nacks, s, mark =>
    markNacks cfg ackSn nacks (s.processNack cfg ackSn nack) (s.markParts cfg ackSn (nack.expand cfg) mark)

def AmTx.markAcked (cfg : AmConfig) (tx : AmTx) (ackSn : Int) (before : Option SduSegment) :
    List SduSegment → EndMark → EndMark
  | [], mark => mark
  | segment :: rest, mark =>
    if tx.snCompareTx cfg segment.sn ackSn < 0 then
      tx.markAcked cfg ackSn before rest (if rest = [] then some before else mark)
    else mark

def AmTx.waitEnd (cfg : AmConfig) (tx : AmTx) (status : StatusPdu) : Option SduSegment :=
  let s := tx.afterNacks cfg status
  let mark := markNacks cfg status.ackSn status.nacks (tx.reportStart cfg status.ackSn) none
  (tx.markAcked cfg status.ackSn s.passed.getLast? s.wait mark).getD tx.waitList.getLast?

def Marks (tx : AmTx) (s : ControlState) (mark : EndMark) : Prop :=
  (mark = none ∧ (s.passed ++ s.wait).getLast? = tx.waitList.getLast?) ∨
    (mark = some s.passed.getLast? ∧ s.wait = [])

variable {s next : ControlState} {part : NackedPart} {mark : EndMark}

theorem Marks.take {segment : SduSegment} {rest : List SduSegment} (marks : Marks tx s mark)
    (current : s.wait = segment :: rest) (passed : next.passed = s.passed) (wait : next.wait = rest)
    (noted : s.takesLast cfg ackSn part = decide (rest = [])) :
    Marks tx next (s.markStep cfg ackSn part mark) := by
  rw [markStep, noted]
  rcases marks with ⟨unset, last⟩ | ⟨_, empty⟩
  · rw [current] at last
    by_cases isLast : rest = []
    · rw [if_pos (by simpa using isLast)]
      exact .inr ⟨by rw [passed], by rw [wait, isLast]⟩
    rw [if_neg (by simpa using isLast)]
    refine .inl ⟨unset, ?_⟩
    rw [wait, ← last, getLast?_append_of_ne_nil _ isLast,
      getLast?_append_of_ne_nil _ (cons_ne_nil segment rest), getLast?_cons_of_ne_nil isLast]
  · cases current.symm.trans empty

theorem Marks.keep (marks : Marks tx s mark) (lists : next.passed ++ next.wait = s.passed ++ s.wait)
    (done : s.wait = [] → next.wait = [] ∧ next.passed = s.passed)
    (noted : s.takesLast cfg ackSn part = false) : Marks tx next (s.markStep cfg ackSn part mark) := by
  rw [markStep, noted, if_neg Bool.false_ne_true]
  rcases marks with ⟨unset, last⟩ | ⟨set, empty⟩
  · exact .inl ⟨unset, by rw [lists, last]⟩
  · obtain ⟨stillEmpty, same⟩ := done empty
    exact .inr ⟨by rw [set, same], stillEmpty⟩

theorem Marks.move (marks : Marks tx s mark) (move : ControlState.NackMove cfg ackSn part s next) :
    Marks tx next (s.markStep cfg ackSn part mark) := by
  have looked : ∀ {segment : SduSegment} {rest : List SduSegment}, s.CurrentWait cfg segment rest →
      s.retx.head?.all (s.tx.waitFirst cfg segment) = true := by
    intro segment rest current
    rw [Option.all_eq_true]
    exact current.2
  have takes : ∀ {segment : SduSegment} {rest : List SduSegment}, s.wait = segment :: rest →
      s.takesLast cfg ackSn part = (decide (rest = []) &&
        (s.retx.head?.all (s.tx.waitFirst cfg segment) &&
          (part.overlaps segment || (!s.tx.isAfter cfg segment part &&
            decide (s.tx.snCompareTx cfg segment.sn ackSn < 0))))) := by
    intro segment rest current
    cases rest with
    | nil | cons second others => simp [takesLast, current]
  have stays : ∀ {segment : SduSegment} {rest : List SduSegment}, s.CurrentRetx cfg segment rest →
      s.takesLast cfg ackSn part = false := by
    intro segment rest current
    cases list : s.wait with
    | nil => simp [takesLast, list]
    | cons head others =>
      have second := current.2 head (by simp [list])
      rw [takes list, current.1]
      simp [second]
  cases move with
  | nackWait segment rest current hit =>
    refine marks.take current.1 rfl rfl ?_
    rw [takes current.1, looked current, hit]
    simp
  | freeWait segment rest current behind acked =>
    refine marks.take current.1 rfl rfl ?_
    rw [takes current.1, looked current, behind.2]
    simp [acked]
  | passAll segment rest current behind beyond =>
    refine marks.keep ?_ ?_ ?_
    · simp [current.1]
    · simp [current.1]
    · rw [takes current.1, behind.1]
      simp [show ¬ s.tx.snCompareTx cfg segment.sn ackSn < 0 by omega]
  | pass segment rest current behind border =>
    refine marks.keep ?_ ?_ ?_
    · simp [current.1]
    · simp [current.1]
    · rw [takes current.1, behind.1]
      simp [border]
  | nackRetx segment rest current _ | freeRetx segment rest current _ _ | cutRetx segment rest current _ _ _
  | keepRetx segment rest current _ _ _ =>
    exact marks.keep rfl (fun empty => ⟨empty, rfl⟩) (stays current)

theorem Marks.onePart (fuel : Nat) {s : ControlState} {mark : EndMark} (marks : Marks tx s mark) :
    Marks tx (s.processPart cfg ackSn part fuel) (s.markPart cfg ackSn part fuel mark) := by
  induction fuel generalizing s mark with
  | zero => exact marks
  | succ fuel ih =>
    rw [processPart, markPart]
    cases taken : s.nackStep cfg ackSn part with
    | none => exact marks
    | some next => exact ih (marks.move (nackStep_move taken))

theorem Marks.parts (parts : List NackedPart) {s : ControlState} {mark : EndMark} (marks : Marks tx s mark) :
    Marks tx (parts.foldl (fun s part => s.processPart cfg ackSn part (s.wait.length + s.retx.length)) s)
      (s.markParts cfg ackSn parts mark) := by
  induction parts generalizing s mark with
  | nil => exact marks
  | cons part parts ih => exact ih (marks.onePart _)

theorem Marks.nacks (nacks : List Nack) {s : ControlState} {mark : EndMark} (marks : Marks tx s mark) :
    Marks tx (nacks.foldl (processNack cfg ackSn) s)
      (s.markNacks cfg ackSn nacks mark) := by
  induction nacks generalizing s mark with
  | nil => exact marks
  | cons nack nacks ih =>
    apply ih
    have after := @Marks.parts cfg tx ackSn (nack.expand cfg) s mark marks
    unfold processNack
    dsimp only
    split
    · exact after
    · exact after

theorem Marks.acked {passed wait : List SduSegment} (kept : List SduSegment) {mark : EndMark}
    (marks : (mark = none ∧ (passed ++ wait).getLast? = kept.getLast?) ∨
      (mark = some passed.getLast? ∧ wait = [])) :
    (tx.markAcked cfg ackSn passed.getLast? wait mark).getD kept.getLast? =
      (passed ++ wait.dropWhile (fun segment => decide (tx.snCompareTx cfg segment.sn ackSn < 0))).getLast? := by
  induction wait generalizing mark with
  | nil =>
    rcases marks with ⟨rfl, last⟩ | ⟨rfl, _⟩
    · exact last.symm
    · simp [AmTx.markAcked]
  | cons segment rest ih =>
    rcases marks with ⟨rfl, last⟩ | ⟨_, none⟩
    · rw [AmTx.markAcked]
      by_cases acked : tx.snCompareTx cfg segment.sn ackSn < 0
      · rw [if_pos acked, dropWhile_cons_of_pos (by simpa using acked)]
        apply ih
        by_cases isLast : rest = []
        · exact .inr ⟨if_pos isLast, isLast⟩
        refine .inl ⟨if_neg isLast, ?_⟩
        rw [← last, getLast?_append_of_ne_nil _ isLast, getLast?_append_of_ne_nil _ (cons_ne_nil segment rest),
          getLast?_cons_of_ne_nil isLast]
      · rw [if_neg acked, dropWhile_cons_of_neg (by simpa using acked)]
        exact last.symm
    · cases none

theorem AmTx.waitEnd_eq (cfg : AmConfig) (tx : AmTx) (status : StatusPdu) :
    tx.waitEnd cfg status = (tx.processStatus cfg status).1.waitList.getLast? := by
  have start : Marks tx (tx.reportStart cfg status.ackSn) none := by
    obtain ⟨passed, wait, _, _⟩ := tx.reportStart_lists cfg status.ackSn
    exact .inl ⟨rfl, by rw [passed, wait, nil_append]⟩
  rw [(tx.processStatus_lists cfg status).1]
  exact Marks.acked tx.waitList (start.nacks status.nacks)

end WaitEnd

def StatusPdu.nacked (cfg : AmConfig) (status : StatusPdu) (segment : SduSegment) : Bool :=
  (status.parts cfg).any (fun part => part.overlaps segment)

theorem isAfter_of_increases {part other : NackedPart} {t : SduSegment}
    (base : Within cfg.snModulus tx.txNextAck) (partSpace : Within cfg.snModulus part.sn)
    (otherSpace : Within cfg.snModulus other.sn) (increases : tx.Increases cfg part other)
    (missed : part.overlaps t = false) (overlaps : other.overlaps t = true) : tx.isAfter cfg t part = true := by
  simp only [NackedPart.overlaps, Bool.and_eq_true, beq_iff_eq] at overlaps
  obtain ⟨sameSn, shared⟩ := overlaps
  unfold AmTx.isAfter
  simp only [Bool.or_eq_true, decide_eq_true_eq, Bool.and_eq_true]
  rcases increases with above | ⟨level, start⟩
  · rw [sameSn]
    exact .inl above
  have equal : other.sn = part.sn := by
    apply (distance_inj base otherSpace partSpace).mp
    unfold AmTx.snCompareTx AmTx.modulusTx at level
    omega
  refine .inr ⟨sameSn ▸ level, ?_⟩
  -- otherwise the earlier NACK starts within the segment as well
  by_contra inside
  have within_ : ¬ part.soStart < (t.so : Int) := by omega
  have behind : ¬ other.soStart < (t.so : Int) := by omega
  simp only [NackedPart.overlaps, sameSn, equal, BEq.rfl, Bool.true_and, soOverlap, if_neg within_,
    Bool.or_eq_false_iff, beq_eq_false_iff_ne, decide_eq_false_iff_not] at missed
  simp only [soOverlap, if_neg behind, Bool.or_eq_true, beq_iff_eq, decide_eq_true_eq] at shared
  omega

theorem AmTx.hits_eq (base : Within cfg.snModulus tx.txNextAck) {parts : List NackedPart}
    (space : ∀ part ∈ parts, Within cfg.snModulus part.sn) (increasing : parts.Pairwise (tx.Increases cfg))
    (t : SduSegment) : tx.hits cfg t parts = parts.any (fun part => part.overlaps t) := by
  induction parts with
  | nil => rfl
  | cons part parts ih =>
    obtain ⟨first, later⟩ := pairwise_cons.mp increasing
    have rest := ih (forall_mem_cons.mp space).2 later
    rw [AmTx.hits, any_cons, rest]
    cases hit : part.overlaps t with
    | true => rfl
    | false =>
      cases found : parts.any (fun part => part.overlaps t) with
      | false => rw [Bool.and_false]
      | true =>
        obtain ⟨other, member, overlaps⟩ := any_eq_true.mp found
        rw [Bool.and_true]
        exact isAfter_of_increases base (space part mem_cons_self)
          (space other (mem_cons_of_mem part member)) (first other member) hit overlaps

theorem nodup_of_before {m base : Int} {list : List SduSegment} (sorted : list.Pairwise (Before m base)) :
    list.Nodup := by
  apply sorted.imp
  intro a b before same
  rw [same] at before
  exact Before.irrefl b before

theorem AmTx.Sorted.advance (sorted : tx.Sorted cfg) (space : tx.InSpace cfg.snModulus)
    (ackSpace : Within cfg.snModulus ackSn) :
    AmTx.Sorted cfg { tx with txNextAck := tx.nextAck cfg ackSn } := by
  have fits : ∀ t ∈ tx.waitList ++ tx.retransmitList, Within cfg.snModulus t.sn := by
    exact forall_mem_append.mpr ⟨space.waitList, space.retransmitList⟩
  obtain ⟨_, _, above⟩ := AmTx.nextAck_le ackSn sorted.wait sorted.retx
  have within_ : Within cfg.snModulus (tx.nextAck cfg ackSn) :=
    AmTx.nextAck_within space.next space.waitList space.retransmitList ackSpace
  have rebase : ∀ a ∈ tx.waitList ++ tx.retransmitList, ∀ b ∈ tx.waitList ++ tx.retransmitList,
      tx.Before cfg a b → Rlc.Before cfg.snModulus (tx.nextAck cfg ackSn) a b := by
    intro a inA b inB before
    exact before_rebase space.nextAck within_ (fits a inA) (fits b inB) (above a inA) (above b inB) before
  refine ⟨?_, ?_, ?_⟩
  · exact sorted.wait.imp_of_mem (fun inA inB =>
      rebase _ (mem_append_left _ inA) _ (mem_append_left _ inB))
  · exact sorted.retx.imp_of_mem (fun inA inB =>
      rebase _ (mem_append_right _ inA) _ (mem_append_right _ inB))
  · refine sorted.apart.imp_of_mem (fun inA inB compared => ?_)
    rcases compared with before | after
    · exact .inl (rebase _ inA _ inB before)
    · exact .inr (rebase _ inB _ inA after)

theorem AmTx.processStatus_sorted (space : tx.InSpace cfg.snModulus) (sorted : tx.Sorted cfg)
    {status : StatusPdu} (ackSpace : Within cfg.snModulus status.ackSn) :
    (tx.processStatus cfg status).1.Sorted cfg := by
  have ordered := tx.afterNacks_inOrder sorted status
  obtain ⟨left, same, result⟩ := tx.processStatus_result cfg status
  have kept := space.accounted same
  obtain ⟨counts, txSize, retxSize, start, rfl⟩ := same
  rw [result]
  obtain ⟨waits, lists, freed⟩ := ordered.freed sorted
    (fun segment => decide (tx.snCompareTx cfg segment.sn status.ackSn < 0))
  refine AmTx.Sorted.advance { freed with } { kept with waitList := ?_, retransmitList := ?_ } ackSpace
  · exact fun t waiting => space.waitList t (waits.subset waiting)
  · intro t listed
    rcases lists t listed with old | old
    · exact space.waitList t old
    · exact space.retransmitList t old

theorem eq_filter_of_sublist {α : Type*} {sub list : List α} {p : α → Bool} (nodup : list.Nodup)
    (sublist : sub.Sublist list) (members : ∀ a, a ∈ sub ↔ a ∈ list ∧ p a = true) : sub = list.filter p := by
  have inside : sub.Sublist (list.filter p) := by
    have all : sub.filter p = sub := filter_eq_self.mpr (fun a member => ((members a).mp member).2)
    rw [← all]
    exact sublist.filter p
  have perm : sub.Perm (list.filter p) := by
    rw [perm_ext_iff_of_nodup (nodup.sublist sublist) (nodup.filter p)]
    intro a
    rw [members a, mem_filter]
  exact inside.eq_of_length perm.length_eq

/-- What a report is for. A segment that a NACK concerns is to be retransmitted, another one is freed if
it is before ACK_SN, and else stays. The lists stay in order, the end pointer of the wait list is right,
and SDUs without a segment left are reported. -/
structure AmTx.Effect (cfg : AmConfig) (tx : AmTx) (status : StatusPdu) (result : AmTx × List AmEvent) :
    Prop where
  waitList : result.1.waitList = tx.waitList.filter (fun t =>
    !status.nacked cfg t && !decide (tx.snCompareTx cfg t.sn status.ackSn < 0))
  retransmitList : result.1.retransmitList.Perm (tx.waitList.filter (status.nacked cfg) ++
    tx.retransmitList.filter (fun t =>
      status.nacked cfg t || !decide (tx.snCompareTx cfg t.sn status.ackSn < 0)))
  sorted : result.1.Sorted cfg
  waitEnd : tx.waitEnd cfg status = result.1.waitList.getLast?
  delivered : Delivered tx.segments result.1.segments result.2

/-- The code loses the segment: it has the SN of ACK_SN, no NACK concerns it, a NACK for that SN starts
behind it, and nothing in the wait list does. -/
def AmTx.CutOff (cfg : AmConfig) (tx : AmTx) (status : StatusPdu) (r : SduSegment) : Prop :=
  r.sn = status.ackSn ∧ status.nacked cfg r = false ∧
    (∃ part ∈ status.parts cfg, part.sn = status.ackSn ∧ (r.so + r.size : Nat) ≤ part.soStart) ∧
    ∀ w ∈ tx.waitList, ¬ tx.Before cfg r w

theorem StatusPdu.parts_within (positive : 0 < cfg.snModulus) (status : StatusPdu) :
    ∀ part ∈ status.parts cfg, Within cfg.snModulus part.sn := by
  intro part member
  obtain ⟨nack, _, inNack⟩ := mem_flatMap.mp member
  obtain ⟨i, _, rfl⟩ := mem_map.mp inNack
  exact within_mod positive _

theorem starts_behind {part : NackedPart} {r : SduSegment} (base : Within cfg.snModulus tx.txNextAck)
    (partSpace : Within cfg.snModulus part.sn) (space : Within cfg.snModulus r.sn)
    (ackSpace : Within cfg.snModulus ackSn) (fits : tx.snCompareTx cfg part.sn ackSn ≤ 0)
    (notAcked : ¬ tx.snCompareTx cfg r.sn ackSn < 0) (missed : part.overlaps r = false)
    (notAfter : tx.isAfter cfg r part = false) :
    r.sn = ackSn ∧ part.sn = ackSn ∧ (r.so + r.size : Nat) ≤ part.soStart := by
  unfold AmTx.isAfter at notAfter
  simp only [Bool.or_eq_false_iff, decide_eq_false_iff_not, Bool.and_eq_false_imp,
    decide_eq_true_eq] at notAfter
  obtain ⟨notAbove, start⟩ := notAfter
  unfold AmTx.snCompareTx AmTx.modulusTx at fits notAcked notAbove start
  have atAck : r.sn = ackSn := (distance_inj base space ackSpace).mp (by omega)
  have partAtAck : part.sn = ackSn := (distance_inj base partSpace ackSpace).mp (by omega)
  have from_ : ¬ (part.soStart < (r.so : Int)) := by
    omega
  simp only [NackedPart.overlaps, atAck, partAtAck, BEq.rfl, Bool.true_and, soOverlap, if_neg from_,
    Bool.or_eq_false_iff, decide_eq_false_iff_not] at missed
  omega

theorem AmTx.cuts_iff (base : Within cfg.snModulus tx.txNextAck) (positive : 0 < cfg.snModulus)
    {status : StatusPdu} (ackSpace : Within cfg.snModulus status.ackSn)
    (fits : ∀ part ∈ status.parts cfg, tx.snCompareTx cfg part.sn status.ackSn ≤ 0)
    (increasing : tx.Increasing cfg status) {r : SduSegment} (space : Within cfg.snModulus r.sn) :
    tx.Cuts cfg status r ↔ tx.CutOff cfg status r := by
  have partSpace := StatusPdu.parts_within positive status
  unfold AmTx.Cuts AmTx.CutOff
  rw [tx.hits_eq base partSpace increasing]
  constructor
  · rintro ⟨notAcked, missed, ⟨part, member, missedPart, notAfter⟩, last⟩
    obtain ⟨atAck, partAtAck, behind⟩ := starts_behind base (partSpace part member) space ackSpace
      (fits part member) notAcked missedPart notAfter
    exact ⟨atAck, missed, ⟨part, member, partAtAck, behind⟩, last⟩
  · rintro ⟨atAck, missed, ⟨part, member, partAtAck, behind⟩, last⟩
    refine ⟨?_, missed, ⟨part, member, any_eq_false.mp missed part member |> eq_false_of_ne_true, ?_⟩, last⟩
    · unfold AmTx.snCompareTx
      rw [atAck]
      omega
    · unfold AmTx.isAfter AmTx.snCompareTx
      rw [atAck, partAtAck]
      simp only [Bool.or_eq_false_iff, decide_eq_false_iff_not, Bool.and_eq_false_imp]
      exact ⟨by omega, fun _ => by push_cast at behind; omega⟩

section Effect

variable {status : StatusPdu}

section

variable (sorted : tx.Sorted cfg)
  (fits : ∀ part ∈ status.parts cfg, tx.snCompareTx cfg part.sn status.ackSn ≤ 0)

include sorted fits

theorem AmTx.processStatus_lists_uncut (hits : ∀ t, tx.hits cfg t (status.parts cfg) = status.nacked cfg t)
    (uncut : ∀ r ∈ tx.retransmitList, ¬ tx.Cuts cfg status r) (after : (tx.processStatus cfg status).1.Sorted cfg) :
    (tx.processStatus cfg status).1.waitList = tx.waitList.filter (fun t =>
        !status.nacked cfg t && !decide (tx.snCompareTx cfg t.sn status.ackSn < 0)) ∧
      (tx.processStatus cfg status).1.retransmitList.Perm (tx.waitList.filter (status.nacked cfg) ++
        tx.retransmitList.filter (fun t =>
          status.nacked cfg t || !decide (tx.snCompareTx cfg t.sn status.ackSn < 0))) := by
  have waitNodup := nodup_of_before sorted.wait
  have retxNodup := nodup_of_before sorted.retx
  constructor
  · apply eq_filter_of_sublist waitNodup
    · rw [(tx.processStatus_lists cfg status).1]
      exact ((dropWhile_sublist _).append_left _).trans (tx.afterNacks_follows cfg status).wait
    · intro t
      rw [mem_waitList_after sorted fits uncut, hits]
      simp
  · have resultNodup := nodup_of_before after.retx
    have bothNodup : (tx.waitList.filter (status.nacked cfg) ++ tx.retransmitList.filter (fun t =>
        status.nacked cfg t || !decide (tx.snCompareTx cfg t.sn status.ackSn < 0))).Nodup := by
      rw [nodup_append]
      refine ⟨waitNodup.filter _, retxNodup.filter _, ?_⟩
      intro a waiting b listed same
      subst same
      exact sorted.disjoint (mem_filter.mp waiting).1 (mem_filter.mp listed).1
    rw [perm_ext_iff_of_nodup resultNodup bothNodup]
    intro t
    rw [mem_retransmitList_after sorted fits uncut, hits]
    simp

theorem AmTx.settles_of_uncut (uncut : ∀ r ∈ tx.retransmitList, ¬ tx.Cuts cfg status r)
    (counted : tx.Counted tx.segments) :
    tx.Settles cfg (tx.processStatus cfg status) := by
  apply AmTx.processStatus_settles (ControlState.Progress cfg tx status) _ _ _ _ (.start sorted status) counted
  · intro part parts s next progress move
    exact progress.move fits move
  · intro part parts s progress stuck
    exact progress.stop stuck
  · intro parts s progress
    exact progress.stopPoll
  · intro part parts s progress r rest current behind notAcked
    rw [progress.ordered.follows.accounted.snCompareTx cfg] at notAcked
    exact progress.uncut uncut current behind notAcked

end

/-- A valid report has its effect exactly if it does not cut the retransmit list off. -/
theorem report_effect_iff (sound : cfg.Sound) (space : tx.InSpace cfg.snModulus) (sorted : tx.Sorted cfg)
    (counted : tx.Counted tx.segments) {buffer : List Byte} (read : decodeStatusPdu cfg buffer = some status)
    (ackFits : tx.snCompareTx cfg status.ackSn tx.txNext ≤ 0)
    (nacksFit : ∀ part ∈ status.parts cfg, tx.snCompareTx cfg part.sn status.ackSn ≤ 0)
    (increasing : tx.Increasing cfg status) :
    tx.Effect cfg status (tx.processControlPdu cfg buffer) ↔
      ∀ r ∈ tx.retransmitList, ¬ tx.CutOff cfg status r := by
  have admitted : tx.admits cfg status = true := (tx.admits_iff cfg status).mpr ⟨ackFits, nacksFit⟩
  have processed : tx.processControlPdu cfg buffer = tx.processStatus cfg status := by
    rw [AmTx.processControlPdu, read]
    exact if_pos admitted
  have positive : 0 < cfg.snModulus := by
    have large := sound.modulus_large
    omega
  have ackSpace : Within cfg.snModulus status.ackSn := by
    rw [sound.modulus]
    exact (decodeStatusPdu_spec read).1
  have cuts : ∀ r ∈ tx.retransmitList, (tx.Cuts cfg status r ↔ tx.CutOff cfg status r) :=
    fun r listed => tx.cuts_iff space.nextAck positive ackSpace nacksFit increasing
      (space.retransmitList r listed)
  rw [processed]
  constructor
  · intro effect r listed cutOff
    have isCut := (cuts r listed).mpr cutOff
    apply isCut.lost sorted listed
    apply effect.retransmitList.mem_iff.mpr
    apply mem_append_right
    rw [mem_filter]
    exact ⟨listed, by simp [isCut.1]⟩
  · intro spared
    have uncut : ∀ r ∈ tx.retransmitList, ¬ tx.Cuts cfg status r :=
      fun r listed isCut => spared r listed ((cuts r listed).mp isCut)
    have after := tx.processStatus_sorted space sorted ackSpace
    have hits := tx.hits_eq space.nextAck (StatusPdu.parts_within positive status) increasing
    obtain ⟨wait, retx⟩ := tx.processStatus_lists_uncut sorted nacksFit hits uncut after
    have settles := tx.settles_of_uncut sorted nacksFit uncut counted
    exact ⟨wait, retx, after, tx.waitEnd_eq cfg status, settles.delivered⟩

end Effect

section Evaluation

instance (cfg : AmConfig) (tx : AmTx) (s t : SduSegment) : Decidable (tx.Before cfg s t) :=
  inferInstanceAs (Decidable (_ ∨ _))

instance (cfg : AmConfig) (tx : AmTx) (s t : SduSegment) : Decidable (Comparable (tx.Before cfg) s t) :=
  inferInstanceAs (Decidable (_ ∨ _))

instance (cfg : AmConfig) (tx : AmTx) : Decidable (tx.Sorted cfg) :=
  decidable_of_iff (tx.waitList.Pairwise (tx.Before cfg) ∧ tx.retransmitList.Pairwise (tx.Before cfg) ∧
      (tx.waitList ++ tx.retransmitList).Pairwise (Comparable (tx.Before cfg)))
    ⟨fun all => ⟨all.1, all.2.1, all.2.2⟩, fun sorted => ⟨sorted.wait, sorted.retx, sorted.apart⟩⟩

instance (tx : AmTx) (segments : List SduSegment) : Decidable (tx.Counted segments) :=
  decidable_of_iff ((∀ a ∈ sdus segments, ∀ b ∈ sdus segments, a.ident = b.ident → a = b) ∧
      ∀ a ∈ sdus segments, tx.remaining a.ident = (sdus segments).count a)
    ⟨fun both => ⟨both.1, both.2⟩, fun counted => ⟨counted.shared, counted.counted⟩⟩

instance (cfg : AmConfig) (tx : AmTx) (status : StatusPdu) (r : SduSegment) :
    Decidable (tx.CutOff cfg status r) := inferInstanceAs (Decidable (_ ∧ _ ∧ _ ∧ _))

instance (m : Int) (list : List SduSegment) : Decidable (SegmentsWithin m list) :=
  inferInstanceAs (Decidable (∀ segment ∈ list, Within m segment.sn))

instance (m : Int) (tx : AmTx) : Decidable (tx.InSpace m) :=
  decidable_of_iff (Within m tx.txNext ∧ Within m tx.txNextAck ∧ Within m tx.pollSn ∧
      (∀ segment ∈ tx.txList, segment.sn = -1 ∨ Within m segment.sn) ∧
      SegmentsWithin m tx.waitList ∧ SegmentsWithin m tx.retransmitList)
    ⟨fun ⟨next, nextAck, pollSn, txList, wait, retx⟩ => ⟨next, nextAck, pollSn, txList, wait, retx⟩,
      fun space => ⟨space.next, space.nextAck, space.pollSn, space.txList, space.waitList,
        space.retransmitList⟩⟩

end Evaluation

def twoSent : AmTx where
  txNext := 2
  waitList := [⟨⟨0, 0, [7]⟩, 0, 0, 1, true, true⟩, ⟨⟨1, 1, [8]⟩, 1, 0, 1, true, true⟩]
  txSize := 2
  created := 2

/-- A report of both with a NACK of the first one. -/
theorem report_effect_two_sent :
    AmTx.Effect shortSnConfig twoSent ⟨2, [⟨0, 0, -1, 1⟩]⟩
      (twoSent.processControlPdu shortSnConfig [0, 2, 0x80, 0, 0]) :=
  (report_effect_iff shortSnConfig_sound (by decide) (by decide) (by decide) (by decide) (by decide)
    (by decide) (by decide)).mpr (by simp [twoSent])

def cuttingReport : List Byte := [0, 0, 0x80, 0, 0x04, 0, 0x14, 0, 0x27]

def nackedOps : List DataOp :=
  [.recvSdu (replicate 40 7) 0, .generatePdu 22, .generatePdu 100, .recvPdu [0, 1, 0x80, 0, 0]]

/-- A second report, that confirms the first segment of an SDU whose segments are both to be
retransmitted, empties the retransmit list. -/
theorem report_loses_segments :
    ∃ start entity, newNrRlcEntityAm 100000 100000 defaultAmParams 12 = some start ∧
      Runs.run AmEntity.dataStep start nackedOps = some entity ∧
      entity.tx.InSpace entity.cfg.snModulus ∧ entity.tx.Sorted entity.cfg ∧
      entity.tx.Counted entity.tx.segments ∧ ∃ status, decodeStatusPdu entity.cfg cuttingReport = some status ∧
        entity.tx.admits entity.cfg status = true ∧ entity.tx.Increasing entity.cfg status ∧
        ¬ entity.tx.Effect entity.cfg status (entity.tx.processControlPdu entity.cfg cuttingReport) := by
  refine Runs.reached_of_check (fun entity =>
    entity.tx.InSpace entity.cfg.snModulus ∧ entity.tx.Sorted entity.cfg ∧ entity.tx.Counted entity.tx.segments ∧
      decodeStatusPdu entity.cfg cuttingReport = some ⟨0, [⟨0, 20, 39, 1⟩]⟩ ∧
      entity.tx.admits entity.cfg ⟨0, [⟨0, 20, 39, 1⟩]⟩ = true ∧
      entity.tx.Increasing entity.cfg ⟨0, [⟨0, 20, 39, 1⟩]⟩ ∧
      (entity.tx.processControlPdu entity.cfg cuttingReport).1.retransmitList = [] ∧
      ∃ r ∈ entity.tx.retransmitList, ¬ entity.tx.snCompareTx entity.cfg r.sn 0 < 0) (by decide) ?_
  intro entity ⟨space, sorted, counted, read, admitted, increasing, lost, r, listed, notAcked⟩
  refine ⟨space, sorted, counted, _, read, admitted, increasing, ?_⟩
  intro effect
  have kept : r ∈ (entity.tx.processControlPdu entity.cfg cuttingReport).1.retransmitList := by
    apply effect.retransmitList.mem_iff.mpr
    apply mem_append_right
    rw [mem_filter]
    exact ⟨listed, by simp [notAcked]⟩
  rw [lost] at kept
  cases kept

end OranSlice.Rlc
