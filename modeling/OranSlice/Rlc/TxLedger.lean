import OranSlice.Core.Shares
import OranSlice.Rlc.StatusMoves
import OranSlice.Rlc.TxMoves

/-! The accounts of a sender: how many segments of each SDU are left, the bytes of its SDUs, and
the bytes that its lists stand for on the air. -/

namespace OranSlice.Rlc

open List Function

variable {cfg : AmConfig} {ackSn : Int}

def AmTx.remaining (tx : AmTx) (ident : Nat) : Int :=
  (tx.counts ident).refCount - (tx.counts ident).freeCount

def sdus (segments : List SduSegment) : List Sdu := segments.map SduSegment.sdu

@[simp] theorem sdus_cons (segment : SduSegment) (rest : List SduSegment) :
    sdus (segment :: rest) = segment.sdu :: sdus rest := rfl

@[simp] theorem sdus_append (front back : List SduSegment) :
    sdus (front ++ back) = sdus front ++ sdus back := map_append

theorem mem_sdus {sdu : Sdu} {segments : List SduSegment} :
    sdu ∈ sdus segments ↔ ∃ segment ∈ segments, segment.sdu = sdu := mem_map

def sduBytes (segments : List SduSegment) : Int :=
  Shares.total (fun sdu : Sdu => (sdu.data.length : Int)) (sdus segments)

theorem sduBytes_congr {front back : List SduSegment} (same : ∀ sdu, sdu ∈ sdus front ↔ sdu ∈ sdus back) :
    sduBytes front = sduBytes back := Shares.total_congr same

theorem sduBytes_perm {front back : List SduSegment} (same : front.Perm back) :
    sduBytes front = sduBytes back :=
  sduBytes_congr (fun _ => (same.map SduSegment.sdu).mem_iff)

def AmTx.segments (tx : AmTx) : List SduSegment :=
  tx.txList ++ (tx.waitList ++ tx.retransmitList)

abbrev AmTx.Counted (tx : AmTx) (segments : List SduSegment) : Prop :=
  Shares.Counted Sdu.ident tx.remaining (sdus segments)

def Delivered (start live : List SduSegment) (events : List AmEvent) : Prop :=
  ∀ sdu, events.count (.sduSuccessfulDelivery sdu) = if sdu ∈ sdus start ∧ sdu ∉ sdus live then 1 else 0

namespace Delivered

variable {start live : List SduSegment} {events : List AmEvent}

theorem congr {other : List SduSegment} (delivered : Delivered start live events)
    (same : ∀ sdu, sdu ∈ sdus other ↔ sdu ∈ sdus live) : Delivered start other events := by
  intro sdu
  simp [delivered sdu, same sdu]

theorem perm {other : List SduSegment} (delivered : Delivered start live events)
    (same : live.Perm other) : Delivered start other events :=
  delivered.congr (fun _ => (same.map SduSegment.sdu).symm.mem_iff)

theorem report (delivered : Delivered start live events) {more : List AmEvent}
    (other : ∀ sdu, .sduSuccessfulDelivery sdu ∉ more) : Delivered start live (events ++ more) := by
  intro sdu
  rw [count_append, count_eq_zero.mpr (other sdu)]
  exact delivered sdu

end Delivered

theorem AmTx.freeSegment_account {tx : AmTx} {segment : SduSegment} {rest : List SduSegment}
    (counted : tx.Counted (segment :: rest)) :
    (tx.freeSegment segment).1.Counted rest ∧
      (tx.freeSegment segment).1.txSize - sduBytes rest = tx.txSize - sduBytes (segment :: rest) ∧
      (tx.freeSegment segment).2 =
        if segment.sdu ∈ sdus rest then [] else [.sduSuccessfulDelivery segment.sdu] := by
  have back := counted.give_back
  have remaining : (tx.freeSegment segment).1.remaining = update tx.remaining
      segment.sdu.ident (tx.remaining segment.sdu.ident - 1) := by
    funext ident
    have same : (tx.freeSegment segment).1.counts = update tx.counts segment.sdu.ident
        { tx.counts segment.sdu.ident with
          freeCount := (tx.counts segment.sdu.ident).freeCount + 1 } := by
      unfold AmTx.freeSegment
      dsimp only
      split <;> rfl
    unfold AmTx.remaining
    rw [same]
    by_cases here : ident = segment.sdu.ident
    · rw [here, update_self, update_self]
      dsimp only
      omega
    · rw [update_of_ne here, update_of_ne here]
  have last : (tx.counts segment.sdu.ident).freeCount + 1 = (tx.counts segment.sdu.ident).refCount ↔
      segment.sdu ∉ sdus rest := by
    have zero : tx.remaining segment.sdu.ident - 1 = 0 ↔ segment.sdu ∉ sdus rest := counted.last_iff
    rw [← zero]
    unfold AmTx.remaining
    omega
  refine ⟨by rw [AmTx.Counted, remaining]; exact back, ?_, ?_⟩
  · by_cases more : segment.sdu ∈ sdus rest
    · have bytes : sduBytes (segment :: rest) = sduBytes rest := Shares.total_cons_of_mem more
      have notLast := mt last.mp (not_not.mpr more)
      have size : (tx.freeSegment segment).1.txSize = tx.txSize := by
        unfold AmTx.freeSegment
        rw [if_neg notLast]
      rw [bytes, size]
    · have bytes : sduBytes (segment :: rest) = segment.sdu.data.length + sduBytes rest :=
        Shares.total_cons_of_notMem more
      have size : (tx.freeSegment segment).1.txSize = tx.txSize - segment.sdu.data.length := by
        unfold AmTx.freeSegment
        rw [if_pos (last.mpr more)]
      omega
  · unfold AmTx.freeSegment
    by_cases more : segment.sdu ∈ sdus rest
    · rw [if_neg (mt last.mp (not_not.mpr more)), if_pos more]
    · rw [if_pos (last.mpr more), if_neg more]

namespace ControlState

variable {tx : AmTx} {s next : ControlState} {part : NackedPart} {segment : SduSegment}
  {rest : List SduSegment}

def live (tx : AmTx) (s : ControlState) : List SduSegment :=
  tx.txList ++ ((s.passed ++ s.wait) ++ (s.kept ++ s.retx))

structure Balanced (cfg : AmConfig) (tx : AmTx) (s : ControlState) : Prop where
  known : (s.live tx).Subperm tx.segments
  counted : s.tx.Counted (s.live tx)
  delivered : Delivered tx.segments (s.live tx) s.events
  txSize : s.tx.txSize - sduBytes (s.live tx) = tx.txSize - sduBytes tx.segments
  retxSize : s.tx.bstatusRetxSize - pduBytes cfg (s.kept ++ s.retx) =
    tx.bstatusRetxSize - pduBytes cfg tx.retransmitList

namespace Balanced

section

variable (balanced : Balanced cfg tx s)

include balanced

theorem regroup (same : (next.live tx).Perm (s.live tx))
    (counts : next.tx.remaining = s.tx.remaining) (txSize : next.tx.txSize = s.tx.txSize)
    (events : Delivered tx.segments (s.live tx) next.events)
    (retxSize : next.tx.bstatusRetxSize - pduBytes cfg (next.kept ++ next.retx) =
      s.tx.bstatusRetxSize - pduBytes cfg (s.kept ++ s.retx)) : Balanced cfg tx next where
  known := same.subperm.trans balanced.known
  counted := by
    rw [AmTx.Counted, counts]
    exact balanced.counted.perm (same.map SduSegment.sdu).symm
  delivered := events.perm same.symm
  txSize := by
    rw [txSize, sduBytes_perm same]
    exact balanced.txSize
  retxSize := retxSize.trans balanced.retxSize

theorem free (before : AmTx)
    (same : (s.live tx).Perm (segment :: next.live tx)) (counts : before.counts = s.tx.counts)
    (txSize : before.txSize = s.tx.txSize) (freed : next.tx = (before.freeSegment segment).1)
    (events : next.events = s.events ++ (before.freeSegment segment).2)
    (retxSize : next.tx.bstatusRetxSize - pduBytes cfg (next.kept ++ next.retx) =
      s.tx.bstatusRetxSize - pduBytes cfg (s.kept ++ s.retx)) : Balanced cfg tx next := by
  have mapped := same.map SduSegment.sdu
  have counted : before.Counted (segment :: next.live tx) := by
    have remaining : before.remaining = s.tx.remaining := by
      funext ident
      rw [AmTx.remaining, counts]
      rfl
    rw [AmTx.Counted, remaining]
    exact balanced.counted.perm mapped
  obtain ⟨after, size, fired⟩ := AmTx.freeSegment_account counted
  have known : (segment :: next.live tx).Subperm tx.segments := same.symm.subperm.trans balanced.known
  refine ⟨(sublist_cons_self segment _).subperm.trans known, ?_, ?_, ?_, ?_⟩
  · rw [freed]
    exact after
  · rw [events, fired]
    have delivered := balanced.delivered.perm same
    split_ifs with more
    · rw [append_nil]
      apply delivered.congr
      intro sdu
      rw [sdus_cons, mem_cons]
      constructor
      · exact .inr
      · rintro (here | there)
        · rw [here]
          exact more
        · exact there
    · intro sdu
      have before := delivered sdu
      rw [count_append, before]
      by_cases same : sdu = segment.sdu
      · subst same
        simp [(mem_sdus.mpr ⟨segment, known.subset mem_cons_self, rfl⟩), more]
      · have other : segment.sdu ≠ sdu := fun equal => same equal.symm
        simp [other, same]
  · rw [freed, size, txSize, ← sduBytes_perm same]
    exact balanced.txSize
  · exact retxSize.trans balanced.retxSize

theorem freeWait (current : s.wait = segment :: rest) : Balanced cfg tx { s with
      wait := rest, tx := (s.tx.freeSegment segment).1
      events := s.events ++ (s.tx.freeSegment segment).2 } := by
  have retxSize : (s.tx.freeSegment segment).1.bstatusRetxSize = s.tx.bstatusRetxSize := by
    unfold AmTx.freeSegment
    dsimp only
    split <;> rfl
  refine balanced.free s.tx ?_ rfl rfl rfl rfl ?_
  · rw [live, current]
    apply perm_iff_count.mpr
    simp only [live, count_append, count_cons]
    omega
  · rw [retxSize]

theorem freeRetx (current : s.retx = segment :: rest) : Balanced cfg tx { s with
      retx := rest, tx := (s.tx.freeRetx cfg segment).1
      events := s.events ++ (s.tx.freeRetx cfg segment).2 } := by
  have retxSize : (s.tx.freeRetx cfg segment).1.bstatusRetxSize =
      s.tx.bstatusRetxSize - (computePduHeaderSize cfg segment + segment.size : Nat) := by
    unfold AmTx.freeRetx AmTx.freeSegment
    dsimp only
    split <;> rfl
  refine balanced.free { s.tx with bstatusRetxSize :=
    s.tx.bstatusRetxSize - (computePduHeaderSize cfg segment + segment.size) } ?_ rfl rfl rfl rfl ?_
  · rw [live, current]
    apply perm_iff_count.mpr
    simp only [live, count_append, count_cons]
    omega
  · dsimp only
    rw [current, pduBytes_append, pduBytes_append, pduBytes_cons]
    omega

theorem move (uncut : ∀ r rest, s.CurrentRetx cfg r rest → s.Behind cfg part r →
      ¬ s.tx.snCompareTx cfg r.sn ackSn < 0 → s.wait ≠ [])
    (move : NackMove cfg ackSn part s next) : Balanced cfg tx next := by
  cases move with
  | nackWait segment rest current _ =>
    have remaining : (s.tx.countRetx cfg segment).1.remaining = s.tx.remaining := by
      funext ident
      unfold AmTx.remaining AmTx.countRetx
      dsimp only
      by_cases here : ident = segment.sdu.ident
      · rw [here, update_self]
      · rw [update_of_ne here]
    refine balanced.regroup ?_ remaining rfl ?_ ?_
    · rw [live, live, current.1]
      apply perm_iff_count.mpr
      simp only [count_append, count_cons, count_nil]
      omega
    · apply balanced.delivered.report
      unfold AmTx.countRetx
      dsimp only
      split <;> simp
    · unfold AmTx.countRetx
      simp only [pduBytes_append, pduBytes_cons, pduBytes_nil]
      omega
  | freeWait segment rest current _ _ => exact balanced.freeWait current.1
  | passAll segment rest current _ _ | pass segment rest current _ _ =>
    refine balanced.regroup ?_ rfl rfl balanced.delivered rfl
    rw [live, live, current.1]
    simp
  | nackRetx segment rest current _ | keepRetx segment rest current _ _ _ =>
    refine balanced.regroup ?_ rfl rfl balanced.delivered ?_
    · rw [live, live, current.1]
      simp
    · rw [current.1]
      simp
  | freeRetx segment rest current _ _ => exact balanced.freeRetx current.1
  | cutRetx segment rest current behind notAcked done =>
    exact absurd done (uncut segment rest current behind notAcked)

theorem stopPoll : Balanced cfg tx { s with tx := { s.tx with tPollRetransmitStart := 0 } } :=
  balanced.regroup (.refl _) rfl rfl balanced.delivered rfl

end

end Balanced

end ControlState

structure AmTx.Settles (cfg : AmConfig) (tx : AmTx) (result : AmTx × List AmEvent) : Prop where
  known : result.1.segments.Subperm tx.segments
  counted : result.1.Counted result.1.segments
  delivered : Delivered tx.segments result.1.segments result.2
  txSize : result.1.txSize - sduBytes result.1.segments = tx.txSize - sduBytes tx.segments
  retxSize : result.1.bstatusRetxSize - pduBytes cfg result.1.retransmitList =
    tx.bstatusRetxSize - pduBytes cfg tx.retransmitList

section Rule

variable {tx : AmTx} {status : StatusPdu} (good : List NackedPart → ControlState → Prop)
  (moves : ∀ part parts s next, good (part :: parts) s →
    ControlState.NackMove cfg status.ackSn part s next → good (part :: parts) next)
  (stops : ∀ part parts s, good (part :: parts) s → s.nackStep cfg status.ackSn part = none → good parts s)
  (stopsPoll : ∀ parts s, good parts s →
    good parts { s with tx := { s.tx with tPollRetransmitStart := 0 } })
  (uncut : ∀ part parts s, good (part :: parts) s → ∀ r rest, s.CurrentRetx cfg r rest →
    s.Behind cfg part r → ¬ s.tx.snCompareTx cfg r.sn status.ackSn < 0 → s.wait ≠ [])

include moves stops stopsPoll uncut

theorem AmTx.processStatus_settles (start : good (status.parts cfg) (tx.reportStart cfg status.ackSn))
    (counted : tx.Counted tx.segments) : tx.Settles cfg (tx.processStatus cfg status) := by
  have loop : good [] (tx.afterNacks cfg status) ∧
      ControlState.Balanced cfg tx (tx.afterNacks cfg status) := by
    apply ControlState.processNacks_good (fun parts s => good parts s ∧ ControlState.Balanced cfg tx s)
    · intro part parts s next before move
      exact ⟨moves part parts s next before.1 move, before.2.move (uncut part parts s before.1) move⟩
    · intro part parts s before stuck
      exact ⟨stops part parts s before.1 stuck, before.2⟩
    · intro parts s before
      exact ⟨stopsPoll parts s before.1, before.2.stopPoll⟩
    · refine ⟨start, ?_⟩
      have fresh : ControlState.Balanced cfg tx ⟨[], tx.waitList, [], tx.retransmitList, tx, []⟩ := by
        refine ⟨List.Subperm.refl _, counted, ?_, rfl, rfl⟩
        intro sdu
        exact (if_neg (fun both => both.2 both.1)).symm
      unfold AmTx.reportStart
      split
      · exact fresh.stopPoll
      · exact fresh
  generalize same : tx.afterNacks cfg status = s at loop
  have balanced := loop.2
  have waits := freeAcked_good cfg status.ackSn (fun wait left events => ControlState.Balanced cfg tx
      { s with wait := wait, tx := left, events := events })
    (fun segment rest left events before => before.freeWait rfl) s.wait s.tx s.events balanced
  have retxs := freeAcked_good cfg status.ackSn (fun retx left events => ControlState.Balanced cfg tx { s with
      wait := (freeAcked cfg status.ackSn AmTx.freeSegment s.wait s.tx).1
      retx := retx, tx := left, events := events })
    (fun segment rest left events before => before.freeRetx rfl) s.retx _ _ waits
  subst same
  have txList : (tx.processStatus cfg status).1.txList = tx.txList := by
    obtain ⟨left, accounted, result⟩ := tx.processStatus_result cfg status
    obtain ⟨_, _, _, _, rfl⟩ := accounted
    rw [result]
  have segments : (tx.processStatus cfg status).1.segments = tx.txList ++
      ((tx.processStatus cfg status).1.waitList ++ (tx.processStatus cfg status).1.retransmitList) := by
    rw [← txList]
    rfl
  refine ⟨?_, ?_, ?_, ?_, retxs.retxSize⟩
  · rw [segments]
    exact retxs.known
  · rw [segments]
    exact retxs.counted
  · rw [segments]
    exact retxs.delivered
  · rw [segments]
    exact retxs.txSize

end Rule

end OranSlice.Rlc
