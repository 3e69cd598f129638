import OranSlice.Rlc.TxMoves

/-! The transmit window: what holds of the lists of a sender between two operations. -/

namespace OranSlice.Rlc

open Window Ordered List

structure TxView where
  (next ack : Int)
  (txList waitList retransmitList : List SduSegment)

def AmTx.view (tx : AmTx) : TxView :=
  ⟨tx.txNext, tx.txNextAck, tx.txList, tx.waitList, tx.retransmitList⟩

namespace TxView

def sent (v : TxView) : List SduSegment := v.waitList ++ v.retransmitList

def rank (cfg : AmConfig) (v : TxView) (sn : Int) : Int := distance cfg.snModulus v.ack sn

abbrev Before (cfg : AmConfig) (v : TxView) : SduSegment → SduSegment → Prop :=
  Rlc.Before cfg.snModulus v.ack

structure Ok (cfg : AmConfig) (v : TxView) : Prop where
  ackSpace : Within cfg.snModulus v.ack
  nextSpace : Within cfg.snModulus v.next
  window : v.rank cfg v.next ≤ cfg.windowSize
  sentSpace : ∀ s ∈ v.sent, Within cfg.snModulus s.sn
  sentBelow : ∀ s ∈ v.sent, v.rank cfg s.sn < v.rank cfg v.next
  wait : v.waitList.Pairwise (v.Before cfg)
  retx : v.retransmitList.Pairwise (v.Before cfg)
  apart : v.sent.Pairwise (Comparable (v.Before cfg))
  fresh : ∀ s ∈ v.txList.tail, s.sn = -1
  head : ∀ s ∈ v.txList.head?, s.sn = -1 ∨
    (Within cfg.snModulus s.sn ∧ v.rank cfg s.sn + 1 = v.rank cfg v.next ∧ ∀ o ∈ v.sent, v.Before cfg o s)

namespace Ok

variable {cfg : AmConfig} {v : TxView}

theorem initial (sound : cfg.Sound) : Ok cfg ⟨0, 0, [], [], []⟩ := by
  have zero : Within cfg.snModulus 0 := by
    have positive := sound.window_pos
    have modulus := sound.modulus_eq
    exact ⟨le_rfl, by omega⟩
  refine ⟨zero, zero, ?_, ?_, ?_, .nil, .nil, .nil, ?_, ?_⟩
  · simpa [rank] using sound.window_pos.le
  all_goals
    intro s member
    simp [sent] at member

variable {segment sent : SduSegment} {waitList retransmitList left rest moved : List SduSegment} {ack : Int}

theorem enqueue (ok : v.Ok cfg) (unassigned : segment.sn = -1) :
    Ok cfg { v with txList := v.txList ++ [segment] } := by
  obtain ⟨next, ack, txList, waitList, retransmitList⟩ := v
  refine { ok with fresh := ?_, head := ?_ }
  · cases txList with
    | nil =>
      exact forall_mem_nil _
    | cons first rest =>
      exact forall_mem_append.mpr ⟨ok.fresh, forall_mem_singleton.mpr unassigned⟩
  · cases txList with
    | nil =>
      intro s member
      cases member
      exact .inl unassigned
    | cons first rest => exact ok.head

theorem discard (ok : v.Ok cfg) (p : SduSegment → Bool) : Ok cfg { v with txList := v.txList.eraseP p } := by
  obtain ⟨next, ack, txList, waitList, retransmitList⟩ := v
  cases txList with
  | nil => exact ok
  | cons first rest =>
    cases found : p first with
    | true =>
      refine { ok with fresh := ?_, head := ?_ }
      · intro s member
        rw [eraseP_cons_of_pos (by exact found)] at member
        exact ok.fresh s (mem_of_mem_tail member)
      · intro s member
        rw [eraseP_cons_of_pos (by exact found)] at member
        exact .inl (ok.fresh s (mem_of_mem_head? member))
    | false =>
      refine { ok with fresh := ?_, head := ?_ }
      · intro s member
        rw [eraseP_cons_of_neg (by simp [found])] at member
        exact ok.fresh s (eraseP_sublist.subset member)
      · intro s member
        rw [eraseP_cons_of_neg (by simp [found])] at member
        exact ok.head s member

theorem regroup (ok : v.Ok cfg) (parts : ∀ s ∈ waitList ++ retransmitList, ∃ t ∈ v.sent, s.PartOf t)
    (wait : waitList.Pairwise (v.Before cfg)) (retx : retransmitList.Pairwise (v.Before cfg))
    (apart : (waitList ++ retransmitList).Pairwise (Comparable (v.Before cfg))) :
    Ok cfg { v with waitList := waitList, retransmitList := retransmitList } := by
  refine { ok with sentSpace := ?_, sentBelow := ?_, wait := wait, retx := retx, apart := apart, head := ?_ }
  · intro s member
    obtain ⟨t, listed, part⟩ := parts s member
    rw [part.sn]
    exact ok.sentSpace t listed
  · intro s member
    obtain ⟨t, listed, part⟩ := parts s member
    rw [part.sn]
    exact ok.sentBelow t listed
  · intro s first
    rcases ok.head s first with unassigned | ⟨space, last, behind⟩
    · exact .inl unassigned
    refine .inr ⟨space, last, ?_⟩
    intro o member
    obtain ⟨t, listed, part⟩ := parts o member
    exact (behind t listed).part_left part

theorem resend (ok : v.Ok cfg) (same : v.retransmitList = segment :: rest) (split : segment.Split sent left)
    (wait : waitList.Pairwise (v.Before cfg)) (perm : waitList.Perm (sent :: v.waitList)) :
    Ok cfg { v with waitList := waitList, retransmitList := left ++ rest } := by
  have apart := ok.apart
  have sorted := ok.retx
  rw [TxView.sent, same] at apart
  rw [same] at sorted
  simp only [pairwise_append, pairwise_cons] at apart
  obtain ⟨waits, ⟨behind, rests⟩, across⟩ := apart
  obtain ⟨first, later⟩ := pairwise_cons.mp sorted
  have leftSorted : left.Pairwise (v.Before cfg) := by
    match left, split.single with
    | [], _ => exact .nil
    | [l], _ => exact pairwise_singleton _ l
  apply ok.regroup
  · intro s member
    have listed : s ∈ (sent :: v.waitList) ++ (left ++ rest) := (perm.append_right _).subset member
    simp only [cons_append, mem_cons, mem_append] at listed
    rcases listed with isSent | inWait | inLeft | inRest
    · exact ⟨segment, by simp [TxView.sent, same], isSent ▸ split.sentPart⟩
    · exact ⟨s, by simp [TxView.sent, inWait], .refl s⟩
    · exact ⟨segment, by simp [TxView.sent, same], split.leftPart s inLeft⟩
    · exact ⟨s, by simp [TxView.sent, same, inRest], .refl s⟩
  · exact wait
  · rw [pairwise_append]
    refine ⟨leftSorted, later, ?_⟩
    intro l inLeft r inRest
    exact (first r inRest).part_left (split.leftPart l inLeft)
  · rw [(perm.append_right _).pairwise_iff Comparable.symm]
    simp only [cons_append, pairwise_cons, pairwise_append, mem_append]
    refine ⟨?_, waits, ⟨leftSorted.imp .inl, rests, ?_⟩, ?_⟩
    · intro s member
      rcases member with inWait | inLeft | inRest
      · exact comparable_part (across s inWait segment mem_cons_self).symm split.sentPart
      · exact .inl (split.ordered _ _ s inLeft)
      · exact comparable_part (behind s inRest) split.sentPart
    · intro l inLeft r inRest
      exact comparable_part (behind r inRest) (split.leftPart l inLeft)
    · intro w inWait s member
      rcases member with inLeft | inRest
      · have compared := (across w inWait segment mem_cons_self).symm
        exact (comparable_part compared (split.leftPart s inLeft)).symm
      · exact across w inWait s (mem_cons_of_mem segment inRest)

theorem assign (sound : cfg.Sound) (ok : v.Ok cfg)
    (same : v.txList = segment :: rest) (open_ : v.rank cfg v.next < cfg.windowSize) :
    Ok cfg { v with
      next := (v.next + 1) % cfg.snModulus, txList := { segment with sn := v.next } :: rest } := by
  have positive := sound.window_pos
  have modulus := sound.modulus_eq
  have further : distance cfg.snModulus v.ack ((v.next + 1) % cfg.snModulus) = v.rank cfg v.next + 1 :=
    distance_succ ok.ackSpace ok.nextSpace (by unfold rank at open_; omega)
  refine { ok with
    nextSpace := within_mod (by omega) _, window := ?_, sentBelow := ?_, fresh := ?_, head := ?_ }
  · change distance _ _ _ ≤ _
    rw [further]
    omega
  · intro s member
    have below := ok.sentBelow s member
    change _ < distance _ _ _
    rw [further]
    exact lt_trans below (by omega)
  · intro s member
    apply ok.fresh s
    rw [same]
    exact member
  · intro s first
    cases first
    refine .inr ⟨ok.nextSpace, further.symm, ?_⟩
    intro o member
    exact .inl (ok.sentBelow o member)

theorem sendHead (ok : v.Ok cfg)
    (same : v.txList = segment :: rest) (assigned : segment.sn ≠ -1) (split : segment.Split sent left)
    (wait : waitList.Pairwise (v.Before cfg)) (perm : waitList.Perm (sent :: v.waitList)) :
    Ok cfg { v with txList := left ++ rest, waitList := waitList } := by
  obtain ⟨space, last, behind⟩ := (ok.head segment (by simp [same])).resolve_left assigned
  have rests : ∀ s ∈ rest, s.sn = -1 := by
    intro s member
    apply ok.fresh s
    rw [same]
    exact member
  have listed : ∀ s ∈ waitList ++ v.retransmitList, s = sent ∨ s ∈ v.sent := by
    intro s member
    have found : s ∈ (sent :: v.waitList) ++ v.retransmitList := (perm.append_right _).subset member
    simpa [TxView.sent] using found
  have sentSpace : ∀ s ∈ waitList ++ v.retransmitList, Within cfg.snModulus s.sn := by
    intro s member
    rcases listed s member with isSent | old
    · rw [isSent, split.sentPart.sn]
      exact space
    · exact ok.sentSpace s old
  have sentBelow : ∀ s ∈ waitList ++ v.retransmitList, v.rank cfg s.sn < v.rank cfg v.next := by
    intro s member
    rcases listed s member with isSent | old
    · rw [isSent, split.sentPart.sn]
      omega
    · exact ok.sentBelow s old
  refine { ok with
    sentSpace := sentSpace, sentBelow := sentBelow, wait := wait, apart := ?_, fresh := ?_, head := ?_ }
  · change (waitList ++ v.retransmitList).Pairwise _
    rw [(perm.append_right _).pairwise_iff Comparable.symm, cons_append, pairwise_cons]
    refine ⟨?_, ok.apart⟩
    intro s member
    exact .inr ((behind s member).part_right split.sentPart)
  · intro s member
    match left, split.single with
    | [], _ => exact rests s (mem_of_mem_tail member)
    | [l], _ => exact rests s member
  · intro s first
    match left, split with
    | [], _ => exact .inl (rests s (mem_of_mem_head? first))
    | [l], split =>
      have here : l = s := Option.some.inj first
      subst here
      have part := split.leftPart l mem_cons_self
      refine .inr ⟨part.sn ▸ space, ?_, ?_⟩
      · rw [part.sn]
        exact last
      · intro o member
        rcases listed o member with isSent | old
        · rw [isSent]
          exact split.ordered _ _ l mem_cons_self
        · exact (behind o old).part_right part
    | _ :: _ :: _, split => exact absurd split.single (by simp)

theorem retransmit (ok : v.Ok cfg)
    (same : v.waitList = moved ++ waitList) (retx : retransmitList.Pairwise (v.Before cfg))
    (perm : retransmitList.Perm (moved ++ v.retransmitList)) :
    Ok cfg { v with waitList := waitList, retransmitList := retransmitList } := by
  have whole : (waitList ++ retransmitList).Perm v.sent := by
    have second : (waitList ++ (moved ++ v.retransmitList)).Perm v.sent := by
      rw [← append_assoc, TxView.sent, same]
      exact perm_append_comm.append_right _
    exact (perm.append_left waitList).trans second
  have wait := ok.wait
  rw [same] at wait
  apply ok.regroup
  · intro s member
    exact ⟨s, whole.subset member, .refl s⟩
  · exact wait.sublist (sublist_append_right moved waitList)
  · exact retx
  · exact (whole.pairwise_iff Comparable.symm).mpr ok.apart

theorem advance (ok : v.Ok cfg) (space : Within cfg.snModulus ack)
    (nextAbove : v.rank cfg ack ≤ v.rank cfg v.next)
    (sentAbove : ∀ s ∈ v.sent, v.rank cfg ack ≤ v.rank cfg s.sn)
    (headAbove : ∀ s ∈ v.txList.head?, s.sn ≠ -1 → v.rank cfg ack ≤ v.rank cfg s.sn) :
    Ok cfg { v with ack := ack } := by
  have rebase : ∀ sn, Within cfg.snModulus sn → v.rank cfg ack ≤ v.rank cfg sn →
      distance cfg.snModulus ack sn = v.rank cfg sn - v.rank cfg ack := by
    intro sn fits above
    exact distance_rebase ok.ackSpace space fits above
  have before : ∀ s t, Within cfg.snModulus s.sn → Within cfg.snModulus t.sn →
      v.rank cfg ack ≤ v.rank cfg s.sn → v.rank cfg ack ≤ v.rank cfg t.sn → v.Before cfg s t →
      Rlc.Before cfg.snModulus ack s t := by
    intro s t sFits tFits sAbove tAbove ordered
    exact before_rebase ok.ackSpace space sFits tFits sAbove tAbove ordered
  have low : 0 ≤ v.rank cfg ack := (distance_bounds ok.ackSpace space).1
  have nextRank := rebase v.next ok.nextSpace nextAbove
  have sentBefore : ∀ s ∈ v.sent, ∀ t ∈ v.sent, v.Before cfg s t → Rlc.Before cfg.snModulus ack s t := by
    intro s sMember t tMember
    exact before s t (ok.sentSpace s sMember) (ok.sentSpace t tMember) (sentAbove s sMember)
      (sentAbove t tMember)
  have waitSent : ∀ s ∈ v.waitList, s ∈ v.sent := fun s member => mem_append_left _ member
  have retxSent : ∀ s ∈ v.retransmitList, s ∈ v.sent := fun s member => mem_append_right _ member
  have window := ok.window
  refine ⟨space, ok.nextSpace, ?_, ok.sentSpace, ?_, ?_, ?_, ?_, ok.fresh, ?_⟩
  · change distance _ _ _ ≤ _
    rw [nextRank]
    omega
  · intro s member
    have below := ok.sentBelow s member
    change distance _ _ _ < distance _ _ _
    rw [nextRank, rebase s.sn (ok.sentSpace s member) (sentAbove s member)]
    omega
  · exact ok.wait.imp_of_mem (fun sMember tMember =>
      sentBefore _ (waitSent _ sMember) _ (waitSent _ tMember))
  · exact ok.retx.imp_of_mem (fun sMember tMember =>
      sentBefore _ (retxSent _ sMember) _ (retxSent _ tMember))
  · refine ok.apart.imp_of_mem (fun sMember tMember compared => ?_)
    rcases compared with ordered | reverse
    · exact .inl (sentBefore _ sMember _ tMember ordered)
    · exact .inr (sentBefore _ tMember _ sMember reverse)
  · intro s first
    rcases ok.head s first with unassigned | ⟨fits, last, behind⟩
    · exact .inl unassigned
    by_cases assigned : s.sn = -1
    · exact .inl assigned
    have above := headAbove s first assigned
    refine .inr ⟨fits, ?_, ?_⟩
    · change distance _ _ _ + 1 = distance _ _ _
      rw [nextRank, rebase s.sn fits above]
      omega
    · intro o member
      exact before o s (ok.sentSpace o member) fits (sentAbove o member) above (behind o member)

end Ok

end TxView

namespace AmTx

variable {cfg : AmConfig} {tx next : AmTx}

variable {segment sent : SduSegment} {left rest : List SduSegment} {pdu : List BitCodec.Byte}
  {tCurrent size : Nat} {result : AmTx × List AmEvent}

theorem Sends.waitList_ok (ok : tx.view.Ok cfg) (sends : Sends cfg tx next segment pdu sent left)
    (compared : ∀ t ∈ tx.waitList, Comparable (tx.Before cfg) segment t) :
    next.waitList.Pairwise (tx.Before cfg) ∧ next.waitList.Perm (sent :: tx.waitList) := by
  refine ⟨?_, sends.waitList_perm⟩
  rw [sends.waitList]
  apply putInWaitList_pairwise ok.wait
  intro t member
  exact comparable_part (compared t member) sends.split.sentPart

theorem generateRetxPdu_ok (ok : tx.view.Ok cfg)
    (made : tx.generateRetxPdu cfg tCurrent size = some (pdu, next)) : next.view.Ok cfg := by
  obtain ⟨segment, rest, sent, left, same, sends, nextSn, txList, retx, _, _⟩ := generateRetxPdu_cases made
  have compared : ∀ t ∈ tx.waitList, Comparable (tx.Before cfg) segment t := by
    intro t member
    have apart := (pairwise_append.mp ok.apart).2.2 t member segment
    exact (apart (by simp [view, same])).symm
  obtain ⟨sorted, perm⟩ := sends.waitList_ok ok compared
  have result := ok.resend same sends.split sorted perm
  have view : next.view = { tx.view with waitList := next.waitList, retransmitList := left ++ rest } := by
    simp [AmTx.view, nextSn, sends.ack, txList, retx]
  rw [view]
  exact result

theorem notStalling_iff (sound : cfg.Sound) (base : Within cfg.snModulus tx.txNextAck)
    (next : Within cfg.snModulus tx.txNext) :
    tx.isWindowStalling cfg = false ↔ distance cfg.snModulus tx.txNextAck tx.txNext < cfg.windowSize := by
  have positive := sound.window_pos
  have modulus := sound.modulus_eq
  have top : distance cfg.snModulus tx.txNextAck ((tx.txNextAck + cfg.windowSize) % cfg.snModulus) =
      cfg.windowSize := distance_add base ⟨positive.le, by omega⟩
  have bounds := distance_bounds base next
  simp only [isWindowStalling, snCompareTx, modulusTx, top, distance_self, Bool.not_eq_false',
    Bool.and_eq_true, decide_eq_true_eq]
  omega

theorem window_open (sound : cfg.Sound) (ok : tx.view.Ok cfg) (notStalling : tx.isWindowStalling cfg = false) :
    tx.view.rank cfg tx.txNext < cfg.windowSize :=
  (notStalling_iff sound ok.ackSpace ok.nextSpace).mp notStalling

def numberHead (cfg : AmConfig) (tx : AmTx) (segment : SduSegment) (rest : List SduSegment) : TxView :=
  { tx.view with
    next := if segment.sn = -1 then (tx.txNext + 1) % cfg.snModulus else tx.txNext
    txList := tx.numbered segment :: rest }

theorem numberHead_ok (sound : cfg.Sound) (ok : tx.view.Ok cfg) (same : tx.txList = segment :: rest)
    (notStalling : tx.isWindowStalling cfg = false) : (tx.numberHead cfg segment rest).Ok cfg := by
  unfold numberHead numbered
  by_cases unassigned : segment.sn = -1
  · simp only [if_pos unassigned]
    exact ok.assign sound same (window_open sound ok notStalling)
  · simp only [if_neg unassigned]
    rw [← same]
    exact ok

theorem generateTxPdu_ok (sound : cfg.Sound) (ok : tx.view.Ok cfg)
    (made : tx.generateTxPdu cfg tCurrent size = some (pdu, next)) : next.view.Ok cfg := by
  obtain ⟨segment, rest, sent, left, same, notStalling, sends, nextSn, txList, retx, _, _⟩ :=
    generateTxPdu_cases made
  have numberedOk := numberHead_ok sound ok same notStalling
  have assigned : (tx.numbered segment).sn ≠ -1 := by
    unfold numbered
    split
    · have low := ok.nextSpace.1
      change tx.txNext ≠ -1
      unfold view at low
      dsimp only at low
      omega
    · assumption
  have head := (numberedOk.head _ rfl).resolve_left assigned
  have compared : ∀ t ∈ tx.waitList, Comparable (tx.Before cfg) (tx.numbered segment) t := by
    intro t member
    exact .inr (head.2.2 t (mem_append_left _ member))
  obtain ⟨sorted, perm⟩ := sends.waitList_ok ok compared
  have result := numberedOk.sendHead rfl assigned sends.split sorted perm
  have view : next.view = { tx.numberHead cfg segment rest with
      txList := left ++ rest, waitList := next.waitList } := by
    simp [AmTx.view, numberHead, nextSn, sends.ack, txList, retx]
  rw [view]
  exact result

theorem generateDataPdu_ok (sound : cfg.Sound) (ok : tx.view.Ok cfg) (tCurrent size : Nat) :
    (tx.generateDataPdu cfg tCurrent size).2.view.Ok cfg := by
  unfold generateDataPdu
  split
  · rename_i made
    exact generateRetxPdu_ok ok made
  split
  · rename_i made
    exact generateTxPdu_ok sound ok made
  · exact ok

theorem checkTPollRetransmit_ok (ok : tx.view.Ok cfg)
    (done : tx.checkTPollRetransmit cfg tCurrent = some result) : result.1.view.Ok cfg := by
  obtain ⟨moved, wait, retx, _, nextSn, ack, txList, _⟩ := checkTPollRetransmit_cases done
  have apart := ok.apart
  simp only [TxView.sent, AmTx.view, wait, append_assoc] at apart
  have compared : (moved ++ tx.retransmitList).Pairwise (Comparable (tx.Before cfg)) :=
    apart.sublist ((sublist_append_right _ _).append_left moved)
  have sorted : result.1.retransmitList.Pairwise (tx.Before cfg) := by
    rw [retx]
    exact listAddAll_pairwise ok.retx compared
  have perm : result.1.retransmitList.Perm (moved ++ tx.retransmitList) := by
    rw [retx]
    exact listAddAll_perm (tx.snCompareTx cfg) moved tx.retransmitList
  have view : result.1.view = { tx.view with
      waitList := result.1.waitList, retransmitList := result.1.retransmitList } := by
    simp [AmTx.view, nextSn, ack, txList]
  rw [view]
  exact ok.retransmit wait sorted perm

end AmTx

end OranSlice.Rlc
