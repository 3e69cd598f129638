import OranSlice.Rlc.StatusEffect

/-! The accounts of a sender over whole runs. -/

namespace OranSlice.Rlc

open BitCodec Window Runs List Function

variable {cfg : AmConfig} {tx next : AmTx} {segments others : List SduSegment} {segment sent : SduSegment}
  {left : List SduSegment}

def Whole (segments : List SduSegment) : Prop :=
  ∀ x rest, segments.Perm (x :: rest) → x.isFirst = true → x.isLast = true → x.sdu ∉ sdus rest

namespace Whole

theorem perm (whole : Whole segments) (same : segments.Perm others) : Whole others :=
  fun x rest taken => whole x rest (same.trans taken)

theorem subperm (whole : Whole segments) (part : others.Subperm segments) : Whole others := by
  intro x rest taken first last member
  obtain ⟨front, same, sublist⟩ := part
  obtain ⟨more, all⟩ := sublist.exists_perm_append
  have before := whole x (rest ++ more) (all.trans ((same.trans taken).append_right more)) first last
  rw [sdus_append] at before
  exact before (mem_append_left _ member)

theorem exchange {new : List SduSegment} (whole : Whole (segment :: segments))
    (same : ∀ n ∈ new, n.sdu = segment.sdu) (parts : ∀ n ∈ new, n.isFirst = true → n.isLast = true →
      segment.isFirst = true ∧ segment.isLast = true ∧ new = [n]) : Whole (new ++ segments) := by
  intro x rest taken first last
  by_cases isNew : x ∈ new
  · obtain ⟨wasFirst, wasLast, single⟩ := parts x isNew first last
    rw [single] at taken
    have others : (sdus segments).Perm (sdus rest) := (perm_cons x).mp taken |>.map SduSegment.sdu
    rw [same x isNew, ← others.mem_iff]
    exact whole segment segments (.refl _) wasFirst wasLast
  · have old : x ∈ segments := by
      have listed : x ∈ new ++ segments := taken.mem_iff.mpr mem_cons_self
      exact (mem_append.mp listed).resolve_left isNew
    obtain ⟨left, right, rfl⟩ := append_of_mem old
    have middle : (left ++ x :: right).Perm (x :: (left ++ right)) := perm_middle
    have alone := whole x (segment :: (left ++ right))
      ((middle.cons segment).trans (.swap x segment _)) first last
    have remaining : rest.Perm (new ++ (left ++ right)) := by
      have moved := taken.symm.trans ((middle.append_left new).trans perm_middle)
      exact (perm_cons x).mp moved
    intro member
    have owners : x.sdu ∈ sdus (new ++ (left ++ right)) := (remaining.map SduSegment.sdu).mem_iff.mp member
    rw [sdus_append] at owners
    apply alone
    rcases mem_append.mp owners with inNew | inOld
    · obtain ⟨n, listed, owner⟩ := mem_sdus.mp inNew
      rw [← owner, same n listed]
      exact mem_cons_self
    · exact mem_cons_of_mem _ inOld

theorem create (whole : Whole segments) (fresh : segment.sdu ∉ sdus segments) :
    Whole (segment :: segments) := by
  intro x rest taken first last member
  by_cases here : x = segment
  · subst here
    exact fresh (((perm_cons x).mp taken |>.map SduSegment.sdu).mem_iff.mpr member)
  have old : x ∈ segments := (mem_cons.mp (taken.mem_iff.mpr mem_cons_self)).resolve_left here
  obtain ⟨left, right, rfl⟩ := append_of_mem old
  have middle : (left ++ x :: right).Perm (x :: (left ++ right)) := perm_middle
  have remaining : rest.Perm (segment :: (left ++ right)) := by
    have moved := taken.symm.trans ((middle.cons segment).trans (.swap x segment _))
    exact (perm_cons x).mp moved
  have split := (remaining.map SduSegment.sdu).mem_iff.mp member
  rcases mem_cons.mp split with same | there
  · apply fresh
    rw [← same]
    exact mem_sdus.mpr ⟨x, old, rfl⟩
  · exact whole x (left ++ right) middle first last there

end Whole

structure AmTx.Accounts (cfg : AmConfig) (tx : AmTx) : Prop where
  counted : tx.Counted tx.segments
  fresh : ∀ sdu ∈ sdus tx.segments, sdu.ident < tx.created
  whole : Whole tx.segments
  txSize : tx.txSize = sduBytes tx.segments
  bstatusTxSize : tx.bstatusTxSize = pduBytes cfg tx.txList
  bstatusRetxSize : tx.bstatusRetxSize = pduBytes cfg tx.retransmitList

namespace AmTx.Accounts

theorem initial (cfg : AmConfig) (created : Nat) : AmTx.Accounts cfg { created := created } where
  counted := ⟨by simp [AmTx.segments, sdus], by simp [AmTx.segments, sdus]⟩
  fresh := by simp [AmTx.segments, sdus]
  whole x rest taken := by
    have none := taken.length_eq
    simp [AmTx.segments] at none
  txSize := rfl
  bstatusTxSize := rfl
  bstatusRetxSize := rfl

theorem regroup (accounts : tx.Accounts cfg) (same : next.segments.Perm tx.segments)
    (counts : next.remaining = tx.remaining) (created : next.created = tx.created)
    (txSize : next.txSize = tx.txSize) (bstatusTx : next.bstatusTxSize = pduBytes cfg next.txList)
    (bstatusRetx : next.bstatusRetxSize = pduBytes cfg next.retransmitList) : next.Accounts cfg where
  counted := by
    rw [AmTx.Counted, counts]
    exact accounts.counted.perm (same.map SduSegment.sdu).symm
  fresh sdu member := by
    rw [created]
    exact accounts.fresh sdu ((same.map SduSegment.sdu).mem_iff.mp member)
  whole := accounts.whole.perm same.symm
  txSize := by rw [txSize, sduBytes_perm same, accounts.txSize]
  bstatusTxSize := bstatusTx
  bstatusRetxSize := bstatusRetx

end AmTx.Accounts

section Split

variable (cut : segment.Split sent left)

include cut

theorem SduSegment.Split.owners : sent.sdu = segment.sdu ∧ ∀ l ∈ left, l.sdu = segment.sdu := by
  cases cut with
  | whole => simp
  | cut k some_ notAll => simp

theorem Whole.split_off (whole : Whole (segment :: others)) : Whole (sent :: (left ++ others)) := by
  obtain ⟨sentOwner, leftOwner⟩ := cut.owners
  have exchanged : Whole ((sent :: left) ++ others) := by
    apply whole.exchange
    · simpa [sentOwner] using leftOwner
    · cases cut with
      | whole =>
        intro n member first last
        rw [mem_singleton.mp member] at first last ⊢
        exact ⟨first, last, rfl⟩
      | cut k some_ notAll => simp
  exact exchanged

theorem sduBytes_split : sduBytes (sent :: (left ++ others)) = sduBytes (segment :: others) := by
  obtain ⟨sentOwner, leftOwner⟩ := cut.owners
  apply sduBytes_congr
  intro sdu
  simp only [sdus_cons, sdus_append, mem_cons, mem_append, sentOwner]
  constructor
  · rintro (here | inLeft | there)
    · exact .inl here
    · obtain ⟨l, listed, owner⟩ := mem_sdus.mp inLeft
      exact .inl (by rw [← owner, leftOwner l listed])
    · exact .inr there
  · rintro (here | there)
    · exact .inl here
    · exact .inr (.inr there)

theorem counted_split (counted : tx.Counted (segment :: others))
    (counts : next.counts = if left = [] then tx.counts else (tx.countSegment segment).counts) :
    next.Counted (sent :: (left ++ others)) := by
  cases cut with
  | whole =>
    have remaining : next.remaining = tx.remaining := by
      funext ident
      rw [AmTx.remaining, counts]
      rfl
    rw [AmTx.Counted, remaining]
    exact counted
  | cut k some_ notAll =>
    have remaining : next.remaining = update tx.remaining segment.sdu.ident
        (tx.remaining segment.sdu.ident + 1) := by
      funext ident
      rw [AmTx.remaining, counts, if_neg (cons_ne_nil _ _), AmTx.countSegment]
      dsimp only
      by_cases here : ident = segment.sdu.ident
      · rw [here, update_self, update_self, AmTx.remaining]
        dsimp only
        omega
      · rw [update_of_ne here, update_of_ne here, AmTx.remaining]
    rw [AmTx.Counted, remaining]
    exact counted.split

end Split

namespace AmTx.Accounts

variable {pdu : List Byte} {tCurrent size : Nat}

theorem send (accounts : tx.Accounts cfg) (sends : tx.Sends cfg next segment pdu sent left)
    (before : tx.segments.Perm (segment :: others)) (after : next.segments.Perm (sent :: (left ++ others)))
    (bstatusTx : next.bstatusTxSize = pduBytes cfg next.txList)
    (bstatusRetx : next.bstatusRetxSize = pduBytes cfg next.retransmitList) : next.Accounts cfg := by
  have owners := before.map SduSegment.sdu
  obtain ⟨sentOwner, leftOwner⟩ := sends.split.owners
  refine ⟨?_, ?_, ?_, ?_, bstatusTx, bstatusRetx⟩
  · have counted := counted_split sends.split (accounts.counted.perm owners) sends.counts
    exact counted.perm (after.map SduSegment.sdu).symm
  · intro sdu member
    rw [sends.created]
    apply accounts.fresh sdu
    apply owners.mem_iff.mpr
    have listed : sdu ∈ sdus (sent :: (left ++ others)) := (after.map SduSegment.sdu).mem_iff.mp member
    simp only [sdus_cons, sdus_append, mem_cons, mem_append] at listed
    rcases listed with here | inLeft | there
    · rw [here, sentOwner]
      exact mem_cons_self
    · obtain ⟨l, inList, owner⟩ := mem_sdus.mp inLeft
      rw [← owner, leftOwner l inList]
      exact mem_cons_self
    · exact mem_cons_of_mem _ there
  · exact ((accounts.whole.perm before).split_off sends.split).perm after.symm
  · rw [sends.txSize, sduBytes_perm after, sduBytes_split sends.split, ← sduBytes_perm before]
    exact accounts.txSize

section

variable (accounts : tx.Accounts cfg)

include accounts

theorem generateRetxPdu (made : tx.generateRetxPdu cfg tCurrent size = some (pdu, next)) : next.Accounts cfg := by
  obtain ⟨segment, rest, sent, left, same, sends, _, txList, retx, bstatusTx, bstatusRetx, _⟩ :=
    generateRetxPdu_cases made
  have before : tx.segments.Perm (segment :: (tx.txList ++ (tx.waitList ++ rest))) := by
    rw [AmTx.segments, same]
    apply perm_iff_count.mpr
    simp only [count_append, count_cons]
    omega
  refine accounts.send sends before ?_ ?_ ?_
  · rw [AmTx.segments, txList, retx]
    apply perm_iff_count.mpr
    intro other
    have wait := sends.waitList_perm.count_eq other
    simp only [count_append, count_cons] at wait ⊢
    omega
  · rw [bstatusTx, txList]
    exact accounts.bstatusTxSize
  · rw [bstatusRetx, retx, accounts.bstatusRetxSize, same, pduBytes_append, pduBytes_cons, pduBytes_cons, pduBytes_nil]
    omega

theorem number {rest : List SduSegment} (same : tx.txList = segment :: rest) :
    AmTx.Accounts cfg { tx with txList := tx.numbered segment :: rest } := by
  have fields : (tx.numbered segment).sdu = segment.sdu ∧ (tx.numbered segment).isFirst = segment.isFirst ∧
      (tx.numbered segment).isLast = segment.isLast ∧ (tx.numbered segment).size = segment.size := by
    unfold AmTx.numbered
    split <;> exact ⟨rfl, rfl, rfl, rfl⟩
  obtain ⟨owner, first, last, size⟩ := fields
  have owners : sdus (AmTx.segments { tx with txList := tx.numbered segment :: rest }) =
      sdus tx.segments := by
    simp [AmTx.segments, same, owner]
  refine ⟨?_, ?_, ?_, ?_, ?_, accounts.bstatusRetxSize⟩
  · rw [AmTx.Counted, owners]
    exact accounts.counted
  · rw [owners]
    exact accounts.fresh
  · have before := accounts.whole
    rw [AmTx.segments, same] at before
    have after : Whole ([tx.numbered segment] ++ (rest ++ (tx.waitList ++ tx.retransmitList))) := by
      apply before.exchange
      · simp [owner]
      · intro n member wasFirst wasLast
        rw [mem_singleton.mp member] at wasFirst wasLast ⊢
        exact ⟨first ▸ wasFirst, last ▸ wasLast, rfl⟩
    exact after
  · rw [sduBytes, owners]
    exact accounts.txSize
  · have before := accounts.bstatusTxSize
    rw [same, pduBytes_cons] at before
    rw [before, pduBytes_cons, size, computePduHeaderSize, computePduHeaderSize, first]

theorem generateTxPdu (made : tx.generateTxPdu cfg tCurrent size = some (pdu, next)) : next.Accounts cfg := by
  obtain ⟨segment, rest, sent, left, same, _, sends, _, txList, retx, bstatusTx, bstatusRetx, _⟩ :=
    generateTxPdu_cases made
  have numbered := accounts.number same
  have sends' : AmTx.Sends cfg { tx with txList := tx.numbered segment :: rest } next
      (tx.numbered segment) pdu sent left := { sends with }
  have before : (AmTx.segments { tx with txList := tx.numbered segment :: rest }).Perm
      (tx.numbered segment :: (rest ++ (tx.waitList ++ tx.retransmitList))) := .refl _
  refine numbered.send sends' before ?_ ?_ ?_
  · rw [AmTx.segments, txList, retx]
    apply perm_iff_count.mpr
    intro other
    have wait := sends.waitList_perm.count_eq other
    simp only [count_append, count_cons] at wait ⊢
    omega
  · rw [bstatusTx, txList, accounts.bstatusTxSize, same, pduBytes_append, pduBytes_cons, pduBytes_cons,
      pduBytes_nil]
    omega
  · rw [bstatusRetx, retx]
    exact accounts.bstatusRetxSize

theorem generateDataPdu (tCurrent size : Nat) : (tx.generateDataPdu cfg tCurrent size).2.Accounts cfg := by
  unfold AmTx.generateDataPdu
  split
  · rename_i result made
    exact accounts.generateRetxPdu made
  split
  · rename_i result made
    exact accounts.generateTxPdu made
  · exact accounts

theorem checkTPollRetransmit {result : AmTx × List AmEvent}
    (done : tx.checkTPollRetransmit cfg tCurrent = some result) : result.1.Accounts cfg := by
  obtain ⟨moved, wait, retx, counts, _, _, txList, created, txSize, bstatusTx, bstatusRetx, _⟩ :=
    checkTPollRetransmit_cases done
  have retxPerm : result.1.retransmitList.Perm (moved ++ tx.retransmitList) := by
    rw [retx]
    exact listAddAll_perm _ moved tx.retransmitList
  refine accounts.regroup ?_ ?_ created txSize ?_ ?_
  · rw [AmTx.segments, AmTx.segments, txList, wait]
    apply perm_iff_count.mpr
    intro other
    have listed := retxPerm.count_eq other
    simp only [count_append] at listed ⊢
    omega
  · funext ident
    obtain ⟨ref, freed⟩ := counts ident
    rw [AmTx.remaining, AmTx.remaining, ref, freed]
  · rw [bstatusTx, txList]
    exact accounts.bstatusTxSize
  · rw [bstatusRetx, pduBytes_perm retxPerm, pduBytes_append, accounts.bstatusRetxSize]
    omega

theorem enqueue (buffer : List Byte) (sduId : Int) : AmTx.Accounts cfg { tx with
      txSize := tx.txSize + buffer.length
      txList := tx.txList ++ [nrRlcNewSdu tx.created buffer sduId]
      bstatusTxSize := tx.bstatusTxSize +
        (computePduHeaderSize cfg (nrRlcNewSdu tx.created buffer sduId) +
          (nrRlcNewSdu tx.created buffer sduId).size)
      counts := update tx.counts tx.created {}
      created := tx.created + 1 } := by
  have absent : ∀ sdu ∈ sdus tx.segments, sdu.ident ≠ tx.created := by
    intro sdu member
    have below := accounts.fresh sdu member
    omega
  generalize new : nrRlcNewSdu tx.created buffer sduId = segment
  have ident : segment.sdu.ident = tx.created := by
    rw [← new]
    rfl
  have bytes : segment.sdu.data.length = buffer.length := by
    rw [← new]
    rfl
  have fresh : segment.sdu ∉ sdus tx.segments := by
    intro member
    exact absent segment.sdu member ident
  have perm : ((tx.txList ++ [segment]) ++ (tx.waitList ++ tx.retransmitList)).Perm
      (segment :: tx.segments) := by
    rw [append_assoc]
    exact perm_middle
  have owners := perm.map SduSegment.sdu
  refine ⟨?_, ?_, ?_, ?_, ?_, accounts.bstatusRetxSize⟩
  · have remaining : AmTx.remaining { tx with counts := update tx.counts tx.created {} } =
        update tx.remaining segment.sdu.ident 1 := by
      funext other
      unfold AmTx.remaining
      dsimp only
      rw [ident]
      by_cases here : other = tx.created
      · rw [here, update_self, update_self]
        rfl
      · rw [update_of_ne here, update_of_ne here]
    have counted : Shares.Counted Sdu.ident (update tx.remaining segment.sdu.ident 1)
        (segment.sdu :: sdus tx.segments) := accounts.counted.create (ident ▸ absent)
    rw [← remaining] at counted
    exact counted.perm owners.symm
  · intro sdu member
    rcases mem_cons.mp (owners.mem_iff.mp member) with here | there
    · rw [here, ident]
      exact Nat.lt_succ_self _
    · exact Nat.lt_succ_of_lt (accounts.fresh sdu there)
  · exact (accounts.whole.create fresh).perm perm.symm
  · have total : sduBytes (segment :: tx.segments) = segment.sdu.data.length + sduBytes tx.segments :=
      Shares.total_cons_of_notMem fresh
    dsimp only
    rw [AmTx.segments, sduBytes_perm perm, accounts.txSize]
    omega
  · dsimp only
    rw [pduBytes_append, pduBytes_cons, pduBytes_nil, accounts.bstatusTxSize]
    omega

end

theorem perm_eraseP {p : SduSegment → Bool} {list : List SduSegment}
    (found : list.find? p = some segment) : list.Perm (segment :: list.eraseP p) := by
  obtain ⟨holds, front, back, rfl, before⟩ := find?_eq_some_iff_append.mp found
  have erased : (front ++ segment :: back).eraseP p = front ++ back := by
    rw [eraseP_append_right _ (by simpa using before), eraseP_cons_of_pos holds]
  rw [erased]
  exact perm_middle

theorem discard (accounts : tx.Accounts cfg) {p : SduSegment → Bool}
    (found : tx.txList.find? p = some segment) (first : segment.isFirst = true)
    (last : segment.isLast = true) :
    AmTx.Accounts cfg { tx with
      txList := tx.txList.eraseP p
      bstatusTxSize := tx.bstatusTxSize - (computePduHeaderSize cfg segment + segment.size)
      txSize := tx.txSize - segment.sdu.data.length } := by
  have listPerm := perm_eraseP found
  have perm : tx.segments.Perm
      (segment :: (tx.txList.eraseP p ++ (tx.waitList ++ tx.retransmitList))) :=
    listPerm.append_right (tx.waitList ++ tx.retransmitList)
  have owners := perm.map SduSegment.sdu
  have alone := accounts.whole segment _ perm first last
  refine ⟨?_, ?_, (accounts.whole.perm perm).subperm (sublist_cons_self _ _).subperm, ?_, ?_, accounts.bstatusRetxSize⟩
  · exact (accounts.counted.perm owners).drop alone
  · intro sdu member
    exact accounts.fresh sdu (owners.mem_iff.mpr (mem_cons_of_mem _ member))
  · have total : sduBytes (segment :: (tx.txList.eraseP p ++ (tx.waitList ++ tx.retransmitList))) =
        segment.sdu.data.length + sduBytes (tx.txList.eraseP p ++ (tx.waitList ++ tx.retransmitList)) :=
      Shares.total_cons_of_notMem alone
    have before := accounts.txSize
    rw [sduBytes_perm perm] at before
    change tx.txSize - _ = sduBytes (tx.txList.eraseP p ++ (tx.waitList ++ tx.retransmitList))
    omega
  · dsimp only
    rw [accounts.bstatusTxSize, pduBytes_perm listPerm, pduBytes_cons]
    omega

theorem settle (accounts : tx.Accounts cfg) {status : StatusPdu}
    (settles : tx.Settles cfg (tx.processStatus cfg status)) :
    (tx.processStatus cfg status).1.Accounts cfg := by
  obtain ⟨left, same, result⟩ := tx.processStatus_result cfg status
  obtain ⟨_, _, _, _, rfl⟩ := same
  have created : (tx.processStatus cfg status).1.created = tx.created := by rw [result]
  have txList : (tx.processStatus cfg status).1.txList = tx.txList := by rw [result]
  have bstatusTx : (tx.processStatus cfg status).1.bstatusTxSize = tx.bstatusTxSize := by rw [result]
  refine ⟨settles.counted, ?_, accounts.whole.subperm settles.known, ?_, ?_, ?_⟩
  · intro sdu member
    obtain ⟨segment, listed, owner⟩ := mem_sdus.mp member
    rw [created]
    exact accounts.fresh sdu (mem_sdus.mpr ⟨segment, settles.known.subset listed, owner⟩)
  · have size := settles.txSize
    have before := accounts.txSize
    omega
  · rw [bstatusTx, txList]
    exact accounts.bstatusTxSize
  · have size := settles.retxSize
    have before := accounts.bstatusRetxSize
    omega

end AmTx.Accounts

/-- A report that loses no segment: in ordered lists with increasing NACKs nothing is cut off, or no
NACK for the SN of ACK_SN starts behind a segment of that SN in the retransmit list. -/
def AmTx.KeepsAll (cfg : AmConfig) (tx : AmTx) (status : StatusPdu) : Prop :=
  (tx.Sorted cfg ∧ tx.Increasing cfg status ∧ ∀ r ∈ tx.retransmitList, ¬ tx.CutOff cfg status r) ∨
    ∀ r ∈ tx.retransmitList, ∀ part ∈ status.parts cfg,
      r.sn = status.ackSn → part.sn = status.ackSn → part.soStart < (r.so + r.size : Nat)

instance (cfg : AmConfig) (tx : AmTx) (status : StatusPdu) : Decidable (tx.KeepsAll cfg status) :=
  inferInstanceAs (Decidable (_ ∨ _))

theorem AmTx.KeepsAll.settles {status : StatusPdu} (positive : 0 < cfg.snModulus)
    (space : tx.InSpace cfg.snModulus) (ackSpace : Within cfg.snModulus status.ackSn)
    (admitted : tx.admits cfg status = true) (keeps : tx.KeepsAll cfg status)
    (counted : tx.Counted tx.segments) : tx.Settles cfg (tx.processStatus cfg status) := by
  have fits := ((tx.admits_iff cfg status).mp admitted).2
  have partSpace := StatusPdu.parts_within positive status
  rcases keeps with ⟨sorted, increasing, spared⟩ | apart
  · apply tx.settles_of_uncut sorted fits _ counted
    intro r listed cuts
    exact spared r listed ((tx.cuts_iff space.nextAck positive ackSpace fits increasing
      (space.retransmitList r listed)).mp cuts)
  · let good (parts : List NackedPart) (s : ControlState) : Prop :=
      (∀ part ∈ parts, part ∈ status.parts cfg) ∧ tx.Accounted s.tx ∧ ∀ t ∈ s.retx, t ∈ tx.retransmitList
    apply AmTx.processStatus_settles good _ _ _ _ _ counted
    · intro part parts s next before move
      exact ⟨before.1, before.2.1.trans move.accounted,
        fun t member => before.2.2 t (move.retx_subset t member)⟩
    · intro part parts s before _
      exact ⟨fun other member => before.1 other (mem_cons_of_mem part member), before.2⟩
    · intro parts s before
      exact ⟨before.1, before.2.1.trans (.stopPoll s.tx), before.2.2⟩
    · intro part parts s before r rest current behind notAcked _
      obtain ⟨later, accounted, listed⟩ := before
      have member := later part mem_cons_self
      have inRetx := listed r (by simp [current.1])
      have notAfter := behind.2
      rw [accounted.snCompareTx cfg] at notAcked
      rw [accounted.isAfter_eq] at notAfter
      obtain ⟨atAck, partAtAck, after⟩ := starts_behind space.nextAck (partSpace part member)
        (space.retransmitList r inRetx) ackSpace (fits part member) notAcked behind.1 notAfter
      have before := apart r inRetx part member atAck partAtAck
      omega
    · obtain ⟨_, _, _, retx⟩ := tx.reportStart_lists cfg status.ackSn
      refine ⟨fun _ same => same, tx.reportStart_accounted cfg status.ackSn, ?_⟩
      rw [retx]
      exact fun _ same => same

inductive EntityOp where
  | data (op : DataOp)
  | reestablishment
deriving DecidableEq, Repr

def AmEntity.entityStep (entity : AmEntity) : EntityOp → Option AmEntity
  | .data op => entity.step (.data op)
  | .reestablishment => entity.step .reestablishment

def EntityOp.KeepsAll (entity : AmEntity) : EntityOp → Prop
  | .data (.recvPdu buffer) => ∀ status ∈ receivedStatus entity.cfg buffer,
      entity.tx.admits entity.cfg status = true → entity.tx.KeepsAll entity.cfg status
  | _ => True

structure AmEntity.TxBalanced (entity : AmEntity) : Prop where
  txSize : entity.tx.bstatusTxSize = pduBytes entity.cfg entity.tx.txList
  retxSize : entity.tx.bstatusRetxSize = pduBytes entity.cfg entity.tx.retransmitList
  buffered : entity.tx.txSize = sduBytes entity.tx.segments

structure AmEntity.Booked (entity : AmEntity) : Prop where
  sound : entity.cfg.Sound
  space : entity.InSpace
  accounts : entity.tx.Accounts entity.cfg

namespace AmEntity.Booked

variable {entity after : AmEntity}

theorem positive (booked : entity.Booked) : 0 < entity.cfg.snModulus := by
  have large := booked.sound.modulus_large
  omega

theorem dataStep (booked : entity.Booked) {op : DataOp}
    (keeps : EntityOp.KeepsAll entity (.data op)) (taken : entity.dataStep op = some after) :
    after.tx.Accounts entity.cfg := by
  obtain ⟨_, _, move⟩ := dataStep_moves taken
  have accounts := booked.accounts
  generalize after.tx = tx at move
  cases move with
  | keep => exact accounts
  | enqueue buffer sduId => exact accounts.enqueue buffer sduId
  | discard sduId segment found first last => exact accounts.discard found first last
  | send size => exact accounts.generateDataPdu entity.tCurrent size
  | report buffer status received admitted =>
    apply accounts.settle
    exact (keeps status received admitted).settles booked.positive booked.space.tx
      (receivedStatus_ackSn booked.sound.modulus received) admitted accounts.counted
  | time now result polled => exact accounts.checkTPollRetransmit polled

theorem step (entity : AmEntity) (op : EntityOp) (after : AmEntity) (booked : entity.Booked)
    (keeps : op.KeepsAll entity) (taken : entity.entityStep op = some after) : after.Booked := by
  cases op with
  | data op =>
    obtain ⟨same, space⟩ := booked.space.dataStep booked.positive booked.sound.modulus taken
    refine ⟨same ▸ booked.sound, space, ?_⟩
    rw [same]
    exact booked.dataStep keeps taken
  | reestablishment =>
    cases taken
    exact ⟨booked.sound, .initial booked.positive _, .initial entity.cfg _⟩

end AmEntity.Booked

/-- In every run in which no report loses a segment, the accounts of the sender are right after
every operation. -/
theorem tx_accounts_kept {rxMaxsize txMaxsize : Int} {params : AmParams} {snFieldLength : Nat}
    {entity : AmEntity} (created : newNrRlcEntityAm rxMaxsize txMaxsize params snFieldLength = some entity)
    (ops : List EntityOp) (keeps : Steps AmEntity.entityStep (fun entity op => op.KeepsAll entity) entity ops) :
    Along AmEntity.entityStep AmEntity.TxBalanced entity ops := by
  obtain ⟨sound, rx, fresh, _⟩ := newNrRlcEntityAm_sound created
  have positive : 0 < entity.cfg.snModulus := by
    have large := sound.modulus_large
    omega
  have start : entity.Booked := by
    have space := AmEntity.InSpace.initial positive 0
    refine ⟨sound, ⟨?_, ?_⟩, ?_⟩
    · rw [rx]
      exact space.rx
    · rw [fresh]
      exact space.tx
    · rw [fresh]
      exact .initial entity.cfg 0
  have booked := invariant_along AmEntity.Booked.step entity ops start keeps
  intro front inside middle reached
  have here := (booked front inside middle reached).accounts
  exact ⟨here.bstatusTxSize, here.bstatusRetxSize, here.txSize⟩

instance (entity : AmEntity) (op : EntityOp) : Decidable (op.KeepsAll entity) :=
  match op with
  | .data (.recvPdu buffer) => inferInstanceAs (Decidable (∀ status ∈ receivedStatus entity.cfg buffer,
      entity.tx.admits entity.cfg status = true → entity.tx.KeepsAll entity.cfg status))
  | .data (.recvSdu _ _) | .data (.discardSdu _) | .data (.generatePdu _) | .data (.setTime _) =>
    isTrue trivial
  | .reestablishment => isTrue trivial

instance (entity : AmEntity) : Decidable entity.TxBalanced :=
  decidable_of_iff (entity.tx.bstatusTxSize = pduBytes entity.cfg entity.tx.txList ∧
      entity.tx.bstatusRetxSize = pduBytes entity.cfg entity.tx.retransmitList ∧
      entity.tx.txSize = sduBytes entity.tx.segments)
    ⟨fun all => ⟨all.1, all.2.1, all.2.2⟩, fun balanced => ⟨balanced.txSize, balanced.retxSize,
      balanced.buffered⟩⟩

def resentOps : List EntityOp :=
  [.data (.recvSdu (replicate 40 7) 0), .data (.generatePdu 22), .data (.generatePdu 100),
    .data (.recvPdu [0, 1, 0x80, 0, 0x04, 0, 0x14, 0, 0x27]), .data (.generatePdu 100),
    .data (.recvPdu [0, 1, 0]), .reestablishment]

theorem tx_accounts_resent :
    ∃ entity, newNrRlcEntityAm 100000 100000 defaultAmParams 12 = some entity ∧
      Along AmEntity.entityStep AmEntity.TxBalanced entity resentOps :=
  ⟨_, rfl, @tx_accounts_kept 100000 100000 defaultAmParams 12 _ rfl resentOps
    (steps_of_check (by decide +kernel))⟩

/-- After the report that empties the retransmit list, the buffer status still counts it. -/
theorem tx_accounts_lost :
    ∃ start entity, newNrRlcEntityAm 100000 100000 defaultAmParams 12 = some start ∧
      run AmEntity.entityStep start
        ((nackedOps ++ [DataOp.recvPdu cuttingReport]).map EntityOp.data) = some entity ∧
      entity.tx.retransmitList = [] ∧ entity.tx.bstatusRetxSize = 46 ∧ ¬ entity.TxBalanced :=
  reached_of_check _ (by decide) (fun _ => id)

end OranSlice.Rlc
