import OranSlice.Rlc.AmControl

/-! What the loop over the NACKs of a status report does to the lists, described once by its moves. -/

namespace OranSlice.Rlc

open List

variable {cfg : AmConfig} {ackSn : Int}

def StatusPdu.parts (cfg : AmConfig) (status : StatusPdu) : List NackedPart :=
  status.nacks.flatMap (Nack.expand cfg)

theorem AmTx.admits_iff (cfg : AmConfig) (tx : AmTx) (status : StatusPdu) :
    tx.admits cfg status = true ↔ tx.snCompareTx cfg status.ackSn tx.txNext ≤ 0 ∧
      ∀ part ∈ status.parts cfg, tx.snCompareTx cfg part.sn status.ackSn ≤ 0 := by
  unfold AmTx.admits StatusPdu.parts
  simp only [Bool.and_eq_true, Bool.not_eq_true', decide_eq_false_iff_not, all_eq_true, not_lt]

def AmTx.Accounted (old new : AmTx) : Prop :=
  ∃ counts txSize retxSize start, new = { old with
    counts := counts, txSize := txSize, bstatusRetxSize := retxSize, tPollRetransmitStart := start }

namespace AmTx.Accounted

theorem refl (tx : AmTx) : tx.Accounted tx := ⟨_, _, _, _, rfl⟩

theorem trans {first second third : AmTx} (left : first.Accounted second)
    (right : second.Accounted third) : first.Accounted third := by
  obtain ⟨_, _, _, _, rfl⟩ := left
  obtain ⟨counts, txSize, retxSize, start, rfl⟩ := right
  exact ⟨counts, txSize, retxSize, start, rfl⟩

theorem freeSegment (tx : AmTx) (segment : SduSegment) : tx.Accounted (tx.freeSegment segment).1 := by
  unfold AmTx.freeSegment
  dsimp only
  split <;> exact ⟨_, _, _, _, rfl⟩

theorem countRetx (cfg : AmConfig) (tx : AmTx) (segment : SduSegment) :
    tx.Accounted (tx.countRetx cfg segment).1 := ⟨_, _, _, _, rfl⟩

theorem freeRetx (cfg : AmConfig) (tx : AmTx) (segment : SduSegment) :
    tx.Accounted (tx.freeRetx cfg segment).1 := by
  have shrunk : tx.Accounted { tx with bstatusRetxSize :=
      tx.bstatusRetxSize - (computePduHeaderSize cfg segment + segment.size) } := ⟨_, _, _, _, rfl⟩
  exact trans shrunk (freeSegment _ segment)

theorem stopPoll (tx : AmTx) : tx.Accounted { tx with tPollRetransmitStart := 0 } := ⟨_, _, _, _, rfl⟩

theorem snCompareTx {old new : AmTx} (cfg : AmConfig) (same : old.Accounted new) :
    new.snCompareTx cfg = old.snCompareTx cfg := by
  obtain ⟨_, _, _, _, rfl⟩ := same
  rfl

end AmTx.Accounted

namespace ControlState

variable {s next : ControlState} {part : NackedPart} {segment : SduSegment} {rest : List SduSegment}

def CurrentWait (cfg : AmConfig) (s : ControlState) (segment : SduSegment) (rest : List SduSegment) :
    Prop :=
  s.wait = segment :: rest ∧ ∀ other ∈ s.retx.head?, s.tx.waitFirst cfg segment other = true

def CurrentRetx (cfg : AmConfig) (s : ControlState) (segment : SduSegment) (rest : List SduSegment) :
    Prop :=
  s.retx = segment :: rest ∧ ∀ other ∈ s.wait.head?, s.tx.waitFirst cfg other segment = false

def Behind (cfg : AmConfig) (s : ControlState) (part : NackedPart) (segment : SduSegment) : Prop :=
  part.overlaps segment = false ∧ s.tx.isAfter cfg segment part = false

inductive NackMove (cfg : AmConfig) (ackSn : Int) (part : NackedPart) (s : ControlState) :
    ControlState → Prop
  | nackWait (segment : SduSegment) (rest : List SduSegment) (current : s.CurrentWait cfg segment rest)
      (hit : part.overlaps segment = true) :
      NackMove cfg ackSn part s { s with
        wait := rest, kept := s.kept ++ [segment], tx := (s.tx.countRetx cfg segment).1
        events := s.events ++ (s.tx.countRetx cfg segment).2 }
  | freeWait (segment : SduSegment) (rest : List SduSegment) (current : s.CurrentWait cfg segment rest)
      (behind : s.Behind cfg part segment) (acked : s.tx.snCompareTx cfg segment.sn ackSn < 0) :
      NackMove cfg ackSn part s { s with
        wait := rest, tx := (s.tx.freeSegment segment).1
        events := s.events ++ (s.tx.freeSegment segment).2 }
  | passAll (segment : SduSegment) (rest : List SduSegment) (current : s.CurrentWait cfg segment rest)
      (behind : s.Behind cfg part segment) (beyond : s.tx.snCompareTx cfg segment.sn ackSn > 0) :
      NackMove cfg ackSn part s { s with passed := s.passed ++ segment :: rest, wait := [] }
  | pass (segment : SduSegment) (rest : List SduSegment) (current : s.CurrentWait cfg segment rest)
      (behind : s.Behind cfg part segment) (border : s.tx.snCompareTx cfg segment.sn ackSn = 0) :
      NackMove cfg ackSn part s { s with passed := s.passed ++ [segment], wait := rest }
  | nackRetx (segment : SduSegment) (rest : List SduSegment) (current : s.CurrentRetx cfg segment rest)
      (hit : part.overlaps segment = true) :
      NackMove cfg ackSn part s { s with retx := rest, kept := s.kept ++ [segment] }
  | freeRetx (segment : SduSegment) (rest : List SduSegment) (current : s.CurrentRetx cfg segment rest)
      (behind : s.Behind cfg part segment) (acked : s.tx.snCompareTx cfg segment.sn ackSn < 0) :
      NackMove cfg ackSn part s { s with
        retx := rest, tx := (s.tx.freeRetx cfg segment).1
        events := s.events ++ (s.tx.freeRetx cfg segment).2 }
  | cutRetx (segment : SduSegment) (rest : List SduSegment) (current : s.CurrentRetx cfg segment rest)
      (behind : s.Behind cfg part segment) (notAcked : ¬ s.tx.snCompareTx cfg segment.sn ackSn < 0)
      (done : s.wait = []) :
      NackMove cfg ackSn part s { s with retx := [] }
  | keepRetx (segment : SduSegment) (rest : List SduSegment) (current : s.CurrentRetx cfg segment rest)
      (behind : s.Behind cfg part segment) (notAcked : ¬ s.tx.snCompareTx cfg segment.sn ackSn < 0)
      (more : s.wait ≠ []) :
      NackMove cfg ackSn part s { s with retx := rest, kept := s.kept ++ [segment] }

theorem behind (missed : ¬ part.overlaps segment) (notAfter : ¬ s.tx.isAfter cfg segment part) :
    s.Behind cfg part segment := ⟨by simpa using missed, by simpa using notAfter⟩

theorem waitHead_move (current : s.CurrentWait cfg segment rest)
    (taken : s.waitHead cfg ackSn part segment rest = some next) : NackMove cfg ackSn part s next := by
  unfold waitHead at taken
  split_ifs at taken with hit after acked beyond <;> cases taken
  · exact .nackWait segment rest current hit
  · exact .freeWait segment rest current (behind hit after) acked
  · exact .passAll segment rest current (behind hit after) beyond
  · exact .pass segment rest current (behind hit after) (by omega)

theorem waitHead_stop (stuck : s.waitHead cfg ackSn part segment rest = none) :
    part.overlaps segment = false ∧ s.tx.isAfter cfg segment part = true := by
  unfold waitHead at stuck
  split_ifs at stuck with hit after
  exact ⟨by simpa using hit, after⟩

theorem retxHead_move (current : s.CurrentRetx cfg segment rest)
    (taken : s.retxHead cfg ackSn part segment rest = some next) : NackMove cfg ackSn part s next := by
  unfold retxHead at taken
  split_ifs at taken with hit after acked done <;> cases taken
  · exact .nackRetx segment rest current hit
  · exact .freeRetx segment rest current (behind hit after) acked
  · exact .cutRetx segment rest current (behind hit after) acked done
  · exact .keepRetx segment rest current (behind hit after) acked done

theorem retxHead_stop (stuck : s.retxHead cfg ackSn part segment rest = none) :
    part.overlaps segment = false ∧ s.tx.isAfter cfg segment part = true := by
  unfold retxHead at stuck
  split_ifs at stuck with hit after
  exact ⟨by simpa using hit, after⟩

theorem nackStep_move (taken : s.nackStep cfg ackSn part = some next) : NackMove cfg ackSn part s next := by
  unfold nackStep at taken
  split at taken
  · cases taken
  · rename_i waits same none
    exact waitHead_move ⟨same, by simp [none]⟩ taken
  · rename_i retxs none same
    exact retxHead_move ⟨same, by simp [none]⟩ taken
  · rename_i wait waits retx retxs sameWait sameRetx
    split_ifs at taken with first
    · exact waitHead_move ⟨sameWait, by simpa [sameRetx] using first⟩ taken
    · exact retxHead_move ⟨sameRetx, by simpa [sameWait] using first⟩ taken

theorem nackStep_stop (stuck : s.nackStep cfg ackSn part = none) :
    (s.wait = [] ∧ s.retx = []) ∨ ∃ segment rest,
      (s.CurrentWait cfg segment rest ∨ s.CurrentRetx cfg segment rest) ∧
        part.overlaps segment = false ∧ s.tx.isAfter cfg segment part = true := by
  unfold nackStep at stuck
  split at stuck
  · rename_i sameWait sameRetx
    exact .inl ⟨sameWait, sameRetx⟩
  · rename_i wait waits same none
    exact .inr ⟨wait, waits, .inl ⟨same, by simp [none]⟩, waitHead_stop stuck⟩
  · rename_i retx retxs none same
    exact .inr ⟨retx, retxs, .inr ⟨same, by simp [none]⟩, retxHead_stop stuck⟩
  · rename_i wait waits retx retxs sameWait sameRetx
    split_ifs at stuck with first
    · exact .inr ⟨wait, waits, .inl ⟨sameWait, by simpa [sameRetx] using first⟩, waitHead_stop stuck⟩
    · exact .inr ⟨retx, retxs, .inr ⟨sameRetx, by simpa [sameWait] using first⟩, retxHead_stop stuck⟩

theorem NackMove.shorter (move : NackMove cfg ackSn part s next) :
    next.wait.length + next.retx.length < s.wait.length + s.retx.length := by
  cases move with
  | nackWait segment rest current _ | freeWait segment rest current _ _ | passAll segment rest current _ _
  | pass segment rest current _ _ | nackRetx segment rest current _ | freeRetx segment rest current _ _
  | cutRetx segment rest current _ _ _ | keepRetx segment rest current _ _ _ => simp [current.1]

theorem NackMove.retx_subset (move : NackMove cfg ackSn part s next) : ∀ t ∈ next.retx, t ∈ s.retx := by
  intro t member
  cases move with
  | nackWait | freeWait | passAll | pass => exact member
  | nackRetx segment rest current _ | freeRetx segment rest current _ _
  | keepRetx segment rest current _ _ _ =>
    rw [current.1]
    exact mem_cons_of_mem segment member
  | cutRetx => cases member

section Rule

variable (good : List NackedPart → ControlState → Prop)
  (moves : ∀ part parts s next, good (part :: parts) s → NackMove cfg ackSn part s next →
    good (part :: parts) next)
  (stops : ∀ part parts s, good (part :: parts) s → s.nackStep cfg ackSn part = none → good parts s)
  (stopsPoll : ∀ parts s, good parts s →
    good parts { s with tx := { s.tx with tPollRetransmitStart := 0 } })

include moves stops in
theorem processPart_good (part : NackedPart) (parts : List NackedPart) (fuel : Nat) (s : ControlState)
    (enough : s.wait.length + s.retx.length ≤ fuel) (start : good (part :: parts) s) :
    good parts (s.processPart cfg ackSn part fuel) := by
  induction fuel generalizing s with
  | zero =>
    have noWait : s.wait = [] := length_eq_zero_iff.mp (by omega)
    have noRetx : s.retx = [] := length_eq_zero_iff.mp (by omega)
    apply stops part parts s start
    simp [nackStep, noWait, noRetx]
  | succ fuel ih =>
    rw [processPart]
    cases taken : s.nackStep cfg ackSn part with
    | none => exact stops part parts s start taken
    | some next =>
      have move := nackStep_move taken
      have shorter := move.shorter
      exact ih next (by omega) (moves part parts s next start move)

include moves stops in
theorem processParts_good (front back : List NackedPart) (s : ControlState) (start : good (front ++ back) s) :
    good back (front.foldl
      (fun s part => s.processPart cfg ackSn part (s.wait.length + s.retx.length)) s) := by
  induction front generalizing s with
  | nil => exact start
  | cons part rest ih =>
    exact ih _ (processPart_good good moves stops part (rest ++ back) _ s le_rfl start)

include moves stops stopsPoll in
theorem processNacks_good (nacks : List Nack) (s : ControlState)
    (start : good (nacks.flatMap (Nack.expand cfg)) s) : good [] (nacks.foldl (processNack cfg ackSn) s) := by
  induction nacks generalizing s with
  | nil => exact start
  | cons nack rest ih =>
    have after := processParts_good good moves stops (nack.expand cfg) (rest.flatMap (Nack.expand cfg)) s start
    apply ih
    unfold processNack
    dsimp only
    split
    · exact stopsPoll _ _ after
    · exact after

end Rule

theorem NackMove.accounted (move : NackMove cfg ackSn part s next) : s.tx.Accounted next.tx := by
  cases move with
  | nackWait segment rest _ _ => exact .countRetx cfg s.tx segment
  | freeWait segment rest _ _ _ => exact .freeSegment s.tx segment
  | freeRetx segment rest _ _ _ => exact .freeRetx cfg s.tx segment
  | passAll | pass | nackRetx | cutRetx | keepRetx => exact .refl s.tx

structure Follows (tx : AmTx) (s : ControlState) : Prop where
  accounted : tx.Accounted s.tx
  wait : (s.passed ++ s.wait).Sublist tx.waitList
  retx : ∀ segment ∈ s.kept ++ s.retx, segment ∈ tx.waitList ∨ segment ∈ tx.retransmitList

theorem Follows.move {tx : AmTx} (before : Follows tx s) (move : NackMove cfg ackSn part s next) :
    Follows tx next := by
  have accounted := before.accounted.trans move.accounted
  have wait := before.wait
  have retx := before.retx
  cases move with
  | nackWait segment rest current _ =>
    rw [current.1] at wait
    have waiting : segment ∈ tx.waitList := wait.subset (by simp)
    refine ⟨accounted, (((sublist_cons_self segment rest).append_left _).trans wait), ?_⟩
    intro other member
    rcases mem_append.mp member with inKept | inRetx
    · rcases mem_append.mp inKept with inKept | new
      · exact retx other (mem_append_left _ inKept)
      · rw [mem_singleton.mp new]
        exact .inl waiting
    · exact retx other (mem_append_right _ inRetx)
  | freeWait segment rest current _ _ =>
    rw [current.1] at wait
    exact ⟨accounted, ((sublist_cons_self segment rest).append_left _).trans wait, retx⟩
  | passAll segment rest current _ _ | pass segment rest current _ _ =>
    rw [current.1] at wait
    exact ⟨accounted, by simpa using wait, retx⟩
  | nackRetx segment rest current _ | keepRetx segment rest current _ _ _ =>
    rw [current.1] at retx
    exact ⟨accounted, wait, by simpa using retx⟩
  | freeRetx segment rest current _ _ =>
    rw [current.1] at retx
    refine ⟨accounted, wait, ?_⟩
    intro other member
    apply retx other
    exact ((sublist_cons_self segment rest).append_left _).subset member
  | cutRetx segment rest current _ _ _ =>
    refine ⟨accounted, wait, ?_⟩
    intro other member
    apply retx other
    exact mem_append_left _ (by simpa using member)

end ControlState

variable {free : AmTx → SduSegment → AmTx × List AmEvent} {m : Int} {tx : AmTx}

theorem freeAcked_eq (cfg : AmConfig) (ackSn : Int)
    (accounted : ∀ tx segment, AmTx.Accounted tx (free tx segment).1) (list : List SduSegment) (tx : AmTx) :
    tx.Accounted (freeAcked cfg ackSn free list tx).2.1 ∧ (freeAcked cfg ackSn free list tx).1 =
        list.dropWhile (fun segment => decide (tx.snCompareTx cfg segment.sn ackSn < 0)) := by
  induction list generalizing tx with
  | nil => exact ⟨.refl tx, rfl⟩
  | cons segment rest ih =>
    unfold freeAcked
    split_ifs with acked
    · have first := accounted tx segment
      obtain ⟨later, left⟩ := ih (free tx segment).1
      rw [first.snCompareTx cfg] at left
      refine ⟨first.trans later, ?_⟩
      rw [dropWhile_cons_of_pos (by simpa using acked)]
      exact left
    · exact ⟨.refl tx, by rw [dropWhile_cons_of_neg (by simpa using acked)]⟩

theorem freeAcked_good (cfg : AmConfig) (ackSn : Int) (good : List SduSegment → AmTx → List AmEvent → Prop)
    (frees : ∀ segment rest tx events, good (segment :: rest) tx events →
      good rest (free tx segment).1 (events ++ (free tx segment).2))
    (list : List SduSegment) (tx : AmTx) (events : List AmEvent) (start : good list tx events) :
    good (freeAcked cfg ackSn free list tx).1 (freeAcked cfg ackSn free list tx).2.1
      (events ++ (freeAcked cfg ackSn free list tx).2.2) := by
  induction list generalizing tx events with
  | nil =>
    rw [freeAcked, append_nil]
    exact start
  | cons segment rest ih =>
    unfold freeAcked
    split
    · have later := ih _ _ (frees segment rest tx events start)
      rw [append_assoc] at later
      exact later
    · rw [append_nil]
      exact start

def AmTx.reportStart (cfg : AmConfig) (tx : AmTx) (ackSn : Int) : ControlState :=
  let tx := if tx.snCompareTx cfg tx.pollSn ackSn < 0 then { tx with tPollRetransmitStart := 0 } else tx
  ⟨[], tx.waitList, [], tx.retransmitList, tx, []⟩

def AmTx.afterNacks (cfg : AmConfig) (tx : AmTx) (status : StatusPdu) : ControlState :=
  status.nacks.foldl (ControlState.processNack cfg status.ackSn) (tx.reportStart cfg status.ackSn)

theorem AmTx.reportStart_accounted (cfg : AmConfig) (ackSn : Int) (tx : AmTx) :
    tx.Accounted (tx.reportStart cfg ackSn).tx := by
  unfold AmTx.reportStart
  split
  · exact .stopPoll tx
  · exact .refl tx

theorem AmTx.reportStart_lists (cfg : AmConfig) (ackSn : Int) (tx : AmTx) :
    (tx.reportStart cfg ackSn).passed = [] ∧ (tx.reportStart cfg ackSn).wait = tx.waitList ∧
      (tx.reportStart cfg ackSn).kept = [] ∧ (tx.reportStart cfg ackSn).retx = tx.retransmitList := by
  unfold AmTx.reportStart
  split <;> exact ⟨rfl, rfl, rfl, rfl⟩

theorem AmTx.afterNacks_follows (cfg : AmConfig) (tx : AmTx) (status : StatusPdu) :
    ControlState.Follows tx (tx.afterNacks cfg status) := by
  apply ControlState.processNacks_good (fun _ s => ControlState.Follows tx s)
  · intro part parts s next before move
    exact before.move move
  · intro part parts s before _
    exact before
  · intro parts s before
    exact ⟨before.accounted.trans (.stopPoll s.tx), before.wait, before.retx⟩
  · obtain ⟨passed, wait, kept, retx⟩ := tx.reportStart_lists cfg status.ackSn
    refine ⟨tx.reportStart_accounted cfg status.ackSn, ?_, ?_⟩
    · rw [wait]
      exact List.Sublist.refl _
    · intro segment member
      rw [retx] at member
      exact .inr member

theorem AmTx.processStatus_result (cfg : AmConfig) (tx : AmTx) (status : StatusPdu) :
    ∃ left : AmTx, tx.Accounted left ∧ (tx.processStatus cfg status).1 =
      let acked (segment : SduSegment) : Bool := decide (tx.snCompareTx cfg segment.sn status.ackSn < 0)
      let left := { left with
        waitList := (tx.afterNacks cfg status).passed ++ (tx.afterNacks cfg status).wait.dropWhile acked
        retransmitList := (tx.afterNacks cfg status).kept ++ (tx.afterNacks cfg status).retx.dropWhile acked }
      { left with txNextAck := left.nextAck cfg status.ackSn } := by
  have follows := tx.afterNacks_follows cfg status
  obtain ⟨first, wait⟩ := freeAcked_eq cfg status.ackSn AmTx.Accounted.freeSegment
    (tx.afterNacks cfg status).wait (tx.afterNacks cfg status).tx
  obtain ⟨second, retx⟩ := freeAcked_eq cfg status.ackSn
    (AmTx.Accounted.freeRetx cfg) (tx.afterNacks cfg status).retx
    (freeAcked cfg status.ackSn AmTx.freeSegment (tx.afterNacks cfg status).wait
      (tx.afterNacks cfg status).tx).2.1
  rw [first.snCompareTx cfg, follows.accounted.snCompareTx cfg] at retx
  rw [follows.accounted.snCompareTx cfg] at wait
  refine ⟨_, (follows.accounted.trans first).trans second, ?_⟩
  dsimp only
  rw [← wait, ← retx]
  rfl

theorem AmTx.nextAck_within (next : Window.Within m tx.txNext)
    (wait : ∀ segment ∈ tx.waitList, Window.Within m segment.sn)
    (retx : ∀ segment ∈ tx.retransmitList, Window.Within m segment.sn) (ack : Window.Within m ackSn) :
    Window.Within m (tx.nextAck cfg ackSn) := by
  have heads : ∀ list : List SduSegment, (∀ segment ∈ list, Window.Within m segment.sn) →
      ∀ sn ∈ list.head?.map SduSegment.sn, Window.Within m sn := by
    intro list fits sn member
    obtain ⟨segment, head, rfl⟩ := Option.mem_map.mp member
    exact fits segment (mem_of_mem_head? head)
  have lower : ∀ (sn : Option Int) (bound : Int), (∀ found ∈ sn, Window.Within m found) →
      Window.Within m bound → Window.Within m (tx.lowerSn cfg sn bound) := by
    intro sn bound found fits
    cases sn with
    | none => exact fits
    | some sn =>
      rw [AmTx.lowerSn]
      split
      · exact found sn rfl
      · exact fits
  unfold AmTx.nextAck
  apply lower
  · intro found same
    rw [← Option.some.inj same]
    exact ack
  · apply lower _ _ (heads tx.retransmitList retx)
    exact lower _ _ (heads tx.waitList wait) next

end OranSlice.Rlc
