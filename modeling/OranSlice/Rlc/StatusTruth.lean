import OranSlice.Rlc.RxHistory
import OranSlice.Rlc.StatusWalk

/-! Status reports are truthful: what they acknowledge has been received. -/

namespace OranSlice.Rlc

open BitCodec Window List

variable {cfg : AmConfig} {rx : AmRx} {done : Int → Nat → Prop} {list : List Pdu} {sn : Int} {k : Nat}

def AmRx.Accounted (cfg : AmConfig) (rx : AmRx) (wires : List WireNack) (sn : Int) (k : Nat) : Prop :=
  Holds rx.rxList sn k ∨ Nacked cfg (readNacks cfg wires) sn k

namespace AmRx.MissingPart

variable {m : MissingData}

section

variable (part : rx.MissingPart cfg done list m)

include part

theorem count_eq (ok : rx.ListOk cfg) :
    (m.snCount cfg : Int) = rx.modulusRx cfg m.snEnd - rx.modulusRx cfg m.snStart + 1 := by
  have ordered := part.ordered
  have steps := sub_mod_eq ok.space.next part.encodable.start part.encodable.stop ordered
  unfold MissingData.snCount
  unfold AmRx.modulusRx at *
  omega

theorem distance_snAt (ok : rx.ListOk cfg) {j : Nat}
    (inside : j ≤ m.snCount cfg) : rx.modulusRx cfg (m.snAt cfg j) = rx.modulusRx cfg m.snStart + j := by
  have count := part.count_eq ok
  have reported := part.reported
  have high : rx.modulusRx cfg rx.rxHighestStatus < cfg.snModulus :=
    (distance_bounds ok.space.next ok.space.highestStatus).2
  refine distance_shift ok.space.next part.encodable.start (by omega) ?_
  change rx.modulusRx cfg m.snStart + j < cfg.snModulus
  omega

theorem index (ok : rx.ListOk cfg) (fits : Within cfg.snModulus sn)
    (start : ¬ rx.Precedes cfg sn k m.snStart m.soStart) :
    ∃ j : Nat, rx.modulusRx cfg sn = rx.modulusRx cfg m.snStart + j ∧
      (j ≤ m.snCount cfg → m.snAt cfg j = sn) ∧ (j = 0 → m.soStart ≤ k) := by
  unfold AmRx.Precedes at start
  have place : rx.modulusRx cfg sn =
      rx.modulusRx cfg m.snStart + ((rx.modulusRx cfg sn - rx.modulusRx cfg m.snStart).toNat : Nat) := by
    omega
  refine ⟨(rx.modulusRx cfg sn - rx.modulusRx cfg m.snStart).toNat, place, ?_, ?_⟩
  · intro inside
    have positive : 0 < cfg.snModulus := lt_of_le_of_lt fits.1 fits.2
    apply (distance_inj ok.space.next (within_mod positive _) fits).mp
    exact (part.distance_snAt ok inside).trans place.symm
  · intro zero
    have same : sn = m.snStart := by
      apply (distance_inj ok.space.next fits part.encodable.start).mp
      change rx.modulusRx cfg sn = rx.modulusRx cfg m.snStart
      omega
    by_contra below
    exact start (.inr ⟨same, by omega⟩)

theorem next_suffix : m.next <:+ list := by
  rcases part.next with ⟨stopped, _⟩ | ⟨cur, rest, goesOn, inside, _⟩
  · rw [stopped]
    exact nil_suffix
  · rw [goesOn]
    exact inside

end

end AmRx.MissingPart

namespace AmRx

def Done (cfg : AmConfig) (rx : AmRx) (checkHead : Bool) : List Pdu → Int → Nat → Prop
  | [], sn, _ => rx.modulusRx cfg sn < rx.modulusRx cfg rx.rxHighestStatus
  | cur :: _, sn, k => checkHead = false ∧ rx.Precedes cfg sn k cur.sn cur.so

def ackDistance (cfg : AmConfig) (rx : AmRx) (lastNack : Int) : Int :=
  rx.modulusRx cfg ((lastNack + 1) % cfg.snModulus)

structure Progress (cfg : AmConfig) (rx : AmRx) (wires : List WireNack) (lastNack : Int)
    (done : Int → Nat → Prop) : Prop where
  reported : ∀ sn k, Within cfg.snModulus sn → done sn k → rx.Accounted cfg wires sn k
  cut : ∀ sn k, Within cfg.snModulus sn → rx.modulusRx cfg sn < rx.ackDistance cfg lastNack →
    done sn k ∨ rx.Accounted cfg (cutLast wires) sn k
  bound : rx.ackDistance cfg lastNack ≤ rx.modulusRx cfg rx.rxHighestStatus

def Truthful (cfg : AmConfig) (rx : AmRx) (wires : List WireNack) (lastNack : Int) : Prop :=
  ∀ sn k, Within cfg.snModulus sn → rx.modulusRx cfg sn < rx.ackDistance cfg lastNack →
    rx.Accounted cfg wires sn k

variable {wires added : List WireNack} {m : MissingData} {lastNack : Int}

theorem Accounted.append (accounted : rx.Accounted cfg wires sn k) (added : List WireNack) :
    rx.Accounted cfg (wires ++ added) sn k := by
  refine accounted.imp_right (fun nacked => ?_)
  rw [readNacks, map_append, nacked_append]
  exact .inl nacked

theorem Accounted.cutLast (accounted : rx.Accounted cfg wires sn k) :
    rx.Accounted cfg (Rlc.cutLast wires) sn k :=
  accounted.imp_right nacked_cutLast

section

variable (part : rx.MissingPart cfg done list m) (ok : rx.ListOk cfg) (progress : rx.Progress cfg wires lastNack done)

include part ok progress

variable {stop : Nat} {result : Generated}

theorem MissingPart.accounted
    (written : m.Written cfg wires added 0 stop none result) (fits : Within cfg.snModulus sn)
    (upTo : rx.modulusRx cfg sn < rx.modulusRx cfg m.snStart + stop)
    (last : rx.modulusRx cfg sn = rx.modulusRx cfg m.snEnd → stop = m.snCount cfg →
      m.soEnd = soEndOfSdu ∨ k ≤ m.soEnd) : rx.Accounted cfg (wires ++ added) sn k := by
  by_cases dealt : done sn k
  · exact (progress.reported sn k fits dealt).append added
  by_cases before : rx.Precedes cfg sn k m.snStart m.soStart
  · exact .inl (part.held sn k fits dealt before)
  obtain ⟨j, place, at_, start⟩ := part.index ok fits before
  have count := part.count_eq ok
  have stopBound := written.high
  right
  rw [readNacks, map_append, nacked_append, ← at_ (by omega)]
  refine .inr (written.nacked j k (Nat.zero_le j) (by omega) start (fun final => last ?_ ?_)) <;> omega

theorem Progress.whole (written : m.Written cfg wires added 0 (m.snCount cfg) none result) :
    rx.Progress cfg (wires ++ added) (result.lastNack.getD lastNack) (rx.Done cfg false m.next) := by
  have count := part.count_eq ok
  have reported := part.reported
  have ordered := part.ordered
  have ack : rx.ackDistance cfg (result.lastNack.getD lastNack) = rx.modulusRx cfg m.snEnd + 1 := by
    obtain ⟨sn, same, ahead⟩ := written.last (by omega)
    rw [ackDistance, same, Option.getD_some, ahead, part.distance_snAt ok (le_refl _)]
    omega
  refine ⟨?_, ?_, by omega⟩
  · intro sn k fits dealt
    rcases part.next with ⟨stopped, toEnd, final⟩ | ⟨cur, rest, goesOn, _, place⟩
    · rw [stopped] at dealt
      change rx.modulusRx cfg sn < _ at dealt
      exact part.accounted ok progress written fits (by omega) (fun _ _ => .inl toEnd)
    rw [goesOn] at dealt
    have before := dealt.2
    unfold Precedes at before
    rcases place with ⟨toEnd, head, after⟩ | ⟨_, offset, same⟩
    · exact part.accounted ok progress written fits (by omega) (fun _ _ => .inl toEnd)
    rw [same] at before
    refine part.accounted ok progress written fits ?_ (fun _ _ => .inr (by omega))
    rcases before with lower | ⟨equal, _⟩
    · omega
    · rw [equal]
      omega
  · intro sn k fits below
    rcases part.next with ⟨stopped, toEnd, final⟩ | ⟨cur, rest, goesOn, _, place⟩
    · rw [stopped]
      exact .inl (show rx.modulusRx cfg sn < _ by omega)
    rw [goesOn]
    rcases place with ⟨toEnd, head, after⟩ | ⟨_, offset, same⟩
    · exact .inl ⟨rfl, .inl (by omega)⟩
    by_cases before : rx.Precedes cfg sn k cur.sn cur.so
    · exact .inl ⟨rfl, before⟩
    right
    unfold Precedes at before
    rw [same] at before
    by_cases dealt : done sn k
    · exact ((progress.reported sn k fits dealt).append added).cutLast
    by_cases early : rx.Precedes cfg sn k m.snStart m.soStart
    · exact .inl (part.held sn k fits dealt early)
    -- behind the last NACK, in the same SDU
    obtain ⟨j, at_, index, start⟩ := part.index ok fits early
    rw [← index (by omega)]
    right
    apply nacked_cutLast_append
    exact written.cut j k (Nat.zero_le j) (by omega) start

theorem Progress.truncated
    (written : m.Written cfg wires added 0 stop none result) (short : stop < m.snCount cfg) :
    rx.Truthful cfg (cutLast (wires ++ added)) (result.lastNack.getD lastNack) := by
  intro sn k fits below
  rcases Nat.eq_zero_or_pos stop with none | some_
  · obtain ⟨empty, same⟩ := written.nothing none
    rw [same] at below
    rw [empty, append_nil]
    rcases progress.cut sn k fits below with dealt | accounted
    · exact (progress.reported sn k fits dealt).cutLast
    · exact accounted
  · obtain ⟨last, same, ahead⟩ := written.last some_
    rw [ackDistance, same, Option.getD_some, ahead, part.distance_snAt ok written.high] at below
    apply Accounted.cutLast
    exact part.accounted ok progress written fits below (fun _ all => absurd all (by omega))

end

theorem generateNacks_truthful (ok : rx.ListOk cfg) (sound : cfg.Sound) {fuel : Nat} {checkHead : Bool}
    {encoder : StatusEncoder} (wrote : encoder.Wrote cfg wires) (suffix : list <:+ rx.rxList)
    (enough : list.length + checkHead.toNat ≤ fuel)
    (progress : rx.Progress cfg wires lastNack (rx.Done cfg checkHead list)) :
    ∃ written, (rx.generateNacks cfg fuel list checkHead encoder lastNack).1.stream = statusStream cfg written ∧
      rx.Truthful cfg written (rx.generateNacks cfg fuel list checkHead encoder lastNack).2 := by
  induction fuel generalizing list checkHead encoder wires lastNack with
  | zero =>
    obtain rfl : list = [] := length_eq_zero_iff.mp (by omega)
    exact ⟨wires, wrote.closed, fun sn k fits below =>
      progress.reported sn k fits (lt_of_lt_of_le below progress.bound)⟩
  | succ fuel ih =>
    cases list with
    | nil =>
      exact ⟨wires, wrote.closed, fun sn k fits below =>
        progress.reported sn k fits (lt_of_lt_of_le below progress.bound)⟩
    | cons cur rest =>
      -- a part before the head does not take the head off
      obtain ⟨left, inside, restInside, headInside, shorter⟩ : ∃ left, left <:+ cur :: rest ∧
          rest <:+ left ∧ (checkHead = true → cur :: rest <:+ left) ∧ left.length ≤ fuel := by
        cases checkHead with
        | true => exact ⟨cur :: rest, suffix_refl _, suffix_cons cur rest,
            fun _ => suffix_refl _, by simpa using enough⟩
        | false => exact ⟨rest, suffix_cons cur rest, suffix_refl _,
            fun never => absurd never Bool.false_ne_true, by simpa using enough⟩
      have found := nextMissing_found ok sound suffix restInside headInside
      unfold AmRx.generateNacks
      split
      · rename_i nothing
        rw [nothing] at found
        refine ⟨wires, wrote.closed, fun sn k fits below => ?_⟩
        by_cases dealt : rx.Done cfg checkHead (cur :: rest) sn k
        · exact progress.reported sn k fits dealt
        · exact .inl (found sn k fits dealt (lt_of_lt_of_le below progress.bound))
      · rename_i m missing
        rw [missing] at found
        obtain ⟨added, stop, written⟩ := m.generateMissing_written sound found.encodable wrote
        dsimp only
        split
        · rename_i cut
          rw [written.truncated, decide_eq_true_eq] at cut
          exact ⟨_, written.wrote.cut, progress.truncated found ok written cut⟩
        rename_i whole
        rw [written.truncated, decide_eq_true_eq] at whole
        obtain rfl : stop = m.snCount cfg := le_antisymm written.high (Nat.le_of_not_lt whole)
        have sub := found.next_suffix
        refine ih written.wrote ((sub.trans inside).trans suffix) ?_ (progress.whole found ok written)
        simpa using sub.length_le.trans shorter

theorem statusReport_truthful (ok : rx.ListOk cfg) (sound : cfg.Sound) (size : Nat) :
    ∃ written lastNack, decodeStatusPdu cfg (rx.statusReport cfg size) =
      some ⟨(lastNack + 1) % cfg.snModulus, readNacks cfg written⟩ ∧ rx.Truthful cfg written lastNack := by
  have large := sound.modulus_large
  let start : StatusEncoder := ⟨bits 24 0, size, if cfg.snFieldLength = 18 then 22 else 16, none⟩
  let first := (rx.rxNext - 1 + cfg.snModulus) % cfg.snModulus
  have wrote : start.Wrote cfg [] := StatusEncoder.Wrote.initial sound.admitted size
  -- before the first NACK nothing is acknowledged
  have acked : rx.ackDistance cfg first = 0 := by
    have back : (first + 1) % cfg.snModulus = rx.rxNext := by
      rw [Int.emod_add_emod, show rx.rxNext - 1 + cfg.snModulus + 1 = rx.rxNext + cfg.snModulus by omega,
        Int.add_emod_right, Int.emod_eq_of_lt ok.space.next.1 ok.space.next.2]
    rw [ackDistance, back]
    exact distance_self
  have nothing : ∀ sn, Within cfg.snModulus sn → ¬ rx.modulusRx cfg sn < rx.ackDistance cfg first := by
    intro sn fits below
    have low : 0 ≤ rx.modulusRx cfg sn := (distance_bounds ok.space.next fits).1
    omega
  obtain ⟨written, stream, truthful⟩ : ∃ written,
      (rx.generateNacks cfg (rx.rxList.length + 1) rx.rxList true start first).1.stream =
        statusStream cfg written ∧
      rx.Truthful cfg written (rx.generateNacks cfg (rx.rxList.length + 1) rx.rxList true start first).2 := by
    cases listed : rx.rxList with
    | nil => exact ⟨[], wrote.closed, fun sn k fits below => absurd below (nothing sn fits)⟩
    | cons cur rest =>
      refine generateNacks_truthful ok sound wrote (by rw [listed]) (le_refl _) ⟨?_, ?_, ?_⟩
      · intro sn k _ dealt
        cases dealt.1
      · intro sn k fits below
        exact absurd below (nothing sn fits)
      · rw [acked]
        exact (distance_bounds ok.space.next ok.space.highestStatus).1
  let result := rx.generateNacks cfg (rx.rxList.length + 1) rx.rxList true start first
  have report : rx.statusReport cfg size =
      bitsToBytes (putAckSn cfg ((result.2 + 1) % cfg.snModulus).toNat result.1.stream) := rfl
  have space := within_mod (by omega) (result.2 + 1) (m := cfg.snModulus)
  refine ⟨written, result.2, ?_, truthful⟩
  rw [report, show result.1.stream = statusStream cfg written from stream,
    decodeStatusPdu_stream sound.admitted (sound.toNat_lt space.1 space.2), Int.toNat_of_nonneg space.1]
  rfl

end AmRx

/-- The byte at an offset of an SDU has been received: one of the PDUs received and still listed has it,
or has the end of the SDU before it. -/
def AmEntity.HasReceived (entity : AmEntity) (ops : List DataOp) (sn : Int) (k : Nat) : Prop :=
  ∃ pdu ∈ entity.rx.rxList, pdu.ReceivedIn entity.cfg ops ∧ pdu.sn = sn ∧
    ((pdu.so ≤ k ∧ k < pdu.so + pdu.size) ∨ (pdu.isLast = true ∧ pdu.so + pdu.size ≤ k))

/-- In every state that an entity can reach, the peer can decode the report for any buffer of three
bytes or more, and all bytes that it acknowledges, from RX_Next up to ACK_SN and outside of the NACKs,
have been received. -/
theorem status_report_truthful {rxMaxsize txMaxsize : Int} {params : AmParams} {snFieldLength : Nat}
    {start entity : AmEntity} {ops : List DataOp}
    (created : newNrRlcEntityAm rxMaxsize txMaxsize params snFieldLength = some start)
    (reached : Runs.run AmEntity.dataStep start ops = some entity) {size : Nat} (room : 3 ≤ size) :
    ∃ status, decodeStatusPdu entity.cfg
        (entity.rx.generateStatus entity.cfg entity.tCurrent size).1 = some status ∧
      ∀ sn k, InInterval entity.cfg.snModulus entity.rx.rxNext status.ackSn sn →
        ¬ Nacked entity.cfg status.nacks sn k → entity.HasReceived ops sn k := by
  have traced := AmEntity.rxTraced_of_run created reached
  obtain ⟨written, lastNack, decoded, truthful⟩ := AmRx.statusReport_truthful traced.ok.rx traced.ok.sound size
  have report : (entity.rx.generateStatus entity.cfg entity.tCurrent size).1 =
      entity.rx.statusReport entity.cfg size := by
    rw [AmRx.generateStatus, if_neg (by omega)]
  refine ⟨_, by rw [report, decoded], fun sn k acked open_ => ?_⟩
  rcases truthful sn k acked.1 acked.2 with ⟨pdu, member, covers⟩ | nacked
  · exact ⟨pdu, member, traced.received pdu member, covers⟩
  · exact absurd nacked open_

def gapsRun : List DataOp :=
  [.setTime 1, .recvPdu [0x90#8, 1#8, 7#8, 8#8], .recvPdu [0x80#8, 3#8, 9#8], .setTime 100]

/-- The report then acknowledges the two bytes of SDU 1. -/
theorem status_report_truthful_gaps :
    ∃ start entity, newNrRlcEntityAm 100000 100000 defaultAmParams 12 = some start ∧
      Runs.run AmEntity.dataStep start gapsRun = some entity ∧
      entity.rx.rxNext = 0 ∧
      decodeStatusPdu entity.cfg (entity.rx.generateStatus entity.cfg entity.tCurrent 11).1 =
        some ⟨2, [⟨0, 0, -1, 1⟩, ⟨1, 2, -1, 1⟩]⟩ ∧
      ∃ status, decodeStatusPdu entity.cfg
          (entity.rx.generateStatus entity.cfg entity.tCurrent 11).1 = some status ∧
        ∀ sn k, InInterval entity.cfg.snModulus entity.rx.rxNext status.ackSn sn →
          ¬ Nacked entity.cfg status.nacks sn k → entity.HasReceived gapsRun sn k := by
  have reports : ((newNrRlcEntityAm 100000 100000 defaultAmParams 12).bind (fun start =>
      Runs.run AmEntity.dataStep start gapsRun)).map (fun entity => (entity.rx.rxNext,
        decodeStatusPdu entity.cfg (entity.rx.generateStatus entity.cfg entity.tCurrent 11).1)) =
      some (0, some ⟨2, [⟨0, 0, -1, 1⟩, ⟨1, 2, -1, 1⟩]⟩) := by
    decide +kernel
  obtain ⟨entity, both, same⟩ := Option.map_eq_some_iff.mp reports
  obtain ⟨start, created, reached⟩ := Option.bind_eq_some_iff.mp both
  injection same with base report
  exact ⟨start, entity, created, reached, base, report, status_report_truthful created reached (by decide)⟩

end OranSlice.Rlc
