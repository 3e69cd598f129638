import OranSlice.Rlc.AmRun
import OranSlice.Rlc.PduCodec
import OranSlice.Rlc.StatusMoves

/-! Status reports that must not be acted on. The code validates a report in a first pass and processes
it in a second one, which takes NACKs that do not increase like any others. -/

namespace OranSlice.Rlc

open BitCodec Window AmTx List

variable {cfg : AmConfig} {ackSn : Int}

def AmTx.Increases (cfg : AmConfig) (tx : AmTx) (prev cur : NackedPart) : Prop :=
  tx.snCompareTx cfg cur.sn prev.sn > 0 ∨ (tx.snCompareTx cfg cur.sn prev.sn = 0 ∧ cur.soStart > prev.soStart)

instance (cfg : AmConfig) (tx : AmTx) (prev cur : NackedPart) : Decidable (tx.Increases cfg prev cur) :=
  inferInstanceAs (Decidable (_ ∨ _))

def AmTx.Increasing (cfg : AmConfig) (tx : AmTx) (status : StatusPdu) : Prop :=
  (status.parts cfg).Pairwise (tx.Increases cfg)

instance (cfg : AmConfig) (tx : AmTx) (status : StatusPdu) : Decidable (tx.Increasing cfg status) :=
  inferInstanceAs (Decidable (List.Pairwise _ _))

def AmTx.BadReport (cfg : AmConfig) (tx : AmTx) (status : StatusPdu) : Prop :=
  tx.snCompareTx cfg status.ackSn tx.txNext > 0 ∨
    (∃ part ∈ status.parts cfg, tx.snCompareTx cfg part.sn status.ackSn > 0) ∨
    ¬ tx.Increasing cfg status

instance (cfg : AmConfig) (tx : AmTx) (status : StatusPdu) : Decidable (tx.BadReport cfg status) :=
  inferInstanceAs (Decidable (_ ∨ _ ∨ _))

def AmTx.Malformed (cfg : AmConfig) (tx : AmTx) (buffer : List Byte) : Prop :=
  ∀ status ∈ decodeStatusPdu cfg buffer, tx.BadReport cfg status

instance (cfg : AmConfig) (tx : AmTx) (buffer : List Byte) : Decidable (tx.Malformed cfg buffer) :=
  inferInstanceAs (Decidable (∀ status ∈ decodeStatusPdu cfg buffer, tx.BadReport cfg status))

structure Ignored (tx : AmTx) (result : AmTx × List AmEvent) : Prop where
  txList : result.1.txList = tx.txList
  waitList : result.1.waitList = tx.waitList
  retransmitList : result.1.retransmitList = tx.retransmitList
  txNextAck : result.1.txNextAck = tx.txNextAck
  bstatusTxSize : result.1.bstatusTxSize = tx.bstatusTxSize
  bstatusRetxSize : result.1.bstatusRetxSize = tx.bstatusRetxSize
  tPollRetransmitStart : result.1.tPollRetransmitStart = tx.tPollRetransmitStart
  noDelivery : ∀ sdu, .sduSuccessfulDelivery sdu ∉ result.2

theorem decodeNack_bounds {stream rest : List Bool} {nack : Nack} {e1 : Bool}
    (read : decodeNack cfg stream = some (nack, e1, rest)) :
    Within (2 ^ cfg.snFieldLength) nack.sn ∧ nack.range ≤ 255 := by
  simp only [decodeNack, Option.bind_eq_bind, Option.bind_eq_some_iff, Prod.exists] at read
  obtain ⟨sn, stream, snRead, bit, stream, -, e2, stream, -, e3, stream, -, r, stream, -, rest⟩ := read
  have snBound : (sn : Int) < 2 ^ cfg.snFieldLength := by
    exact_mod_cast (take?_eq_some snRead).1
  have snFits : Within (2 ^ cfg.snFieldLength) (sn : Int) := ⟨Int.natCast_nonneg sn, snBound⟩
  by_cases segment : e2 = 1
  · by_cases several : e3 = 1
    · simp only [if_pos segment, if_pos several, Option.bind_eq_some_iff, Prod.exists] at rest
      obtain ⟨soStart, stream, -, soEnd, stream, -, range, stream, rangeRead, made⟩ := rest
      cases made
      exact ⟨snFits, Nat.le_of_lt_succ (take?_eq_some rangeRead).1⟩
    · simp only [if_pos segment, if_neg several, Option.bind_eq_some_iff, Prod.exists] at rest
      obtain ⟨soStart, stream, -, soEnd, stream, -, range, stream, one, made⟩ := rest
      cases one
      cases made
      exact ⟨snFits, by simp⟩
  · by_cases several : e3 = 1
    · simp only [if_neg segment, if_pos several, Option.bind_some, Option.bind_eq_some_iff, Prod.exists] at rest
      obtain ⟨range, stream, rangeRead, made⟩ := rest
      cases made
      exact ⟨snFits, Nat.le_of_lt_succ (take?_eq_some rangeRead).1⟩
    · simp only [if_neg segment, if_neg several] at rest
      cases rest
      exact ⟨snFits, by simp⟩

theorem decodeNacks_bounds {fuel : Nat} {e1 : Bool} {stream : List Bool} {nacks : List Nack}
    (read : decodeNacks cfg fuel e1 stream = some nacks) :
    ∀ nack ∈ nacks, Within (2 ^ cfg.snFieldLength) nack.sn ∧ nack.range ≤ 255 := by
  induction fuel generalizing e1 stream nacks with
  | zero =>
    cases e1 with
    | false =>
      cases read
      simp
    | true => cases read
  | succ fuel ih =>
    cases e1 with
    | false =>
      cases read
      simp
    | true =>
      simp only [decodeNacks, Option.bind_eq_bind, Option.bind_eq_some_iff, Prod.exists] at read
      obtain ⟨head, e1, rest, headRead, tail, tailRead, made⟩ := read
      cases made
      intro nack member
      rcases mem_cons.mp member with rfl | later
      · exact decodeNack_bounds headRead
      · exact ih tailRead nack later

theorem decodeStatusPdu_nacks {buffer : List Byte} {status : StatusPdu}
    (read : decodeStatusPdu cfg buffer = some status) :
    ∀ nack ∈ status.nacks, Within (2 ^ cfg.snFieldLength) nack.sn ∧ nack.range ≤ 255 := by
  obtain ⟨_, _, _, _, nacksRead⟩ := decodeStatusPdu_spec read
  exact decodeNacks_bounds nacksRead

section PollTimer

/-! The poll timer, once stopped, stays stopped to the end of the report. -/

theorem AmTx.freeSegment_timer (tx : AmTx) (segment : SduSegment) :
    (tx.freeSegment segment).1.tPollRetransmitStart = tx.tPollRetransmitStart := by
  unfold freeSegment
  dsimp only
  split
  · rfl
  · rfl

theorem AmTx.freeRetx_timer (cfg : AmConfig) (tx : AmTx) (segment : SduSegment) :
    (tx.freeRetx cfg segment).1.tPollRetransmitStart = tx.tPollRetransmitStart :=
  freeSegment_timer _ segment

variable {part : NackedPart} {s next : ControlState} {nack : Nack} {tx : AmTx} {status : StatusPdu}

theorem ControlState.NackMove.timer (move : NackMove cfg ackSn part s next) :
    next.tx.tPollRetransmitStart = s.tx.tPollRetransmitStart := by
  cases move with
  | freeWait segment => exact s.tx.freeSegment_timer segment
  | freeRetx segment => exact s.tx.freeRetx_timer cfg segment
  | nackWait | passAll | pass | nackRetx | cutRetx | keepRetx => rfl

theorem ControlState.processNacks_stopped (nacks : List Nack) (stopped : s.tx.tPollRetransmitStart = 0) :
    (nacks.foldl (processNack cfg ackSn) s).tx.tPollRetransmitStart = 0 := by
  apply processNacks_good (fun _ s => s.tx.tPollRetransmitStart = 0) _ _ _ nacks s stopped
  · intro part parts s next before move
    rw [move.timer]
    exact before
  · intro part parts s before _
    exact before
  · intro parts s _
    rfl

theorem ControlState.processParts_accounted (cfg : AmConfig) (ackSn : Int) (parts : List NackedPart)
    (s : ControlState) :
    s.tx.Accounted (parts.foldl
      (fun s part => s.processPart cfg ackSn part (s.wait.length + s.retx.length)) s).tx := by
  refine processParts_good (fun _ later => s.tx.Accounted later.tx) ?_ ?_ parts [] s (.refl s.tx)
  · intro part parts before after account move
    exact account.trans move.accounted
  · intro part parts later account _
    exact account

theorem ControlState.processNack_stopped (from_ : s.tx.snCompareTx cfg nack.sn s.tx.pollSn ≤ 0)
    (below : s.tx.snCompareTx cfg s.tx.pollSn ((nack.sn + nack.range) % cfg.snModulus) < 0) :
    (s.processNack cfg ackSn nack).tx.tPollRetransmitStart = 0 := by
  obtain ⟨_, _, _, _, same⟩ := s.processParts_accounted cfg ackSn (nack.expand cfg)
  unfold processNack
  rw [if_pos]
  rw [same]
  exact ⟨from_, below⟩

theorem AmTx.afterNacks_stopped
    (member : nack ∈ status.nacks) (from_ : tx.snCompareTx cfg nack.sn tx.pollSn ≤ 0)
    (below : tx.snCompareTx cfg tx.pollSn ((nack.sn + nack.range) % cfg.snModulus) < 0) :
    (tx.afterNacks cfg status).tx.tPollRetransmitStart = 0 := by
  obtain ⟨front, back, split⟩ := append_of_mem member
  obtain ⟨_, _, _, _, same⟩ := (tx.afterNacks_follows cfg ⟨status.ackSn, front⟩).accounted
  unfold afterNacks at same ⊢
  rw [split, foldl_append, foldl_cons]
  apply ControlState.processNacks_stopped
  apply ControlState.processNack_stopped
  · rw [same]
    exact from_
  · rw [same]
    exact below

theorem AmTx.processStatus_timer (cfg : AmConfig) (tx : AmTx) (status : StatusPdu) :
    (tx.processStatus cfg status).1.tPollRetransmitStart =
      (tx.afterNacks cfg status).tx.tPollRetransmitStart := by
  generalize start : (tx.afterNacks cfg status).tx.tPollRetransmitStart = time
  have waits := freeAcked_good cfg status.ackSn (fun _ left _ => left.tPollRetransmitStart = time)
    (fun segment _ left _ before => (left.freeSegment_timer segment).trans before)
    (tx.afterNacks cfg status).wait (tx.afterNacks cfg status).tx [] start
  exact freeAcked_good cfg status.ackSn (fun _ left _ => left.tPollRetransmitStart = time)
    (fun segment _ left _ before => (left.freeRetx_timer cfg segment).trans before)
    (tx.afterNacks cfg status).retx _ [] waits

end PollTimer

def AmTx.polled (tx : AmTx) : AmTx where
  txNext := tx.txNext
  txNextAck := tx.txNextAck
  pollSn := tx.txNextAck
  tPollRetransmitStart := 1

theorem AmTx.polled_stopped (sound : cfg.Sound) {tx : AmTx} (base : Within cfg.snModulus tx.txNextAck)
    {buffer : List Byte} {status : StatusPdu} (read : decodeStatusPdu cfg buffer = some status)
    (admitted : tx.admits cfg status = true) (nacked : status.parts cfg ≠ []) :
    (tx.polled.processStatus cfg status).1.tPollRetransmitStart = 0 := by
  rw [processStatus_timer]
  have poll : distance cfg.snModulus tx.txNextAck tx.txNextAck = 0 := distance_self
  by_cases ahead : 0 < distance cfg.snModulus tx.txNextAck status.ackSn
  · -- ACK_SN is beyond POLL_SN
    apply ControlState.processNacks_stopped
    unfold reportStart
    rw [if_pos]
    unfold snCompareTx modulusTx polled
    dsimp only
    omega
  · -- all NACKs are about POLL_SN itself
    obtain ⟨part, listed⟩ := exists_mem_of_ne_nil _ nacked
    obtain ⟨nack, member, inNack⟩ := mem_flatMap.mp listed
    obtain ⟨nackFits, short⟩ := decodeStatusPdu_nacks read nack member
    rw [← sound.modulus] at nackFits
    have many : 0 < nack.range := by
      obtain ⟨i, inRange, -⟩ := mem_map.mp inNack
      have bound := mem_range.mp inRange
      omega
    have first : ⟨nack.sn, nack.soStart, if 0 + 1 = nack.range then nack.soEnd else -1⟩ ∈ status.parts cfg := by
      refine mem_flatMap.mpr ⟨nack, member, mem_map.mpr ⟨0, mem_range.mpr many, ?_⟩⟩
      simp [Int.emod_eq_of_lt nackFits.1 nackFits.2]
    have notBeyond := ((tx.admits_iff cfg status).mp admitted).2 _ first
    have nackBounds := distance_bounds base nackFits
    unfold snCompareTx modulusTx at notBeyond
    dsimp only at notBeyond
    have atBase : nack.sn = tx.txNextAck := (distance_inj base nackFits base).mp (by omega)
    have large := sound.modulus_large
    have steps : Within cfg.snModulus nack.range := ⟨by omega, by omega⟩
    have next := distance_add base steps
    apply afterNacks_stopped member
    · unfold snCompareTx modulusTx polled
      dsimp only
      omega
    · unfold snCompareTx modulusTx polled
      dsimp only
      rw [atBase]
      omega

/-- For a window and a buffer, a malformed report is ignored in every state with that window, exactly if
its NACKs increase whenever the validation lets it pass. -/
theorem malformed_ignored_iff (sound : cfg.Sound) (tx : AmTx) (base : Within cfg.snModulus tx.txNextAck)
    (buffer : List Byte) :
    (∀ other : AmTx, other.txNextAck = tx.txNextAck → other.txNext = tx.txNext →
        other.Malformed cfg buffer → Ignored other (other.processControlPdu cfg buffer)) ↔
      ∀ status, decodeStatusPdu cfg buffer = some status → tx.admits cfg status = true →
        tx.Increasing cfg status := by
  constructor
  · intro ignored status read admitted
    by_contra unordered
    have bad : tx.polled.Malformed cfg buffer := by
      intro found same
      rw [read, Option.mem_some_iff] at same
      subst same
      exact .inr (.inr unordered)
    have untouched := (ignored tx.polled rfl rfl bad).tPollRetransmitStart
    have nacked : status.parts cfg ≠ [] := by
      intro none
      apply unordered
      rw [AmTx.Increasing, none]
      exact List.Pairwise.nil
    have passes : tx.polled.admits cfg status = true := admitted
    unfold processControlPdu at untouched
    simp only [read, passes, if_true, polled_stopped sound base read admitted nacked] at untouched
    exact absurd untouched Nat.zero_ne_one
  · intro ordered other sameAck sameNext bad
    have refused : other.processControlPdu cfg buffer = (other, []) := by
      unfold processControlPdu
      split
      · rfl
      rename_i status read
      rw [if_neg]
      intro admitted
      have window : other.snCompareTx cfg = tx.snCompareTx cfg := by
        funext a b
        simp [snCompareTx, modulusTx, sameAck]
      obtain ⟨ackFits, nacksFit⟩ := (other.admits_iff cfg status).mp admitted
      have increasing : other.Increasing cfg status := by
        have here := ordered status read (by
          rw [admits_iff, ← window, ← sameNext]
          exact ⟨ackFits, nacksFit⟩)
        unfold AmTx.Increasing AmTx.Increases at here ⊢
        rw [window]
        exact here
      rcases bad status read with beyond | ⟨part, listed, beyond⟩ | unordered
      · omega
      · have fits := nacksFit part listed
        omega
      · exact unordered increasing
    rw [refused]
    exact ⟨rfl, rfl, rfl, rfl, rfl, rfl, rfl, by simp⟩

def shortSnConfig : AmConfig where
  tPollRetransmit := 45
  tReassembly := 35
  tStatusProhibit := 0
  pollPdu := -1
  pollByte := -1
  maxRetxThreshold := 8
  snFieldLength := 12
  snModulus := 4096
  windowSize := 2048
  rxMaxsize := 100000
  txMaxsize := 100000

theorem shortSnConfig_sound : shortSnConfig.Sound where
  admitted := .inl rfl
  modulus := rfl
  window := by decide

/-- A report that ends within the SN of its NACK is ignored. -/
theorem truncated_report_ignored :
    AmTx.Malformed shortSnConfig { txNext := 2 } [0, 2, 0x80, 0] ∧
      Ignored { txNext := 2 } (processControlPdu shortSnConfig { txNext := 2 } [0, 2, 0x80, 0]) := by
  have bad : AmTx.Malformed shortSnConfig { txNext := 2 } [0, 2, 0x80, 0] := by decide
  have unread : decodeStatusPdu shortSnConfig [0, 2, 0x80, 0] = none := by decide
  refine ⟨bad, (malformed_ignored_iff shortSnConfig_sound { txNext := 2 } (by decide)
    [0, 2, 0x80, 0]).mpr ?_ _ rfl rfl bad⟩
  intro status read
  rw [unread] at read
  cases read

def unorderedReport : List Byte := [0x00, 0x02, 0x80, 0x00, 0x18, 0x00, 0x00]

/-- Two SDUs are sent. The report nacks both, the second one first, and the first one is
reported as delivered. -/
theorem unordered_report_processed :
    ∃ start entity, newNrRlcEntityAm 100000 100000 defaultAmParams 12 = some start ∧
      Runs.run AmEntity.dataStep start
        [.recvSdu [7] 0, .recvSdu [8] 1, .generatePdu 100, .generatePdu 100] = some entity ∧
      entity.tx.Malformed entity.cfg unorderedReport ∧
      .sduSuccessfulDelivery ⟨0, 0, [7]⟩ ∈
        (entity.tx.processControlPdu entity.cfg unorderedReport).2 :=
  Runs.reached_of_check _ (by decide) (fun _ => id)

end OranSlice.Rlc
