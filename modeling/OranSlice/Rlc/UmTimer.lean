import OranSlice.Rlc.UmOrder

/-! The timer `t_reassembly` of a UM entity: it runs while an SDU in the window waits for data. -/

namespace OranSlice.Rlc

open BitCodec Runs Window

private theorem dropWhile_dropWhile {α : Type*} {p q : α → Bool} (weaker : ∀ a, p a = true → q a = true)
    (list : List α) : (list.dropWhile p).dropWhile q = list.dropWhile q := by
  induction list with
  | nil => rfl
  | cons a rest ih =>
    cases passes : p a with
    | true => rw [List.dropWhile_cons_of_pos passes, List.dropWhile_cons_of_pos (weaker a passes), ih]
    | false => rw [List.dropWhile_cons_of_neg (by simp [passes])]

namespace UmEntity

variable {entity next : UmEntity}

/-- An SDU before RX_Next_Highest has not been received: RX_Next_Reassembly is not the last one, or
bytes before its last received byte are missing. -/
def Waits (entity : UmEntity) : Prop :=
  entity.snCompareRx entity.rxNextHighest ((entity.rxNextReassembly + 1) % entity.snModulus) > 0 ∨
    (entity.rxNextHighest = (entity.rxNextReassembly + 1) % entity.snModulus ∧
      entity.sduHasMissingBytes entity.rxNextReassembly = true)

def TimerRuns (entity : UmEntity) : Prop := entity.Waits → entity.tReassemblyStart ≠ 0

theorem sduHasMissingBytes_afterExpiry (entity : UmEntity) (now : Nat) :
    (entity.afterExpiry now).sduHasMissingBytes entity.firstUndelivered =
      entity.sduHasMissingBytes entity.firstUndelivered := by
  have kept : fromSn entity.firstUndelivered (entity.afterExpiry now).rxList =
      fromSn entity.firstUndelivered entity.rxList := by
    apply dropWhile_dropWhile
    intro pdu before
    have less := of_decide_eq_true before
    apply bne_iff_ne.mpr
    intro same
    rw [same, snCompareRx, sub_self] at less
    exact absurd less (lt_irrefl 0)
  rw [sduHasMissingBytes, sduHasMissingBytes, kept]

theorem waits_afterExpiry_iff (entity : UmEntity) (now : Nat) : (entity.afterExpiry now).Waits ↔
    entity.snCompareRx entity.rxNextHighest ((entity.firstUndelivered + 1) % entity.snModulus) > 0 ∨
      (entity.rxNextHighest = (entity.firstUndelivered + 1) % entity.snModulus ∧
        entity.sduHasMissingBytes entity.firstUndelivered = true) := by
  rw [← sduHasMissingBytes_afterExpiry entity now]
  exact Iff.rfl

structure Timed (entity : UmEntity) : Prop where
  half : entity.snModulus = 2 * entity.windowSize
  large : 1 < entity.windowSize
  highest : Within entity.snModulus entity.rxNextHighest
  trigger : Within entity.snModulus entity.rxTimerTrigger

theorem Timed.positive (timed : entity.Timed) : 0 < entity.snModulus := by
  have half := timed.half
  have large := timed.large
  omega

theorem Timed.skipDelivered (timed : entity.Timed) (fuel : Nat) {sn : Int} (start : Within entity.snModulus sn) :
    Within entity.snModulus (entity.skipDelivered fuel sn) := by
  induction fuel generalizing sn with
  | zero => exact start
  | succ fuel ih =>
    unfold UmEntity.skipDelivered
    split
    · exact ih (within_mod timed.positive _)
    · exact start

theorem Timed.sameRx (timed : entity.Timed) (same : entity.SameRx next) : next.Timed := by
  refine ⟨?_, ?_, ?_, ?_⟩
  · rw [same.modulus, same.window]
    exact timed.half
  · rw [same.window]
    exact timed.large
  · rw [same.modulus, same.highest]
    exact timed.highest
  · rw [same.modulus, same.trigger]
    exact timed.trigger

theorem TimerRuns.sameRx (runs : entity.TimerRuns) (same : entity.SameRx next) : next.TimerRuns := by
  intro waits
  rw [same.start]
  apply runs
  unfold Waits snCompareRx modulusRx sduHasMissingBytes at waits ⊢
  rw [same.modulus, same.window, same.highest, same.reassembly, same.list] at waits
  exact waits

theorem startReassemblyTimer_runs (clock : 0 < entity.tCurrent) : entity.startReassemblyTimer.TimerRuns := by
  unfold startReassemblyTimer
  dsimp only
  split_ifs with idle
  · intro _
    exact Nat.pos_iff_ne_zero.mp clock
  · intro waits stopped
    exact idle ⟨stopped, waits⟩

theorem RxMoves.tCurrent (moves : entity.RxMoves next) : next.tCurrent = entity.tCurrent := by
  induction moves with
  | refl => rfl
  | tail _ move same => cases move <;> exact same

theorem Timed.moves (timed : entity.Timed) (moves : entity.RxMoves next) : next.Timed := by
  induction moves with
  | refl => exact timed
  | tail _ move timed =>
    cases move with
    | raise x => exact ⟨timed.half, timed.large, within_mod timed.positive _, timed.trigger⟩
    | start => exact ⟨timed.half, timed.large, timed.highest, timed.highest⟩
    | _ => exact { timed with }

theorem recvPdu_runs (runs : entity.TimerRuns) (clock : 0 < entity.tCurrent) (buffer : List Byte) :
    (entity.recvPdu buffer).1.TimerRuns := by
  rcases recvPdu_moves entity buffer with same | ⟨stored, moves, made⟩
  · rw [same]
    exact runs
  · rw [made]
    apply startReassemblyTimer_runs
    unfold stopReassemblyTimer
    split <;> exact (moves.tCurrent ▸ clock)

theorem setTime_timed (timed : entity.Timed) (now : Nat) : (entity.setTime now).Timed := by
  cases expired : timerExpired now entity.tReassemblyStart entity.tReassembly with
  | false =>
    rw [setTime_running expired]
    exact { timed with }
  | true =>
    rw [setTime_expired expired]
    split
    · exact ⟨timed.half, timed.large, timed.highest, timed.highest⟩
    · exact { timed with }

/-- The timer expires while the SDU waited for next has the last SN of the sequence space, is the last
before RX_Next_Highest, and misses bytes. -/
def ExpiresAtWrap (entity : UmEntity) (now : Nat) : Prop :=
  timerExpired now entity.tReassemblyStart entity.tReassembly = true ∧
    entity.firstUndelivered = entity.snModulus - 1 ∧ entity.rxNextHighest = 0 ∧
    entity.sduHasMissingBytes (entity.snModulus - 1) = true

theorem setTime_runs_iff (timed : entity.Timed) (runs : entity.TimerRuns) {now : Nat} (clock : 0 < now) :
    (entity.setTime now).TimerRuns ↔ ¬ entity.ExpiresAtWrap now := by
  cases expired : timerExpired now entity.tReassemblyStart entity.tReassembly with
  | false =>
    rw [setTime_running expired]
    apply iff_of_true
    · exact runs
    · intro wraps
      rw [ExpiresAtWrap, expired] at wraps
      exact absurd wraps.1 (by decide)
  | true =>
    obtain ⟨low, high⟩ : Within entity.snModulus entity.firstUndelivered := timed.skipDelivered _ timed.trigger
    rw [setTime_expired expired, sduHasMissingBytes_afterExpiry]
    split_ifs with restarts
    · apply iff_of_true
      · intro _
        exact Nat.pos_iff_ne_zero.mp clock
      · intro wraps
        obtain ⟨_, last, zero, _⟩ := wraps
        rcases restarts with ahead | next
        · rw [last, zero, sub_add_cancel, Int.emod_self, snCompareRx, sub_self] at ahead
          exact absurd ahead (lt_irrefl 0)
        · omega
    · obtain ⟨behind, notNext⟩ := not_or.mp restarts
      have runs_iff : (entity.afterExpiry now).TimerRuns ↔ ¬ (entity.afterExpiry now).Waits :=
        ⟨fun watched waits => watched waits rfl, fun idle waits => absurd waits idle⟩
      rw [runs_iff, waits_afterExpiry_iff]
      apply not_congr
      constructor
      · intro waits
        obtain ⟨next, missing⟩ := waits.resolve_left behind
        -- without the wrap, the test of the source is the right one
        have last : entity.firstUndelivered = entity.snModulus - 1 := by
          by_contra other
          rw [Int.emod_eq_of_lt (by omega) (by omega)] at next
          exact notNext ⟨next, missing⟩
        rw [last, sub_add_cancel, Int.emod_self] at next
        exact ⟨expired, last, next, last ▸ missing⟩
      · intro wraps
        obtain ⟨_, last, zero, missing⟩ := wraps
        right
        rw [last, sub_add_cancel, Int.emod_self]
        exact ⟨zero, missing⟩

end UmEntity

/-- Time is known: it is not 0 when PDUs are received, nor is it set to 0. -/
def UmOp.Clocked (entity : UmEntity) : UmOp → Prop
  | .recvPdu _ => 0 < entity.tCurrent
  | .setTime now => 0 < now
  | _ => True

def UmOp.MissesWrap (entity : UmEntity) : UmOp → Prop
  | .setTime now => ¬ entity.ExpiresAtWrap now
  | _ => True

namespace UmEntity

variable {entity next : UmEntity} {op : UmOp}

theorem step_timed (timed : entity.Timed) (taken : entity.step op = some next) : next.Timed := by
  cases op with
  | recvSdu buffer sduId => exact timed.sameRx (SameRx.recvSdu taken)
  | discardSdu sduId =>
    cases taken
    exact timed.sameRx (SameRx.discardSdu entity sduId)
  | generatePdu size =>
    cases taken
    exact timed.sameRx (SameRx.generatePdu entity size)
  | recvPdu buffer =>
    cases taken
    exact timed.moves (recvPdu_rxMoves entity buffer)
  | setTime now =>
    cases taken
    exact setTime_timed timed now
  | reestablishment =>
    cases taken
    exact ⟨timed.half, timed.large, ⟨le_rfl, timed.positive⟩, ⟨le_rfl, timed.positive⟩⟩
  | reconfigure tReassembly snFieldLength =>
    cases taken
    exact { timed with }

theorem Timed.idle (timed : entity.Timed) (highest : entity.rxNextHighest = 0)
    (reassembly : entity.rxNextReassembly = 0) : ¬ entity.Waits := by
  have half := timed.half
  have large := timed.large
  have one : (0 + 1) % entity.snModulus = 1 := Int.emod_eq_of_lt (by omega) (by omega)
  unfold Waits snCompareRx modulusRx distance
  rw [reassembly, Int.emod_eq_of_lt (by omega) (by omega), Int.emod_eq_of_lt (by omega) (by omega)]
  omega

theorem step_runs_iff (timed : entity.Timed) (runs : entity.TimerRuns) (clocked : op.Clocked entity)
    (taken : entity.step op = some next) : next.TimerRuns ↔ op.MissesWrap entity := by
  cases op with
  | recvSdu buffer sduId => exact iff_of_true (runs.sameRx (SameRx.recvSdu taken)) trivial
  | discardSdu sduId =>
    cases taken
    exact iff_of_true (runs.sameRx (SameRx.discardSdu entity sduId)) trivial
  | generatePdu size =>
    cases taken
    exact iff_of_true (runs.sameRx (SameRx.generatePdu entity size)) trivial
  | recvPdu buffer =>
    cases taken
    exact iff_of_true (recvPdu_runs runs clocked buffer) trivial
  | setTime now =>
    cases taken
    exact setTime_runs_iff timed runs clocked
  | reestablishment =>
    have reset := step_timed timed taken
    cases taken
    exact iff_of_true (fun waits => absurd waits (reset.idle rfl rfl)) trivial
  | reconfigure tReassembly snFieldLength =>
    cases taken
    exact iff_of_true runs trivial

end UmEntity

theorem newNrRlcEntityUm_timed {rxMaxsize txMaxsize : Int} {tReassembly snFieldLength : Nat} {entity : UmEntity}
    (created : newNrRlcEntityUm rxMaxsize txMaxsize tReassembly snFieldLength = some entity) :
    entity.Timed ∧ entity.rxNextHighest = 0 ∧ entity.rxNextReassembly = 0 := by
  unfold newNrRlcEntityUm at created
  split at created
  · rename_i admitted
    cases created
    have arith : (2 : Int) ^ snFieldLength = 2 * (2 ^ snFieldLength / 2) ∧ 1 < (2 : Int) ^ snFieldLength / 2 := by
      rcases admitted with short | long
      · rw [short]
        decide
      · rw [long]
        decide
    have zero : Within (2 ^ snFieldLength) 0 := ⟨le_rfl, Int.pow_pos (by decide)⟩
    exact ⟨⟨arith.1, arith.2, zero, zero⟩, rfl, rfl⟩
  · cases created

/-- In all states of a run, `t_reassembly` runs whenever an SDU is waited for exactly when it never
expires at the wrap of the SNs while bytes of the last SDU are missing. -/
theorem um_reassembly_timer_runs_iff {rxMaxsize txMaxsize : Int} {tReassembly snFieldLength : Nat}
    {entity : UmEntity} (created : newNrRlcEntityUm rxMaxsize txMaxsize tReassembly snFieldLength = some entity)
    (ops : List UmOp) (clocked : Steps UmEntity.step (fun entity op => op.Clocked entity) entity ops) :
    Along UmEntity.step UmEntity.TimerRuns entity ops ↔
      Steps UmEntity.step (fun entity op => op.MissesWrap entity) entity ops := by
  obtain ⟨timed, highest, reassembly⟩ := newNrRlcEntityUm_timed created
  have runs : entity.TimerRuns := fun waits => absurd waits (timed.idle highest reassembly)
  exact along_iff_steps_within (fun _ _ _ timed _ taken => UmEntity.step_timed timed taken)
    (fun _ _ _ timed runs clock taken => UmEntity.step_runs_iff timed runs clock taken)
    entity ops timed runs clocked

instance (entity : UmEntity) (op : UmOp) : Decidable (op.Clocked entity) :=
  match op with
  | .recvPdu _ => inferInstanceAs (Decidable (0 < entity.tCurrent))
  | .setTime now => inferInstanceAs (Decidable (0 < now))
  | .recvSdu _ _ | .discardSdu _ | .generatePdu _ | .reestablishment | .reconfigure _ _ => isTrue trivial

instance (entity : UmEntity) (now : Nat) : Decidable (entity.ExpiresAtWrap now) :=
  inferInstanceAs (Decidable (_ ∧ _))

instance (entity : UmEntity) (op : UmOp) : Decidable (op.MissesWrap entity) :=
  match op with
  | .setTime now => inferInstanceAs (Decidable (¬ entity.ExpiresAtWrap now))
  | .recvPdu _ | .recvSdu _ _ | .discardSdu _ | .generatePdu _ | .reestablishment | .reconfigure _ _ =>
    isTrue trivial

instance (entity : UmEntity) : Decidable entity.Waits := inferInstanceAs (Decidable (_ ∨ _))

/-- With SNs of 6 bits: first segments of SDUs 31 and 62, and a part of SDU 63 without its beginning. -/
def wrapOps : List UmOp :=
  [.setTime 1, .recvPdu [0x5F, 7], .recvPdu [0x7E, 7], .setTime 12, .recvPdu [0xFF, 0, 5, 7]]

theorem um_reassembly_timer_before_wrap :
    ∃ entity, newNrRlcEntityUm 10000000 10000000 10 6 = some entity ∧
      Along UmEntity.step UmEntity.TimerRuns entity wrapOps :=
  ⟨_, rfl, (@um_reassembly_timer_runs_iff 10000000 10000000 10 6 _ rfl wrapOps
    (steps_of_check (by decide +kernel))).mpr (steps_of_check (by decide +kernel))⟩

/-- After the next expiry SDU 63 is waited for, and the timer does not run. -/
theorem um_reassembly_timer_stalls :
    ∃ start entity, newNrRlcEntityUm 10000000 10000000 10 6 = some start ∧
      run UmEntity.step start (wrapOps ++ [.setTime 23]) = some entity ∧
      entity.rxNextReassembly = 63 ∧ entity.rxNextHighest = 0 ∧ ¬ entity.TimerRuns := by
  refine reached_of_check (fun entity => entity.rxNextReassembly = 63 ∧ entity.rxNextHighest = 0 ∧
    entity.Waits ∧ entity.tReassemblyStart = 0) (by decide) ?_
  intro entity ⟨last, zero, waits, stopped⟩
  exact ⟨last, zero, fun runs => runs waits stopped⟩

end OranSlice.Rlc
