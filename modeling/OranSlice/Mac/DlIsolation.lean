import OranSlice.Mac.DlScenarios

/-! Exact conditions for minimum shares and for the PRB assertion, on the resource blocks that the
retransmission stage leaves and the table `SL_sched`, over all UE populations and masks. -/

namespace OranSlice.Mac

open List

variable {κ : Type}

variable (cell : DlCell κ) (n : Int) (table : SlTable) (served : List SlSched) (total : Int) (entry : SlSched)
  (later : List SlSched) (s : DlState κ)

/-- The entry at index 0 holds a value that gives it its share and, if its UEs can use it, leaves the
next slice what it is promised and the others what they reserve. -/
def SharesKept : List SlSched → Prop
  | [] => True
  | first :: rest =>
    promisedShare n first.sl.spolicy ≤ first.maxPrbs - reserved n rest ∧ (firstLimit n first rest < 5 ∨ n < 5 ∨
        min (firstLimit n first rest) n + headNeed n rest ≤ n)

/-- The counter is not negative, and the entry at index 0 holds a value that does not
offer more than the counter. -/
def WithinCounter : List SlSched → Prop
  | [] => True
  | first :: rest => 0 ≤ n ∧ (n < 5 ∨ firstLimit n first rest ≤ n)

theorem newTxStage_keeps_shares (policy : totalMinRatio (table.entries.map SlSched.sl) ≤ 100)
    (kept : SharesKept s.nRbSched table.entries) :
    ∀ call ∈ (newTxStage cell table.entries s).state.calls,
      call ∈ s.calls ∨ call.KeepsShare s.nRbSched := by
  obtain ⟨entries, distinct⟩ := table
  cases entries with
  | nil => exact fun call member => .inl member
  | cons first rest =>
    obtain ⟨own, later⟩ := kept
    obtain ⟨p, result, round⟩ := sliceTurns_cases cell s.nRbSched [] 0 first
      (rest.map (SlSched.initLimits s.nRbSched)) s
    have limit := first_limit (n := s.nRbSched) distinct
    have cap := div_le_ratioPrbs s.nRbSched first.sl.spolicy.maxRatio
    generalize limitedIs : first.limited s.nRbSched
      ([] ++ rest.map (SlSched.initLimits s.nRbSched)) = limited at result round limit
    have slice : limited.sl = first.sl := by rw [← limitedIs]; rfl
    have now : ∀ call ∈ (p.close limited).calls, call ∈ s.calls ∨ call.KeepsShare s.nRbSched := by
      intro call member
      simp only [PfState.close, result.calls, mem_append, mem_singleton] at member
      refine member.imp_right ?_
      rintro rfl
      change promisedShare s.nRbSched limited.sl.spolicy ≤ limited.maxPrbs
      rw [slice, limit]
      simp only [firstLimit, promisedShare] at own ⊢
      omega
    simp only [newTxStage, initEntries]
    rcases round with ⟨reason, _, _, stopped⟩ | ⟨_, _, stopped⟩ | ⟨_, within, goes⟩
    · rw [stopped]
      exact now
    · rw [stopped]
      exact now
    · rw [goes]
      intro call member
      have nonneg : 0 ≤ s.nRbSched := by
        have used := result.nonneg
        omega
      have need := headNeed_le_reserved nonneg rest
      have fits : reserved s.nRbSched rest ≤ s.nRbSched := by
        refine reserved_le nonneg rest ?_
        simp only [map_cons, totalMinRatio_cons] at policy
        omega
      have room : 0 + p.nRbSchedS + headNeed s.nRbSched rest ≤ s.nRbSched := by
        have least : (minRbSize : Int) = 5 := rfl
        rcases result.within with none | some <;> omega
      rcases sliceTurns_keeps_shares cell nonneg rest
        (first_next distinct rfl slice result) room call member with earlier | keeps
      · exact now call earlier
      · exact .inr keeps

theorem newTxStage_no_violation (within : WithinCounter s.nRbSched table.entries) :
    (newTxStage cell table.entries s).reason? ≠ some .prbViolation := by
  obtain ⟨entries, distinct⟩ := table
  cases entries with
  | nil => simp [newTxStage, initEntries, sliceTurns]
  | cons first rest =>
    obtain ⟨nonneg, offered⟩ := within
    obtain ⟨p, result, round⟩ := sliceTurns_cases cell s.nRbSched [] 0 first
      (rest.map (SlSched.initLimits s.nRbSched)) s
    have limit := first_limit (n := s.nRbSched) distinct
    have least : (minRbSize : Int) = 5 := rfl
    have used := result.within
    simp only [newTxStage, initEntries]
    rcases round with ⟨reason, other, _, stopped⟩ | ⟨_, exceeded, _⟩ | ⟨_, bound, goes⟩
    · rw [stopped]
      simpa using other
    · omega
    · rw [goes]
      exact sliceTurns_no_violation cell nonneg rest (first_next distinct rfl rfl result) bound

theorem retransmissionTurn_reason (ueIndex : Nat) (s : DlState κ) :
    (retransmissionTurn cell ueIndex s).reason? ≠ some .prbViolation := by
  have attempt : ∀ ue pid t, (allocateDlRetransmission cell ueIndex ue pid t).reason? ≠ some .prbViolation := by
    intro ue pid t
    unfold allocateDlRetransmission
    split
    · simp
    dsimp only
    split
    · simp
    split
    · simp
    · split
      · simp
      · split <;> simp
  unfold retransmissionTurn
  split
  · simp
  rename_i ue _
  split
  · simp
  dsimp only
  split
  · simp
  split
  · simp
  have here := attempt ue.atTurn ue.retransDlHarqHead.toNat
    { s with ues := s.ues.set ueIndex ue.atTurn }
  cases taken : allocateDlRetransmission cell ueIndex ue.atTurn
      ue.retransDlHarqHead.toNat { s with ues := s.ues.set ueIndex ue.atTurn } with
  | done t => simp
  | abort reason t => simpa [taken] using here

theorem firstStage_reason (input : DlInput κ) : input.firstStage.reason? ≠ some .prbViolation :=
  Outcome.loop_reason (fun ueIndex _ s => retransmissionTurn_reason input.cell ueIndex s) _

theorem sliceTurns_calls : ∀ call ∈ s.calls, call ∈ (sliceTurns cell n served total later s).state.calls := by
  induction later generalizing served total s with
  | nil => exact fun call member => member
  | cons entry later ih =>
    obtain ⟨p, result, round⟩ := sliceTurns_cases cell n served total entry later s
    have kept : ∀ call ∈ s.calls, call ∈ (p.close (entry.limited n (served ++ later))).calls := by
      intro call member
      simp only [PfState.close, result.calls]
      exact mem_append_left _ member
    rcases round with ⟨reason, _, _, stopped⟩ | ⟨_, _, stopped⟩ | ⟨_, _, goes⟩
    · rw [stopped]
      exact kept
    · rw [stopped]
      exact kept
    · rw [goes]
      exact fun call member => ih _ _ _ call (kept call member)

theorem sliceTurns_called :
    ∃ call ∈ (sliceTurns cell n served total (entry :: later) s).state.calls,
      call.entry = entry.limited n (served ++ later) := by
  obtain ⟨p, result, round⟩ := sliceTurns_cases cell n served total entry later s
  have here : ⟨entry.limited n (served ++ later), p.nRbSchedS⟩ ∈
      (p.close (entry.limited n (served ++ later))).calls :=
    mem_append_right _ (mem_singleton.mpr rfl)
  rcases round with ⟨reason, _, _, stopped⟩ | ⟨_, _, stopped⟩ | ⟨_, _, goes⟩
  · rw [stopped]
    exact ⟨_, here, rfl⟩
  · rw [stopped]
    exact ⟨_, here, rfl⟩
  · rw [goes]
    exact ⟨_, sliceTurns_calls _ _ _ _ _ _ _ here, rfl⟩

theorem nLeft_surjective : ∃ input : DlInput Unit, ∃ s, input.firstStage = .done s ∧ s.nRbSched = n := by
  rcases Int.lt_or_le n 0 with negative | nonneg
  · obtain ⟨s, first, counter⟩ := @retxInput_firstStage (-n).toNat (by omega)
    exact ⟨retxInput (-n).toNat, s, first, by omega⟩
  · have counted := heavyInput_counter 0 (le_refl n.toNat)
    exact ⟨heavyInput 0 n.toNat n.toNat, _, heavyInput_firstStage 0 n.toNat n.toNat, by omega⟩

theorem pfDlSlice_few {s : DlState κ} (few : s.nRbSched < 5) : ∃ p, pfDlSlice cell entry s = .done p := by
  have turns : ∀ candidates (p : PfState κ), p.dl.nRbSched < 5 →
      Outcome.loop (newTxTurn cell entry.sl.sid entry.maxPrbs) candidates p = .done p := by
    intro candidates p few
    induction candidates with
    | nil => rfl
    | cons candidate rest ih =>
      have stops : ¬ p.goesOn entry.maxPrbs := by
        rintro ⟨_, enough, _⟩
        have least : (minRbSize : Int) = 5 := rfl
        omega
      have skipped : newTxTurn cell entry.sl.sid entry.maxPrbs candidate p = .done p := by
        simp [newTxTurn, stops]
      rw [Outcome.loop_cons, skipped]
      exact ih
  exact ⟨_, turns _ _ few⟩

theorem heavy_first_round {n : Int} {first : SlSched} {rest : List SlSched}
    (distinct : ((first :: rest).map (fun entry => entry.sl.sid)).Nodup)
    (full size : Nat) (counted : (full : Int) = n) (within : full ≤ size) (enough : 5 ≤ n)
    (offered : 5 ≤ firstLimit n first rest) :
    ∃ limited p, limited.sl = first.sl ∧
      PfResult plainCell limited (heavyInput first.sl.sid full size).start p ∧
      p.nRbSchedS = min (size : Int) (firstLimit n first rest) ∧
      sliceTurns plainCell n [] 0 (initEntries n (first :: rest)) (heavyInput first.sl.sid full size).start =
        if n < p.nRbSchedS then .abort .prbViolation (p.close limited)
        else sliceTurns plainCell n ([] ++ [{ limited with minPrbs := p.nRbSchedS }])
          (0 + p.nRbSchedS) (rest.map (SlSched.initLimits n)) (p.close limited) := by
  obtain ⟨p, result, round⟩ := sliceTurns_cases plainCell n [] 0 first
    (rest.map (SlSched.initLimits n)) (heavyInput first.sl.sid full size).start
  have limit := first_limit (n := n) distinct
  generalize limitedIs : first.limited n ([] ++ rest.map (SlSched.initLimits n)) = limited at *
  have slice : limited.sl = first.sl := by rw [← limitedIs]; rfl
  obtain ⟨q, called, used⟩ := heavyInput_used within (by omega) limited (by omega)
  rw [slice] at called
  refine ⟨limited, p, slice, result, ?_, ?_⟩
  · rcases round with ⟨reason, _, aborted, _⟩ | ⟨done, _⟩ | ⟨done, _⟩
    · cases called.symm.trans aborted
    · cases called.symm.trans done
      rw [used, limit]
    · cases called.symm.trans done
      rw [used, limit]
  · rcases round with ⟨reason, _, aborted, _⟩ | ⟨_, exceeded, stopped⟩ | ⟨_, bound, goes⟩
    · cases called.symm.trans aborted
    · rw [if_pos (by omega)]
      exact stopped
    · rw [if_neg (by omega)]
      exact goes

/-- In every slot that leaves `n` resource blocks after retransmissions each slice is called with its
promised share, exactly when the uninitialised limit at index 0 respects the shares. -/
theorem min_share_isolation_iff (n : Int) (table : SlTable)
    (policy : totalMinRatio (table.entries.map SlSched.sl) ≤ 100) :
    (∀ {κ : Type} (input : DlInput κ), input.nLeft = n →
      ∀ call ∈ (input.sched table.entries).state.calls, call.KeepsShare n) ↔
      SharesKept n table.entries := by
  constructor
  · intro all
    obtain ⟨entries, distinct⟩ := table
    cases entries with
    | nil => trivial
    | cons first rest =>
      refine ⟨?_, ?_⟩
      · obtain ⟨input, s, stage, counter⟩ := nLeft_surjective n
        obtain ⟨call, member, limited⟩ := sliceTurns_called input.cell n [] 0 first
          (rest.map (SlSched.initLimits n)) s
        have keeps := all input (by rw [DlInput.nLeft, stage]; exact counter) call (by
          rw [DlInput.sched_eq, stage, Outcome.done_andThen, newTxStage, counter]
          exact member)
        have limit := first_limit (n := n) distinct
        rw [SliceCall.KeepsShare, limited, limit, firstLimit] at keeps
        have slice : (first.limited n ([] ++ rest.map (SlSched.initLimits n))).sl = first.sl := rfl
        rw [slice] at keeps
        omega
      · by_cases small : firstLimit n first rest < 5
        · exact Or.inl small
        by_cases few : n < 5
        · exact Or.inr (Or.inl few)
        cases rest with
        | nil => simp only [headNeed]; omega
        | cons second rest =>
          obtain ⟨limited, p, slice, result, used, round⟩ := heavy_first_round distinct
            n.toNat n.toNat (by omega : (n.toNat : Int) = n) (le_refl _) (by omega)
            (by omega)
          rw [if_neg (by omega), map_cons] at round
          obtain ⟨call, member, entry⟩ := sliceTurns_called plainCell n
            ([] ++ [{ limited with minPrbs := p.nRbSchedS }]) (0 + p.nRbSchedS)
            (second.initLimits n) (rest.map (SlSched.initLimits n)) (p.close limited)
          rw [← round] at member
          have left := heavyInput_nLeft first.sl.sid (le_refl n.toNat)
          have counted := heavyInput_counter first.sl.sid (le_refl n.toNat)
          have counter : (heavyInput first.sl.sid n.toNat n.toNat).start.nRbSched = n := by
            omega
          have keeps := all (heavyInput first.sl.sid n.toNat n.toNat) (by omega) call (by
            rw [DlInput.sched_eq, heavyInput_firstStage, Outcome.done_andThen, newTxStage, counter]
            exact member)
          have limit := (first_next distinct counter slice result).limit
          rw [SliceCall.KeepsShare, entry] at keeps
          change promisedShare n second.sl.spolicy ≤ _ at keeps
          simp only [headNeed]
          omega
  · intro kept κ input left call member
    rw [DlInput.sched_eq] at member
    obtain ⟨_, _, invariant⟩ := firstStage_invariant input
    cases stage : input.firstStage with
    | abort reason s =>
      rw [stage] at invariant member
      have none : s.calls = [] := invariant.calls
      rw [Outcome.abort_andThen, Outcome.state_abort, none] at member
      cases member
    | done s =>
      rw [stage] at invariant member
      have counter : s.nRbSched = n := by
        rw [← left, DlInput.nLeft, stage, Outcome.state_done]
      rw [← counter] at kept ⊢
      rcases newTxStage_keeps_shares input.cell table s policy kept call member with old | keeps
      · have none : s.calls = [] := invariant.calls
        rw [none] at old
        cases old
      · exact keeps

def staleTable (stale : Int) (firstMin secondMin : BitVec 8) : SlTable where
  entries := [⟨20, 0, 0, stale, ⟨1, ⟨1, 1⟩, ⟨0, firstMin, 100⟩⟩⟩,
    ⟨20, 0, 0, 0, ⟨2, ⟨1, 2⟩, ⟨0, secondMin, 100⟩⟩⟩]
  distinct := by simp

theorem min_share_isolation_iff_stale :
    (∀ {κ : Type} (input : DlInput κ), input.nLeft = 20 →
      ∀ call ∈ (input.sched (staleTable 20 50 50).entries).state.calls, call.KeepsShare 20) ↔
      SharesKept 20 (staleTable 20 50 50).entries :=
  min_share_isolation_iff 20 (staleTable 20 50 50) (by decide)

/-- With 20 resource blocks, half of them reserved for each slice, a stale limit of zero calls the first
slice with -10. With half reserved for the second and nothing for the first, a stale limit of 1000 lets
the first take everything. -/
theorem min_share_stale_limit :
    (heavyInput 1 20 20).nLeft = 20 ∧
    ((heavyInput 1 20 20).sched (staleTable 0 50 50).entries).state.calls.map
      (fun call => (call.entry.sl.sid, call.entry.maxPrbs, promisedShare 20 call.entry.sl.spolicy,
        call.used)) = [(1, -10, 10, 0), (2, 20, 10, 0)] ∧
    ((heavyInput 1 20 20).sched (staleTable 1000 0 50).entries).state.calls.map
      (fun call => (call.entry.sl.sid, call.entry.maxPrbs, promisedShare 20 call.entry.sl.spolicy,
        call.used)) = [(1, 20, 0, 20), (2, 0, 10, 0)] := by
  decide

/-- In every slot that leaves the counter at `n` after retransmissions the PRB assertion holds, exactly
when the counter is not negative and the uninitialised limit at index 0 is not above it. -/
theorem prb_violation_iff (n : Int) (table : SlTable) :
    (∀ {κ : Type} (input : DlInput κ), input.nLeft = n →
      (input.sched table.entries).reason? ≠ some .prbViolation) ↔
      WithinCounter n table.entries := by
  constructor
  · intro all
    obtain ⟨entries, distinct⟩ := table
    cases entries with
    | nil => trivial
    | cons first rest =>
      have nonneg : 0 ≤ n := by
        by_contra negative
        obtain ⟨input, s, stage, counter⟩ := nLeft_surjective n
        refine all input (by rw [DlInput.nLeft, stage]; exact counter) ?_
        rw [DlInput.sched_eq, stage, Outcome.done_andThen, newTxStage, counter]
        obtain ⟨p, result, round⟩ := sliceTurns_cases input.cell n [] 0 first
          (rest.map (SlSched.initLimits n)) s
        obtain ⟨q, called⟩ := pfDlSlice_few input.cell
          (first.limited n ([] ++ rest.map (SlSched.initLimits n))) (by omega : s.nRbSched < 5)
        have used := result.nonneg
        rcases round with ⟨reason, _, aborted, _⟩ | ⟨_, _, stopped⟩ | ⟨_, bound, _⟩
        · rw [called] at aborted
          cases aborted
        · rw [initEntries, stopped]
          rfl
        · omega
      refine ⟨nonneg, ?_⟩
      by_contra beyond
      obtain ⟨limited, p, slice, result, used, round⟩ := heavy_first_round distinct
        n.toNat (n.toNat + 1) (by omega : (n.toNat : Int) = n) (by omega) (by omega)
        (by omega)
      rw [if_pos (by omega)] at round
      have wider : n.toNat ≤ n.toNat + 1 := Nat.le_succ _
      have left := heavyInput_nLeft first.sl.sid wider
      have counted := heavyInput_counter first.sl.sid wider
      refine all (heavyInput first.sl.sid n.toNat (n.toNat + 1)) (by omega) ?_
      have counter : (heavyInput first.sl.sid n.toNat (n.toNat + 1)).start.nRbSched = n := by omega
      rw [DlInput.sched_eq, heavyInput_firstStage, Outcome.done_andThen, newTxStage, counter]
      exact congrArg Outcome.reason? round
  · intro within κ input left
    rw [DlInput.sched_eq]
    have stageReason := firstStage_reason input
    cases stage : input.firstStage with
    | abort reason s =>
      rw [stage] at stageReason
      simpa using stageReason
    | done s =>
      have counter : s.nRbSched = n := by
        rw [← left, DlInput.nLeft, stage, Outcome.state_done]
      rw [← counter] at within
      exact newTxStage_no_violation input.cell table s within

/-- A retransmission of ten resource blocks that are free in its symbols 1 to 5 only, where resource blocks
are counted with symbols 1 to 13: the counter ends at -10 and the assertion fails, with all limits zero. -/
theorem prb_violation_shorter_tda :
    (retxInput 10).start.nRbSched = 0 ∧ (retxInput 10).nLeft = -10 ∧
    ((retxInput 10).sched (staleTable 0 0 0).entries).reason? = some .prbViolation := by
  decide

end OranSlice.Mac
