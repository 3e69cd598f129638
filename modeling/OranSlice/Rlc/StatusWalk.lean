import OranSlice.Rlc.RxOrder
import OranSlice.Rlc.StatusNacks

/-! The walk over the received PDUs that finds the missing parts. -/

namespace OranSlice.Rlc

open Window List

variable {cfg : AmConfig} {rx : AmRx} {done : Int → Nat → Prop} {list : List Pdu}

namespace AmRx

def Precedes (cfg : AmConfig) (rx : AmRx) (sn : Int) (k : Nat) (sn' : Int) (k' : Nat) : Prop :=
  rx.modulusRx cfg sn < rx.modulusRx cfg sn' ∨ (sn = sn' ∧ k < k')

structure MissingPart (cfg : AmConfig) (rx : AmRx) (done : Int → Nat → Prop) (list : List Pdu)
    (m : MissingData) : Prop where
  encodable : m.Encodable cfg
  ordered : rx.modulusRx cfg m.snStart ≤ rx.modulusRx cfg m.snEnd
  reported : rx.modulusRx cfg m.snEnd < rx.modulusRx cfg rx.rxHighestStatus
  held : ∀ sn k, Within cfg.snModulus sn → ¬ done sn k → rx.Precedes cfg sn k m.snStart m.soStart →
    Holds rx.rxList sn k
  next : (m.next = [] ∧ m.soEnd = soEndOfSdu ∧
      rx.modulusRx cfg m.snEnd + 1 = rx.modulusRx cfg rx.rxHighestStatus) ∨
    ∃ cur rest, m.next = cur :: rest ∧ cur :: rest <:+ list ∧
      ((m.soEnd = soEndOfSdu ∧ cur.so = 0 ∧ rx.modulusRx cfg cur.sn = rx.modulusRx cfg m.snEnd + 1) ∨
        (m.soEnd < soEndOfSdu ∧ cur.so = m.soEnd + 1 ∧ cur.sn = m.snEnd))

def Found (cfg : AmConfig) (rx : AmRx) (done : Int → Nat → Prop) (list : List Pdu) :
    Option MissingData → Prop
  | none => ∀ sn k, Within cfg.snModulus sn → ¬ done sn k →
      rx.modulusRx cfg sn < rx.modulusRx cfg rx.rxHighestStatus → Holds rx.rxList sn k
  | some m => rx.MissingPart cfg done list m

theorem reportable_iff (sn : Int) : rx.reportable cfg sn = true ↔
    rx.modulusRx cfg sn < rx.modulusRx cfg rx.rxHighestStatus := by
  unfold reportable snCompareRx
  simp only [Bool.not_eq_true', decide_eq_false_iff_not]
  omega

structure StartsAt (cfg : AmConfig) (rx : AmRx) (done : Int → Nat → Prop) (sn : Int) (so : Nat) : Prop where
  inside : Within cfg.snModulus sn
  held : ∀ sn' k, Within cfg.snModulus sn' → ¬ done sn' k → rx.Precedes cfg sn' k sn so →
    Holds rx.rxList sn' k

variable {sn : Int} {so maxSo k : Nat} {cur : Pdu} {rest : List Pdu} {lastReached reached checkHead : Bool}

theorem StartsAt.not_reportable (starts : rx.StartsAt cfg done sn so)
    (beyond : ¬ rx.reportable cfg sn = true) : rx.Found cfg done list none := by
  rw [reportable_iff] at beyond
  intro sn' k fits open_ below
  exact starts.held sn' k fits open_ (.inl (by omega))

theorem StartsAt.toLastReported (ok : rx.ListOk cfg) (starts : rx.StartsAt cfg done sn so)
    (inside : rx.modulusRx cfg sn < rx.modulusRx cfg rx.rxHighestStatus) :
    rx.MissingPart cfg done list ⟨sn, so, rx.lastReported cfg, soEndOfSdu, []⟩ := by
  have low := (distance_bounds ok.space.next starts.inside).1
  have last : rx.modulusRx cfg (rx.lastReported cfg) = rx.modulusRx cfg rx.rxHighestStatus - 1 := by
    apply distance_pred ok.space.next ok.space.highestStatus
    unfold modulusRx at inside
    omega
  refine ⟨⟨starts.inside, pred_within ok.space.highestStatus, le_refl _⟩, ?_, ?_, starts.held,
    .inl ⟨rfl, rfl, ?_⟩⟩
  · dsimp only
    omega
  · dsimp only
    omega
  · dsimp only
    omega

theorem StartsAt.setEndDifferentSdu (ok : rx.ListOk cfg)
    (starts : rx.StartsAt cfg done sn so) (inside : rx.reportable cfg sn = true)
    (member : cur ∈ rx.rxList) (suffix : cur :: rest <:+ list)
    (first : cur.isFirst = true → rx.modulusRx cfg sn < rx.modulusRx cfg cur.sn)
    (later : rx.modulusRx cfg sn ≤ rx.modulusRx cfg cur.sn) :
    rx.MissingPart cfg done list (rx.setEndDifferentSdu cfg sn so cur rest) := by
  rw [reportable_iff] at inside
  have fits := ok.list.inside cur member
  have shaped := ok.list.shaped cur member
  have low := (distance_bounds ok.space.next starts.inside).1
  unfold AmRx.setEndDifferentSdu
  cases isFirst : cur.isFirst with
  | true =>
    have ahead := first isFirst
    have stop := distance_pred ok.space.next fits (show 0 < distance _ _ _ by
      unfold modulusRx at ahead
      omega)
    change rx.modulusRx cfg _ = rx.modulusRx cfg cur.sn - 1 at stop
    simp only [if_true]
    split
    · exact starts.toLastReported ok inside
    rename_i below
    rw [snCompareRx] at below
    refine ⟨⟨starts.inside, pred_within fits, le_refl _⟩, ?_, ?_, starts.held,
      .inr ⟨cur, rest, rfl, suffix, .inl ⟨rfl, shaped.first.mp isFirst, ?_⟩⟩⟩ <;>
    · dsimp only
      omega
  | false =>
    have offset : cur.so ≠ 0 := by
      intro zero
      rw [shaped.first.mpr zero] at isFirst
      cases isFirst
    have high := shaped.soHigh
    have limit : soEndOfSdu = 2 ^ 16 - 1 := rfl
    simp only [Bool.false_eq_true, if_false]
    split
    · exact starts.toLastReported ok inside
    rename_i below
    rw [snCompareRx] at below
    refine ⟨⟨starts.inside, fits, ?_⟩, later, ?_, starts.held,
      .inr ⟨cur, rest, rfl, suffix, .inr ⟨?_, ?_, rfl⟩⟩⟩ <;>
    · dsimp only
      omega

structure Walked (cfg : AmConfig) (rx : AmRx) (done : Int → Nat → Prop) (maxSo : Nat) (lastReached : Bool)
    (cur : Pdu) : Prop where
  member : cur ∈ rx.rxList
  before : ∀ sn k, Within cfg.snModulus sn → ¬ done sn k →
    rx.modulusRx cfg sn < rx.modulusRx cfg cur.sn ∨ (sn = cur.sn ∧ (k < cur.so ∨ k ≤ maxSo)) →
    Holds rx.rxList sn k
  behind : lastReached = true → ∀ k, maxSo < k → Holds rx.rxList cur.sn k

theorem Walked.include (walked : rx.Walked cfg done maxSo lastReached cur) :
    (∀ sn k, Within cfg.snModulus sn → ¬ done sn k → rx.modulusRx cfg sn < rx.modulusRx cfg cur.sn ∨
        (sn = cur.sn ∧ k ≤ max maxSo (cur.so + cur.size - 1)) → Holds rx.rxList sn k) ∧
    ((lastReached || cur.isLast) = true →
      ∀ k, max maxSo (cur.so + cur.size - 1) < k → Holds rx.rxList cur.sn k) := by
  constructor
  · intro sn k fits open_ place
    by_cases inside : sn = cur.sn ∧ cur.so ≤ k ∧ k < cur.so + cur.size
    · exact ⟨cur, walked.member, inside.1.symm, .inl inside.2⟩
    refine walked.before sn k fits open_ (place.imp_right (fun here => ⟨here.1, ?_⟩))
    omega
  · intro reached k beyond
    rcases Bool.or_eq_true_iff.mp reached with earlier | isLast
    · exact walked.behind earlier k (by omega)
    · exact ⟨cur, walked.member, rfl, .inr ⟨isLast, by omega⟩⟩

theorem Walked.missingStart (ok : rx.ListOk cfg) (sound : cfg.Sound) (member : cur ∈ rx.rxList)
    (before : ∀ sn k, Within cfg.snModulus sn → ¬ done sn k →
      rx.modulusRx cfg sn < rx.modulusRx cfg cur.sn ∨ (sn = cur.sn ∧ k ≤ maxSo) → Holds rx.rxList sn k)
    (behind : reached = true → ∀ k, maxSo < k → Holds rx.rxList cur.sn k) :
    rx.StartsAt cfg done (Rlc.missingStart cfg cur maxSo reached).1 (Rlc.missingStart cfg cur maxSo reached).2 ∧
      rx.modulusRx cfg (Rlc.missingStart cfg cur maxSo reached).1 =
        rx.modulusRx cfg cur.sn + if reached then 1 else 0 := by
  have fits := ok.list.inside cur member
  have near := ok.list.near cur member
  have window := sound.modulus_eq
  have large := sound.modulus_large
  have next := distance_succ ok.space.next fits (by omega)
  unfold Rlc.missingStart
  cases reached with
  | true =>
    simp only [if_true]
    refine ⟨⟨within_mod (by omega) _, ?_⟩, next⟩
    intro sn k inside open_ place
    have order : rx.modulusRx cfg sn < rx.modulusRx cfg cur.sn ∨ sn = cur.sn := by
      rcases place with lower | ⟨_, never⟩
      · change rx.modulusRx cfg sn < distance _ _ _ at lower
        rw [next] at lower
        rcases Int.lt_or_eq_of_le (Int.lt_add_one_iff.mp lower) with below | equal
        · exact .inl below
        · exact .inr ((distance_inj ok.space.next inside fits).mp equal)
      · exact absurd never (Nat.not_lt_zero k)
    by_cases high : maxSo < k ∧ sn = cur.sn
    · rw [high.2]
      exact behind rfl k high.1
    · exact before sn k inside open_ (order.imp_right (fun same => ⟨same, by omega⟩))
  | false =>
    simp only [Bool.false_eq_true, if_false, add_zero, and_true]
    refine ⟨fits, fun sn k inside open_ place => before sn k inside open_ ?_⟩
    exact place.imp_right (fun here => ⟨here.1, by omega⟩)

theorem missingAfter_found (ok : rx.ListOk cfg) (sound : cfg.Sound)
    (walked : rx.Walked cfg done maxSo lastReached cur)
    (suffix : cur :: rest <:+ rx.rxList) (inside : rest <:+ list) :
    rx.Found cfg done list (rx.missingAfter cfg maxSo lastReached cur rest) := by
  induction rest generalizing cur maxSo lastReached with
  | nil =>
    obtain ⟨before, behind⟩ := walked.include
    -- a delivered SDU is held in whole
    have ended : (lastReached || cur.isLast || cur.data.isNone) = true →
        ∀ k, max maxSo (cur.so + cur.size - 1) < k → Holds rx.rxList cur.sn k := by
      intro reached k beyond
      rcases Bool.or_eq_true_iff.mp reached with last | consumed
      · exact behind last k beyond
      · exact ok.list.complete cur walked.member (Option.isNone_iff_eq_none.mp consumed) k
    obtain ⟨starts, _⟩ := Walked.missingStart ok sound walked.member before ended
    unfold AmRx.missingAfter
    dsimp only
    split_ifs with reported
    · exact starts.toLastReported ok ((reportable_iff _).mp reported)
    · exact starts.not_reportable reported
  | cons next rest ih =>
    obtain ⟨before, behind⟩ := walked.include
    have sorted := ok.list.sorted.sublist suffix.sublist
    have ordered := (pairwise_cons.mp sorted).1 next mem_cons_self
    have nextSuffix : next :: rest <:+ rx.rxList := (suffix_cons cur _).trans suffix
    have nextMember : next ∈ rx.rxList := nextSuffix.subset mem_cons_self
    have nextShaped := ok.list.shaped next nextMember
    have restInside : rest <:+ list := (suffix_cons next rest).trans inside
    have fits := ok.list.inside cur walked.member
    have nextFits := ok.list.inside next nextMember
    obtain ⟨starts, place⟩ := Walked.missingStart ok sound walked.member before behind
    unfold AmRx.missingAfter
    dsimp only
    split
    · -- the next PDU continues the SDU
      rename_i continues
      refine ih ⟨nextMember, ?_, ?_⟩ nextSuffix restInside
      · intro sn k inSpace open_ place
        rw [continues.1] at place
        exact before sn k inSpace open_ (place.imp_right (fun here => ⟨here.1, by omega⟩))
      · rw [continues.1]
        exact behind
    · split
      · -- the next PDU starts the next SDU
        rename_i starting
        refine ih ⟨nextMember, ?_, fun never => absurd never (by decide)⟩ nextSuffix restInside
        intro sn k inSpace open_ place
        rw [starting.2.1] at starts
        rcases place with lower | ⟨same, _⟩
        · apply starts.held sn k inSpace open_
          rw [starting.1] at lower
          exact .inl lower
        · have head := nextShaped.first.mp starting.2.2
          have size := nextShaped.size
          exact ⟨next, nextMember, same.symm, .inl ⟨by omega, by omega⟩⟩
      · rename_i notNext
        split
        · -- a gap in the SDU
          rename_i same
          have gap : rx.StartsAt cfg done cur.sn (max maxSo (cur.so + cur.size - 1) + 1) := by
            refine ⟨fits, fun sn k inSpace open_ place => before sn k inSpace open_ ?_⟩
            exact place.imp_right (fun here => ⟨here.1, by omega⟩)
          split_ifs with reported
          · have high := nextShaped.soHigh
            have limit : soEndOfSdu = 2 ^ 16 - 1 := rfl
            refine ⟨⟨fits, fits, ?_⟩, le_refl _, (reportable_iff _).mp reported, gap.held,
              .inr ⟨next, rest, rfl, inside, .inr ⟨?_, ?_, same⟩⟩⟩ <;>
            · dsimp only
              omega
          · exact gap.not_reportable reported
        · rename_i different
          have above : rx.modulusRx cfg cur.sn < rx.modulusRx cfg next.sn := by
            rcases ordered with lower | ⟨same, _⟩
            · exact lower
            · exact absurd same.symm different
          split_ifs with reported
          · refine starts.setEndDifferentSdu ok reported nextMember inside ?_ ?_
            · intro isFirst
              rw [place]
              split_ifs with reached
              · have skipped : next.sn ≠ (cur.sn + 1) % cfg.snModulus :=
                  fun adjacent => notNext ⟨adjacent, reached, isFirst⟩
                rw [Rlc.missingStart, if_pos reached] at place starts
                rw [if_pos reached] at place
                have apart : rx.modulusRx cfg next.sn ≠ rx.modulusRx cfg ((cur.sn + 1) % cfg.snModulus) :=
                  fun equal => skipped ((distance_inj ok.space.next nextFits starts.inside).mp equal)
                rw [place] at apart
                omega
              · omega
            · rw [place]
              split <;> omega
          · exact starts.not_reportable reported

theorem not_precedes_start (ok : rx.ListOk cfg) (inside : Within cfg.snModulus sn) :
    ¬ rx.Precedes cfg sn k rx.rxNext 0 := by
  have nearest := (distance_bounds ok.space.next inside).1
  rintro (lower | ⟨_, never⟩)
  · unfold modulusRx at lower
    rw [distance_self] at lower
    omega
  · exact Nat.not_lt_zero k never

theorem nextMissing_found (ok : rx.ListOk cfg) (sound : cfg.Sound) (suffix : cur :: rest <:+ rx.rxList)
    (inside : rest <:+ list) (headInside : checkHead = true → cur :: rest <:+ list) :
    rx.Found cfg (fun sn k => checkHead = false ∧ rx.Precedes cfg sn k cur.sn cur.so) list
      (rx.nextMissing cfg cur rest checkHead) := by
  have member : cur ∈ rx.rxList := suffix.subset mem_cons_self
  have shaped := ok.list.shaped cur member
  have fits := ok.list.inside cur member
  have low : 0 ≤ rx.modulusRx cfg cur.sn := (distance_bounds ok.space.next fits).1
  have base : rx.modulusRx cfg rx.rxNext = 0 := distance_self
  unfold AmRx.nextMissing
  by_cases head : checkHead = true ∧ (cur.sn ≠ rx.rxNext ∨ (!cur.isFirst) = true)
  · -- something is missing before the head
    rw [if_pos head]
    have starts : rx.StartsAt cfg (fun sn k => checkHead = false ∧ rx.Precedes cfg sn k cur.sn cur.so)
        rx.rxNext 0 :=
      ⟨ok.space.next, fun sn k inSpace _ place => absurd place (not_precedes_start ok inSpace)⟩
    split_ifs with reported
    · refine starts.setEndDifferentSdu ok reported member (headInside head.1) ?_ (by omega)
      intro isFirst
      have moved : cur.sn ≠ rx.rxNext := by
        rcases head.2 with moved | notFirst
        · exact moved
        · rw [isFirst] at notFirst
          cases notFirst
      have apart : rx.modulusRx cfg cur.sn ≠ rx.modulusRx cfg rx.rxNext :=
        fun equal => moved ((distance_inj ok.space.next fits ok.space.next).mp equal)
      omega
    · exact starts.not_reportable reported
  · rw [if_neg head]
    refine missingAfter_found ok sound ⟨member, ?_, fun never => absurd never Bool.false_ne_true⟩ suffix inside
    intro sn k inSpace open_ place
    have notBefore : ¬ rx.Precedes cfg sn k cur.sn cur.so := by
      cases checked : checkHead with
      | false => exact fun before => open_ ⟨checked, before⟩
      | true =>
        simp only [checked, true_and, not_or, not_not, Bool.not_eq_true', Bool.not_eq_false] at head
        rw [head.1, shaped.first.mp head.2]
        exact not_precedes_start ok inSpace
    rcases place with lower | ⟨same, offset⟩
    · exact absurd (.inl lower) notBefore
    · have notBelow : ¬ k < cur.so := fun below => notBefore (.inr ⟨same, below⟩)
      have size := shaped.size
      exact ⟨cur, member, same.symm, .inl ⟨by omega, by omega⟩⟩

end AmRx

end OranSlice.Rlc
