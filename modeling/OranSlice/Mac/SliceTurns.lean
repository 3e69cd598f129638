import OranSlice.Mac.DlInput

/-! The loop over the slices: who is served in it, and with how much. -/

namespace OranSlice.Mac

open List

variable {κ : Type}

def PfState.close (p : PfState κ) (entry : SlSched) : DlState κ :=
  { p.dl with calls := p.dl.calls ++ [⟨entry, p.nRbSchedS⟩] }

theorem sliceTurns_cases (cell : DlCell κ) (n : Int) (served : List SlSched) (total : Int)
    (entry : SlSched) (later : List SlSched) (s : DlState κ) :
    ∃ p, PfResult cell (entry.limited n (served ++ later)) s p ∧ ((∃ reason, reason ≠ .prbViolation ∧
          pfDlSlice cell (entry.limited n (served ++ later)) s = .abort reason p ∧
          sliceTurns cell n served total (entry :: later) s =
            .abort reason (p.close (entry.limited n (served ++ later)))) ∨
        (pfDlSlice cell (entry.limited n (served ++ later)) s = .done p ∧ n < total + p.nRbSchedS ∧
          sliceTurns cell n served total (entry :: later) s =
            .abort .prbViolation (p.close (entry.limited n (served ++ later)))) ∨
        (pfDlSlice cell (entry.limited n (served ++ later)) s = .done p ∧ total + p.nRbSchedS ≤ n ∧
          sliceTurns cell n served total (entry :: later) s = sliceTurns cell n
              (served ++ [{ entry.limited n (served ++ later) with minPrbs := p.nRbSchedS }])
              (total + p.nRbSchedS) later (p.close (entry.limited n (served ++ later))))) := by
  have result := pfDlSlice_result cell (entry.limited n (served ++ later)) s
  have reason := pfDlSlice_reason cell (entry.limited n (served ++ later)) s
  simp only [sliceTurns]
  cases called : pfDlSlice cell (entry.limited n (served ++ later)) s with
  | abort why p =>
    rw [called] at reason result
    exact ⟨p, result, .inl ⟨why, by simpa using reason, rfl, rfl⟩⟩
  | done p =>
    rw [called] at result
    refine ⟨p, result, .inr ?_⟩
    by_cases exceeded : total + p.nRbSchedS > n
    · simp only [if_pos exceeded]
      exact .inl ⟨trivial, exceeded, rfl⟩
    · simp only [if_neg exceeded]
      exact .inr ⟨trivial, by omega, rfl⟩

def Serves (contexts : List UeInfo) (sid : Nat) (grant : Grant) : Prop :=
  contexts[grant.ueIndex]? = some grant.ue.context ∧ grant.ue.sliceForThisSched = sid ∧
    grant.ue.alreadySched = false

variable {cell : DlCell κ} {sid : Nat} {s t u : DlState κ} {grant : Grant}
  {grants front back new : List Grant} {n : Int} {others later : List SlSched} {entry : SlSched}
  {p : PfState κ}

theorem serves_of_candidate (member : (grant.ue, grant.ueIndex) ∈ candidates cell sid s) :
    Serves (s.ues.map UeInfo.context) sid grant := by
  obtain ⟨⟨ue, index⟩, listed, same⟩ := mem_map.mp member
  obtain ⟨present, eligible⟩ := mem_filter.mp listed
  simp only [Prod.mk.injEq] at same
  obtain ⟨sameUe, rfl⟩ := same
  have position := mk_mem_zipIdx_iff_getElem?.mp present
  simp only [UeInfo.eligible, Bool.and_eq_true, Bool.not_eq_true', beq_iff_eq] at eligible
  refine ⟨?_, ?_, ?_⟩
  · rw [getElem?_map, position, ← sameUe]
    rfl
  · rw [← sameUe]
    exact eligible.1.1.1.2
  · rw [← sameUe]
    exact eligible.1.1.1.1.2

def grantsOf (sid : Nat) (grants : List Grant) : List Grant :=
  grants.filter (fun grant => grant.sid = some sid)

theorem grantsOf_all (own : ∀ grant ∈ grants, grant.sid = some sid) : grantsOf sid grants = grants :=
  filter_eq_self.mpr fun grant member => by simpa using own grant member

theorem grantsOf_none (others : ∀ grant ∈ grants, grant.sid ≠ some sid) : grantsOf sid grants = [] :=
  filter_eq_nil_iff.mpr fun grant member => by simpa using others grant member

structure NewGrants (cell : DlCell κ) (n : Int) (later : List SlSched) (s t : DlState κ)
    (new : List Grant) : Prop where
  grants : t.grants = s.grants ++ new
  chain : MaskChain s.mask new t.mask
  made : ∀ grant ∈ new, ∃ entry ∈ later, NewTxGrant cell entry.sl.sid grant ∧
    Serves (s.ues.map UeInfo.context) entry.sl.sid grant
  once : (new.map Grant.ueIndex).Nodup
  share : ∀ entry ∈ later, (grantedRbs (grantsOf entry.sl.sid new) : Int) ≤
    max 0 (ratioPrbs n entry.sl.spolicy.maxRatio)

theorem limited_le_cap (n : Int) (others : List SlSched) (entry : SlSched) :
    (entry.limited n others).maxPrbs ≤ ratioPrbs n entry.sl.spolicy.maxRatio := by
  unfold SlSched.limited
  dsimp only
  split <;> omega

theorem PfResult.used_le (result : PfResult cell (entry.limited n others) s p) :
    p.nRbSchedS ≤ max 0 (ratioPrbs n entry.sl.spolicy.maxRatio) := by
  have cap := limited_le_cap n others entry
  rcases result.within with none | some
  · omega
  · omega

theorem PfResult.newGrants (result : PfResult cell (entry.limited n others) s p) :
    ∃ new, NewGrants cell n [entry] s (p.close (entry.limited n others)) new := by
  obtain ⟨new, entered, total, chain, own, once⟩ := result.grants
  refine ⟨new, entered, chain, ?_, once, ?_⟩
  · intro grant member
    obtain ⟨made, candidate⟩ := own grant member
    exact ⟨entry, mem_singleton.mpr rfl, made, serves_of_candidate candidate⟩
  · intro other member
    obtain rfl := mem_singleton.mp member
    have all : grantsOf other.sl.sid new = new := grantsOf_all fun grant inside => (own grant inside).1.slice
    rw [all, total]
    exact result.used_le

section

variable (distinct : ((entry :: later).map (fun entry => entry.sl.sid)).Nodup)
  (contexts : t.ues.map UeInfo.context = s.ues.map UeInfo.context)

include distinct contexts

theorem NewGrants.append (first : NewGrants cell n [entry] s t front) (rest : NewGrants cell n later t u back) :
    NewGrants cell n (entry :: later) s u (front ++ back) := by
  have own : ∀ grant ∈ front, NewTxGrant cell entry.sl.sid grant ∧
      Serves (s.ues.map UeInfo.context) entry.sl.sid grant := by
    intro grant member
    obtain ⟨other, inside, made⟩ := first.made grant member
    rwa [mem_singleton.mp inside] at made
  have others : ∀ grant ∈ back, ∃ other ∈ later, NewTxGrant cell other.sl.sid grant ∧
      Serves (s.ues.map UeInfo.context) other.sl.sid grant := by
    intro grant member
    obtain ⟨other, inside, made, serves⟩ := rest.made grant member
    exact ⟨other, inside, made, contexts ▸ serves⟩
  have apart : ∀ other ∈ later, other.sl.sid ≠ entry.sl.sid := by
    intro other member same
    have fresh := (nodup_cons.mp distinct).1
    exact fresh (mem_map.mpr ⟨other, member, same⟩)
  refine ⟨?_, first.chain.append rest.chain, ?_, ?_, ?_⟩
  · rw [rest.grants, first.grants, append_assoc]
  · intro grant member
    rcases mem_append.mp member with early | late
    · exact ⟨entry, mem_cons_self, own grant early⟩
    · obtain ⟨other, inside, both⟩ := others grant late
      exact ⟨other, mem_cons_of_mem _ inside, both⟩
  · rw [map_append, nodup_append]
    refine ⟨first.once, rest.once, ?_⟩
    -- two grants for one UE would have to come from the one slice selected for it
    intro index early other late same
    obtain ⟨grant, inFront, rfl⟩ := mem_map.mp early
    obtain ⟨grant', inBack, rfl⟩ := mem_map.mp late
    obtain ⟨slice, inside, _, serves'⟩ := others grant' inBack
    obtain ⟨_, serves⟩ := own grant inFront
    have sameUe : grant.ue.context = grant'.ue.context := by
      have both := serves.1
      rw [same, serves'.1] at both
      exact (Option.some.inj both).symm
    have sameSlice := congrArg UeInfo.sliceForThisSched sameUe
    exact apart slice inside (serves'.2.1.symm.trans (sameSlice.symm.trans serves.2.1))
  · intro slice member
    rw [grantsOf, filter_append]
    rcases mem_cons.mp member with rfl | inside
    · have none : grantsOf slice.sl.sid back = [] := grantsOf_none fun grant late => by
        obtain ⟨other, inLater, made, _⟩ := others grant late
        rw [made.slice]
        exact fun same => apart other inLater (Option.some.inj same)
      have share := first.share slice (mem_singleton.mpr rfl)
      rw [← grantsOf, ← grantsOf, none]
      simpa using share
    · have none : grantsOf slice.sl.sid front = [] := grantsOf_none fun grant early => by
        rw [(own grant early).1.slice]
        exact fun same => apart slice inside (Option.some.inj same).symm
      have share := rest.share slice inside
      rw [← grantsOf, ← grantsOf, none]
      simpa using share

theorem NewGrants.first (first : NewGrants cell n [entry] s t new) : NewGrants cell n (entry :: later) s t new := by
  have idle : NewGrants cell n later t t [] := ⟨by simp, rfl, by simp, by simp, fun slice _ => le_max_left 0 _⟩
  simpa using first.append distinct contexts idle

end

theorem sliceTurns_grants (cell : DlCell κ) (n : Int) (served : List SlSched) (total : Int)
    (later : List SlSched) (s : DlState κ) (distinct : (later.map (fun entry => entry.sl.sid)).Nodup) :
    ∃ new, NewGrants cell n later s (sliceTurns cell n served total later s).state new := by
  induction later generalizing served total s with
  | nil => exact ⟨[], by simp [sliceTurns], rfl, by simp, by simp, by simp⟩
  | cons entry later ih =>
    obtain ⟨p, result, round⟩ := sliceTurns_cases cell n served total entry later s
    obtain ⟨front, first⟩ := result.newGrants
    have contexts : (p.close (entry.limited n (served ++ later))).ues.map UeInfo.context =
        s.ues.map UeInfo.context := result.contexts
    rcases round with ⟨reason, _, _, stopped⟩ | ⟨_, _, stopped⟩ | ⟨_, _, goes⟩
    · rw [stopped]
      exact ⟨front, first.first distinct contexts⟩
    · rw [stopped]
      exact ⟨front, first.first distinct contexts⟩
    · rw [goes]
      obtain ⟨back, rest⟩ := ih _ _ _ (nodup_cons.mp distinct).2
      exact ⟨front ++ back, first.append distinct contexts rest⟩

end OranSlice.Mac
