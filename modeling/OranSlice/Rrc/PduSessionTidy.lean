import OranSlice.Rrc.PduSession

/-! The correspondence of PDU sessions and DRBs of a UE, and the changes of the two tables that keep it. -/

namespace OranSlice.Rrc

open Function List

variable {ue next : UeContext} {id : Nat}

namespace UeContext

def Named (ue : UeContext) (id : Nat) : Prop := ∃ d, ue.Names d id

def Listed (ue : UeContext) (id : Nat) : Prop :=
  ∃ i, i < ue.nbOfPdusessions ∧ (ue.pduSession i).pdusessionId = id

def Present (ue : UeContext) (i : Nat) : Prop :=
  i < ue.nbOfPdusessions ∧ (ue.pduSession i).status ≠ .released

instance (ue : UeContext) (id : Nat) : Decidable (ue.Named id) :=
  decidable_of_iff (∃ d, d < maxDrbsPerUe ∧ ue.Names d id)
    (exists_congr fun _ => and_iff_right_of_imp fun names => names.1)

instance (ue : UeContext) (id : Nat) : Decidable (ue.Listed id) :=
  inferInstanceAs (Decidable (∃ i, i < ue.nbOfPdusessions ∧ (ue.pduSession i).pdusessionId = id))

structure Consistent (ue : UeContext) : Prop where
  bound : ue.nbOfPdusessions ≤ ngapMaxPduSession
  distinct : ∀ i j, ue.Present i → ue.Present j →
    (ue.pduSession i).pdusessionId = (ue.pduSession j).pdusessionId → i = j
  oneDrb : ∀ id ∈ ue.setUp, ∃! d, ue.Names d id
  present : ∀ d id, ue.Names d id → ∃ i, ue.Present i ∧ (ue.pduSession i).pdusessionId = id

def activeDrbs (ue : UeContext) : Finset Nat :=
  (Finset.range maxDrbsPerUe).filter fun d => (ue.establishedDrbs d).status ≠ .inactive

def Room (ue : UeContext) (ids : List Nat) : Prop :=
  ue.nbOfPdusessions + (ids.toFinset.filter fun id => ¬ ue.Listed id).card ≤ ngapMaxPduSession

def ClearsUnnamed (ue : UeContext) (ofTransaction : PduSession → Prop) : Prop :=
  ∀ i, i < ue.nbOfPdusessions → ofTransaction (ue.pduSession i) → ¬ ue.Named (ue.pduSession i).pdusessionId

/-- One entry at most has the id 0: the answer to a setup makes a failed session of each cleared entry. -/
def OneZero (ue : UeContext) : Prop :=
  ∀ i, i < ue.nbOfPdusessions → ∀ j, j < ue.nbOfPdusessions →
    (ue.pduSession i).pdusessionId = 0 → (ue.pduSession j).pdusessionId = 0 → i = j

def CompletionAllowed (ue : UeContext) (xid : Fin 4) : RrcAction → Prop
  | .pdusessionRelease => ue.ClearsUnnamed fun session => session.xid = xid.val
  | .pdusessionEstablish => ue.OneZero
  | .pdusessionModify => True
  | .none => True

end UeContext

def idsOf (sessions : RequestedSessions) : List Nat := sessions.val.map (·.pdusessionId)

/-- Sessions are set up once each and while one of the DRBs 1 to 31 is inactive, sessions to modify have
a DRB or are unknown, only entries that no DRB names are cleared, the array has room for unknown
sessions, and the id 0 of cleared entries is not used. -/
def SessionEvent.Allowed (ue : UeContext) : SessionEvent → Prop
  | .setupReq sessions =>
    (idsOf sessions).Nodup ∧ (∀ id ∈ idsOf sessions, id ≠ 0 ∧ ¬ ue.Named id) ∧
      ue.activeDrbs.card + (idsOf sessions).length < maxDrbsPerUe ∧ ue.Room (idsOf sessions)
  | .dedicatedReconfiguration _ => True
  | .modifyReq sessions _ =>
    (∀ id ∈ idsOf sessions, id ≠ 0 ∧ (ue.Named id ∨ ¬ ue.Listed id ∧ (idsOf sessions).count id = 1)) ∧
      ue.Room (idsOf sessions)
  | .releaseCommand ids xid =>
    ids.length ≤ ngapMaxPdusession → (∀ id ∈ ids, id ≠ 0) ∧ ue.Room ids ∧
      ((∀ i, i < ue.nbOfPdusessions → (ue.pduSession i).pdusessionId ∈ ids →
          (ue.pduSession i).status ≠ .established) →
        ue.ClearsUnnamed fun session =>
          session.xid = xid.val ∨ session.status = .failed ∧ session.pdusessionId ∈ ids)
  | .reconfigurationComplete xid => ue.CompletionAllowed xid (ue.xids xid)

instance (ue : UeContext) (ids : List Nat) : Decidable (ue.Room ids) :=
  inferInstanceAs (Decidable (_ ≤ _))

instance (ue : UeContext) (ofTransaction : PduSession → Prop) [DecidablePred ofTransaction] :
    Decidable (ue.ClearsUnnamed ofTransaction) :=
  inferInstanceAs (Decidable (∀ i, i < ue.nbOfPdusessions → _))

instance (ue : UeContext) : Decidable ue.OneZero :=
  inferInstanceAs (Decidable (∀ i, i < ue.nbOfPdusessions → _))

instance (ue : UeContext) (xid : Fin 4) (action : RrcAction) : Decidable (ue.CompletionAllowed xid action) :=
  match action with
  | .pdusessionRelease => inferInstanceAs (Decidable (ue.ClearsUnnamed fun session => session.xid = xid.val))
  | .pdusessionEstablish => inferInstanceAs (Decidable ue.OneZero)
  | .pdusessionModify => inferInstanceAs (Decidable True)
  | .none => inferInstanceAs (Decidable True)

instance (ue : UeContext) (event : SessionEvent) : Decidable (event.Allowed ue) :=
  match event with
  | .setupReq _ => inferInstanceAs (Decidable (_ ∧ _ ∧ _ ∧ _))
  | .dedicatedReconfiguration _ => inferInstanceAs (Decidable True)
  | .modifyReq _ _ => inferInstanceAs (Decidable (_ ∧ _))
  | .releaseCommand _ _ => inferInstanceAs (Decidable (_ → _ ∧ _ ∧ _))
  | .reconfigurationComplete _ => inferInstanceAs (Decidable (UeContext.CompletionAllowed _ _ _))

theorem UeContext.mem_activeDrbs {d : Nat} :
    d ∈ ue.activeDrbs ↔ d < maxDrbsPerUe ∧ (ue.establishedDrbs d).status ≠ .inactive := by
  rw [activeDrbs, Finset.mem_filter, Finset.mem_range]

theorem findPduSession_some {j : Nat} (found : findPduSession ue id = some j) :
    j < ue.nbOfPdusessions ∧ (ue.pduSession j).pdusessionId = id :=
  ⟨mem_range.mp (mem_of_find?_eq_some found), by simpa using find?_some found⟩

theorem findPduSession_none : findPduSession ue id = none ↔ ¬ ue.Listed id := by
  simp [findPduSession, UeContext.Listed]

structure UeContext.Tidy (ue : UeContext) : Prop where
  bound : ue.nbOfPdusessions ≤ ngapMaxPduSession
  unused : ∀ i, ue.nbOfPdusessions ≤ i → (ue.pduSession i).status = .new
  distinct : ∀ i j, i < ue.nbOfPdusessions → j < ue.nbOfPdusessions → (ue.pduSession i).pdusessionId ≠ 0 →
    (ue.pduSession i).pdusessionId = (ue.pduSession j).pdusessionId → i = j
  released : ∀ i, i < ue.nbOfPdusessions → (ue.pduSession i).status = .released →
    (ue.pduSession i).pdusessionId = 0
  zero : ∀ i, i < ue.nbOfPdusessions → (ue.pduSession i).pdusessionId = 0 →
    (ue.pduSession i).status = .released ∨ (ue.pduSession i).status = .failed
  oneZero : ∀ i j, ue.Present i → ue.Present j → (ue.pduSession i).pdusessionId = 0 →
    (ue.pduSession j).pdusessionId = 0 → i = j
  listed : ∀ d id, ue.Names d id → id ≠ 0 ∧ ue.Listed id
  oneDrb : ∀ d e id, ue.Names d id → ue.Names e id → d = e
  setUp : ∀ id ∈ ue.setUp, ue.Named id
  new : ∀ i, i < ue.nbOfPdusessions → (ue.pduSession i).status = .new → ue.Named (ue.pduSession i).pdusessionId

structure Advances (named : Prop) (before after : PduSession) : Prop where
  id : after.pdusessionId = before.pdusessionId
  released : after.status = .released ↔ before.status = .released
  new : after.status = .new → named
  zero : before.pdusessionId = 0 → after.status = .released ∨ after.status = .failed

theorem Advances.moves {named : Prop} {before after : PduSession} (id : after.pdusessionId = before.pdusessionId)
    (old : before.status ≠ .released) (fresh : after.status ≠ .released) (new : after.status = .new → named)
    (zero : before.pdusessionId = 0 → after.status = .failed) : Advances named before after :=
  ⟨id, ⟨fun gone => absurd gone fresh, fun gone => absurd gone old⟩, new, fun none => .inr (zero none)⟩

structure Evolves (named : Prop) (before after : PduSession) : Prop where
  id : after.pdusessionId = before.pdusessionId ∨ after.pdusessionId = 0 ∧ ¬ named
  released : after.status = .released → after.pdusessionId = 0
  zero : after.pdusessionId = 0 → after.status = .released ∨ after.status = .failed
  new : after.status = .new → after.pdusessionId = before.pdusessionId ∧ named

theorem Evolves.kept {named : Prop} {before after : PduSession} (evolves : Evolves named before after)
    (nonzero : after.pdusessionId ≠ 0) : after.pdusessionId = before.pdusessionId :=
  evolves.id.resolve_right fun cleared => nonzero cleared.1

namespace UeContext.Tidy

theorem consistent (tidy : ue.Tidy) : ue.Consistent := by
  refine ⟨tidy.bound, ?_, ?_, ?_⟩
  · intro i j first second same
    by_cases zero : (ue.pduSession i).pdusessionId = 0
    · exact tidy.oneZero i j first second zero (same ▸ zero)
    · exact tidy.distinct i j first.1 second.1 zero same
  · intro id member
    obtain ⟨d, names⟩ := tidy.setUp id member
    exact ⟨d, names, fun e other => tidy.oneDrb e d id other names⟩
  · intro d id names
    obtain ⟨nonzero, i, inside, same⟩ := tidy.listed d id names
    exact ⟨i, ⟨inside, fun gone => nonzero (same ▸ tidy.released i inside gone)⟩, same⟩

theorem initial : UeContext.initial.Tidy := by
  have unused (i : Nat) : (UeContext.initial.pduSession i).status = .new := by
    simp only [UeContext.initial]
    split <;> rfl
  have empty (i : Nat) : ¬ i < UeContext.initial.nbOfPdusessions := Nat.not_lt_zero i
  refine ⟨Nat.zero_le _, fun i _ => unused i, fun i _ inside => absurd inside (empty i),
    fun i inside => absurd inside (empty i), fun i inside => absurd inside (empty i),
    fun i _ first => absurd first.1 (empty i), fun d id names => absurd rfl names.2.1,
    fun d e id names => absurd rfl names.2.1, fun id member => absurd member (List.not_mem_nil),
    fun i inside => absurd inside (empty i)⟩

section

variable (tidy : ue.Tidy)

include tidy

theorem stays {i : Nat} (inside : i < ue.nbOfPdusessions) {after : PduSession}
    (id : after.pdusessionId = (ue.pduSession i).pdusessionId)
    (status : after.status = (ue.pduSession i).status) :
    Advances (ue.Named (ue.pduSession i).pdusessionId) (ue.pduSession i) after := by
  refine ⟨id, by rw [status], fun new => tidy.new i inside (status ▸ new), fun zero => ?_⟩
  rw [status]
  exact tidy.zero i inside zero

theorem unreleased {i : Nat} (inside : i < ue.nbOfPdusessions)
    (nonzero : (ue.pduSession i).pdusessionId ≠ 0) : (ue.pduSession i).status ≠ .released :=
  fun gone => nonzero (tidy.released i inside gone)

section

variable (count : next.nbOfPdusessions = ue.nbOfPdusessions) (drbs : next.establishedDrbs = ue.establishedDrbs)

include count drbs

theorem evolve (setUp : ∀ id ∈ next.setUp, id ∈ ue.setUp)
    (unused : ∀ i, ue.nbOfPdusessions ≤ i → (next.pduSession i).status = .new)
    (entries : ∀ i, i < ue.nbOfPdusessions →
      Evolves (ue.Named (ue.pduSession i).pdusessionId) (ue.pduSession i) (next.pduSession i))
    (oneZero : ∀ i j, next.Present i → next.Present j → (next.pduSession i).pdusessionId = 0 →
      (next.pduSession j).pdusessionId = 0 → i = j) : next.Tidy := by
  have names : ∀ d id, next.Names d id ↔ ue.Names d id := by
    intro d id
    rw [Names, Names, drbs]
  have named : ∀ id, next.Named id ↔ ue.Named id := fun id => exists_congr fun d => names d id
  rw [← count] at unused entries
  constructor
  case bound => exact count ▸ tidy.bound
  case unused => exact unused
  case distinct =>
    intro i j first second nonzero same
    have own := (entries i first).kept nonzero
    have other := (entries j second).kept (same ▸ nonzero)
    rw [own] at nonzero same
    rw [other] at same
    exact tidy.distinct i j (count ▸ first) (count ▸ second) nonzero same
  case released => exact fun i inside => (entries i inside).released
  case zero => exact fun i inside => (entries i inside).zero
  case oneZero => exact oneZero
  case listed =>
    intro d id there
    obtain ⟨nonzero, i, inside, same⟩ := tidy.listed d id ((names d id).mp there)
    rw [← count] at inside
    rcases (entries i inside).id with kept | ⟨_, unnamed⟩
    · exact ⟨nonzero, i, inside, kept.trans same⟩
    · exact absurd (same ▸ ⟨d, (names d id).mp there⟩) unnamed
  case oneDrb => exact fun d e id first second => tidy.oneDrb d e id ((names d id).mp first) ((names e id).mp second)
  case setUp => exact fun id member => (named id).mpr (tidy.setUp id (setUp id member))
  case new =>
    intro i inside status
    obtain ⟨kept, there⟩ := (entries i inside).new status
    rw [kept]
    exact (named _).mpr there

theorem advance (setUp : next.setUp = ue.setUp)
    (unused : ∀ i, ue.nbOfPdusessions ≤ i → (next.pduSession i).status = .new)
    (entries : ∀ i, i < ue.nbOfPdusessions →
      Advances (ue.Named (ue.pduSession i).pdusessionId) (ue.pduSession i) (next.pduSession i)) : next.Tidy := by
  have present : ∀ i, next.Present i → (next.pduSession i).pdusessionId = 0 →
      ue.Present i ∧ (ue.pduSession i).pdusessionId = 0 := by
    rintro i ⟨inside, status⟩ zero
    have entry := entries i (count ▸ inside)
    exact ⟨⟨count ▸ inside, mt entry.released.mpr status⟩, entry.id ▸ zero⟩
  refine tidy.evolve count drbs (fun _ member => setUp ▸ member) unused (fun i inside => ?_) ?_
  · have entry := entries i inside
    exact ⟨.inl entry.id, fun gone => entry.id.trans (tidy.released i inside (entry.released.mp gone)),
      fun zero => entry.zero (entry.id ▸ zero), fun new => ⟨entry.id, entry.new new⟩⟩
  · intro i j first second firstZero secondZero
    obtain ⟨first, firstZero⟩ := present i first firstZero
    obtain ⟨second, secondZero⟩ := present j second secondZero
    exact tidy.oneZero i j first second firstZero secondZero

end

theorem change {j : Nat} {f : PduSession → PduSession} (inside : j < ue.nbOfPdusessions)
    (advances : Advances (ue.Named (ue.pduSession j).pdusessionId) (ue.pduSession j) (f (ue.pduSession j))) :
    (ue.change j f).Tidy := by
  refine tidy.advance rfl rfl rfl ?_ ?_
  · intro i outside
    simp only [UeContext.change, update_of_ne (show i ≠ j by omega)]
    exact tidy.unused i outside
  · intro i here
    by_cases same : i = j
    · subst same
      simpa only [UeContext.change, update_self] using advances
    · simp only [UeContext.change, update_of_ne same]
      exact tidy.stays here rfl rfl

theorem changeAll {f : Nat → PduSession → PduSession} (advances : ∀ i, i < ue.nbOfPdusessions →
      Advances (ue.Named (ue.pduSession i).pdusessionId) (ue.pduSession i) (f i (ue.pduSession i))) :
    (ue.changeAll f).Tidy := by
  refine tidy.advance rfl rfl rfl ?_ ?_
  · intro i outside
    simp only [UeContext.changeAll, if_neg (show ¬ i < ue.nbOfPdusessions by omega)]
    exact tidy.unused i outside
  · intro i inside
    simp only [UeContext.changeAll, if_pos inside]
    exact advances i inside

theorem store (i : Nat) : (ue.change i fun session => { session with nasPdu := true }).Tidy := by
  by_cases inside : i < ue.nbOfPdusessions
  · exact tidy.change inside (tidy.stays inside rfl rfl)
  refine tidy.advance rfl rfl rfl ?_ ?_
  · intro k outside
    by_cases same : k = i
    · subst same
      simpa only [UeContext.change, update_self] using tidy.unused k outside
    · simpa only [UeContext.change, update_of_ne same] using tidy.unused k outside
  · intro k here
    simp only [UeContext.change, update_of_ne (show k ≠ i by omega)]
    exact tidy.stays here rfl rfl

theorem begin (xid : Fin 4) (action : RrcAction) : (ue.begin xid action).Tidy :=
  tidy.advance rfl rfl rfl tidy.unused fun _ inside => tidy.stays inside rfl rfl

theorem clear {xid : Fin 4} (unnamed : ue.ClearsUnnamed fun session => session.xid = xid.val) :
    (pdusessionReleaseResponse ue xid).Tidy := by
  have entry : ∀ i, i < ue.nbOfPdusessions → (pdusessionReleaseResponse ue xid).pduSession i =
      if (ue.pduSession i).xid = xid.val then { PduSession.zero with status := .released } else ue.pduSession i :=
    fun i inside => if_pos inside
  have present : ∀ i, (pdusessionReleaseResponse ue xid).Present i →
      (pdusessionReleaseResponse ue xid).pduSession i = ue.pduSession i := by
    rintro i ⟨inside, status⟩
    rw [entry i inside] at status ⊢
    split_ifs at status ⊢ with cleared
    · exact absurd rfl status
    · rfl
  refine tidy.evolve rfl rfl (fun _ member => (mem_filter.mp member).1) ?_ (fun i inside => ?_) ?_
  · exact fun i outside => (congrArg _ (if_neg (not_lt.mpr outside))).trans (tidy.unused i outside)
  · rw [entry i inside]
    split_ifs with cleared
    · exact ⟨.inr ⟨rfl, unnamed i inside cleared⟩, fun _ => rfl, fun _ => .inl rfl, by simp⟩
    · exact ⟨.inl rfl, tidy.released i inside, tidy.zero i inside, fun new => ⟨rfl, tidy.new i inside new⟩⟩
  · intro i j first second firstZero secondZero
    have own := present i first
    have other := present j second
    exact tidy.oneZero i j ⟨first.1, own ▸ first.2⟩ ⟨second.1, other ▸ second.2⟩ (own ▸ firstZero)
      (other ▸ secondZero)

theorem answer (one : ue.OneZero) : (pdusessionSetupResp ue).Tidy := by
  have entry : ∀ i, i < ue.nbOfPdusessions →
      ((pdusessionSetupResp ue).pduSession i).pdusessionId = (ue.pduSession i).pdusessionId ∧
      ((pdusessionSetupResp ue).pduSession i).status =
        if (ue.pduSession i).status = .done ∨ (ue.pduSession i).status = .established then .established
        else .failed := by
    intro i inside
    simp only [pdusessionSetupResp, UeContext.changeAll]
    split_ifs <;> exact ⟨rfl, rfl⟩
  refine tidy.evolve rfl rfl (fun _ member => member) ?_ (fun i inside => ?_) ?_
  · intro i outside
    have beyond : ¬ i < ue.nbOfPdusessions := not_lt.mpr outside
    have there := tidy.unused i outside
    simp only [pdusessionSetupResp, UeContext.changeAll]
    split_ifs <;> exact there
  · obtain ⟨same, status⟩ := entry i inside
    refine ⟨.inl same, ?_, ?_, ?_⟩
    · rw [status]
      split_ifs <;> simp
    · rw [status, same]
      intro zero
      rcases tidy.zero i inside zero with status | status <;> rw [status] <;> exact .inr rfl
    · rw [status]
      split_ifs <;> simp
  · intro i j first second firstZero secondZero
    rw [(entry i first.1).1] at firstZero
    rw [(entry j second.1).1] at secondZero
    exact one i first.1 j second.1 firstZero secondZero

end

end UeContext.Tidy

structure Extends (ue next : UeContext) (id : Nat) : Prop where
  count : next.nbOfPdusessions = ue.nbOfPdusessions ∨ next.nbOfPdusessions = ue.nbOfPdusessions + 1 ∧ ¬ ue.Listed id
  bound : next.nbOfPdusessions ≤ ngapMaxPduSession
  unused : ∀ i, next.nbOfPdusessions ≤ i → (next.pduSession i).status = .new
  old : ∀ i, i < ue.nbOfPdusessions → (next.pduSession i).pdusessionId = (ue.pduSession i).pdusessionId ∧
    (next.pduSession i).status = (ue.pduSession i).status
  entry : next.nbOfPdusessions = ue.nbOfPdusessions + 1 →
    (next.pduSession ue.nbOfPdusessions).pdusessionId = id ∧
      (next.pduSession ue.nbOfPdusessions).status ≠ .released

namespace Extends

theorem cases (grown : Extends ue next id) {i : Nat} (inside : i < next.nbOfPdusessions) :
    i < ue.nbOfPdusessions ∨
      i = ue.nbOfPdusessions ∧ next.nbOfPdusessions = ue.nbOfPdusessions + 1 ∧ ¬ ue.Listed id := by
  rcases grown.count with same | ⟨more, unlisted⟩
  · exact .inl (same ▸ inside)
  · rcases Nat.lt_or_ge i ue.nbOfPdusessions with before | after
    · exact .inl before
    · exact .inr ⟨by omega, more, unlisted⟩

theorem lt (grown : Extends ue next id) {i : Nat} (inside : i < ue.nbOfPdusessions) : i < next.nbOfPdusessions := by
  rcases grown.count with same | ⟨more, _⟩ <;> omega

theorem listed (grown : Extends ue next id) {x : Nat} (there : ue.Listed x) : next.Listed x := by
  obtain ⟨i, inside, same⟩ := there
  exact ⟨i, grown.lt inside, (grown.old i inside).1.trans same⟩

end Extends

theorem UeContext.Tidy.extends (tidy : ue.Tidy) (nonzero : id ≠ 0) (grown : Extends ue next id)
    (keeps : ∀ d x, ue.Names d x → next.Names d x)
    (only : ∀ d x, next.Names d x → ue.Names d x ∨ x = id ∧ next.Listed id)
    (once : ∀ d e, next.Names d id → next.Names e id → d = e)
    (setUp : ∀ x ∈ next.setUp, x ∈ ue.setUp ∨ x = id ∧ next.Named id)
    (new : next.nbOfPdusessions = ue.nbOfPdusessions + 1 →
      (next.pduSession ue.nbOfPdusessions).status = .new → next.Named id) : next.Tidy := by
  have named : ∀ x, ue.Named x → next.Named x := fun x ⟨d, names⟩ => ⟨d, keeps d x names⟩
  -- an entry that is not of the session is an old one
  have before : ∀ i, i < next.nbOfPdusessions → (next.pduSession i).pdusessionId ≠ id → i < ue.nbOfPdusessions := by
    intro i inside other
    rcases grown.cases inside with old | ⟨rfl, more, _⟩
    · exact old
    · exact absurd (grown.entry more).1 other
  have present : ∀ i, next.Present i → i < ue.nbOfPdusessions → ue.Present i :=
    fun i there old => ⟨old, (grown.old i old).2 ▸ there.2⟩
  constructor
  case bound => exact grown.bound
  case unused => exact grown.unused
  case distinct =>
    intro i j first second other same
    have clash : ∀ k, k < ue.nbOfPdusessions → ¬ ue.Listed id → (next.pduSession k).pdusessionId ≠ id :=
      fun k old unlisted there => unlisted ⟨k, old, (grown.old k old).1.symm.trans there⟩
    rcases grown.cases first with oldFirst | ⟨rfl, more, unlisted⟩
    · rcases grown.cases second with oldSecond | ⟨rfl, more, unlisted⟩
      · rw [(grown.old i oldFirst).1] at other same
        rw [(grown.old j oldSecond).1] at same
        exact tidy.distinct i j oldFirst oldSecond other same
      · exact absurd (same.trans (grown.entry more).1) (clash i oldFirst unlisted)
    · rcases grown.cases second with oldSecond | ⟨rfl, _⟩
      · exact absurd (same.symm.trans (grown.entry more).1) (clash j oldSecond unlisted)
      · rfl
  case released =>
    intro i inside gone
    rcases grown.cases inside with old | ⟨rfl, more, _⟩
    · rw [(grown.old i old).2] at gone
      exact (grown.old i old).1.trans (tidy.released i old gone)
    · exact absurd gone (grown.entry more).2
  case zero =>
    intro i inside zero
    have old := before i inside (zero ▸ nonzero.symm)
    rw [(grown.old i old).1] at zero
    rw [(grown.old i old).2]
    exact tidy.zero i old zero
  case oneZero =>
    intro i j first second firstZero secondZero
    have oldFirst := before i first.1 (firstZero ▸ nonzero.symm)
    have oldSecond := before j second.1 (secondZero ▸ nonzero.symm)
    rw [(grown.old i oldFirst).1] at firstZero
    rw [(grown.old j oldSecond).1] at secondZero
    exact tidy.oneZero i j (present i first oldFirst) (present j second oldSecond) firstZero secondZero
  case listed =>
    intro d x names
    rcases only d x names with old | ⟨rfl, there⟩
    · exact ⟨(tidy.listed d x old).1, grown.listed (tidy.listed d x old).2⟩
    · exact ⟨nonzero, there⟩
  case oneDrb =>
    intro d e x first second
    rcases only d x first with oldFirst | ⟨rfl, _⟩
    · rcases only e x second with oldSecond | ⟨rfl, _⟩
      · exact tidy.oneDrb d e x oldFirst oldSecond
      · exact once d e first second
    · exact once d e first second
  case setUp =>
    intro x member
    rcases setUp x member with old | ⟨rfl, there⟩
    · exact named x (tidy.setUp x old)
    · exact there
  case new =>
    intro i inside status
    rcases grown.cases inside with old | ⟨rfl, more, _⟩
    · rw [(grown.old i old).2] at status
      rw [(grown.old i old).1]
      exact named _ (tidy.new i old status)
    · rw [(grown.entry more).1]
      exact new more status

section

variable {ids : List Nat} (room : ue.Room (id :: ids))

include room

theorem UeContext.Room.fits (unlisted : ¬ ue.Listed id) : ue.nbOfPdusessions < ngapMaxPduSession := by
  have there : id ∈ (id :: ids).toFinset.filter fun x => ¬ ue.Listed x := by simpa using unlisted
  have positive := Finset.card_pos.mpr ⟨id, there⟩
  unfold Room at room
  omega

theorem UeContext.Room.created (unlisted : ¬ ue.Listed id)
    (count : next.nbOfPdusessions = ue.nbOfPdusessions + 1)
    (kept : ∀ x, ue.Listed x ∨ x = id → next.Listed x) : next.Room ids := by
  have fewer : (ids.toFinset.filter fun x => ¬ next.Listed x) ⊆
      ((id :: ids).toFinset.filter fun x => ¬ ue.Listed x).erase id := by
    intro x member
    obtain ⟨inside, unlisted'⟩ := Finset.mem_filter.mp member
    have neither := mt (kept x) unlisted'
    rw [not_or] at neither
    simp only [toFinset_cons, Finset.mem_erase, Finset.mem_filter, Finset.mem_insert]
    exact ⟨neither.2, .inr inside, neither.1⟩
  have there : id ∈ (id :: ids).toFinset.filter fun x => ¬ ue.Listed x := by simpa using unlisted
  have less := Finset.card_le_card fewer
  rw [Finset.card_erase_of_mem there] at less
  have positive := Finset.card_pos.mpr ⟨id, there⟩
  unfold Room at room ⊢
  omega

theorem UeContext.Room.listed (count : next.nbOfPdusessions = ue.nbOfPdusessions)
    (kept : ∀ x, ue.Listed x → next.Listed x) : next.Room ids := by
  have fewer : (ids.toFinset.filter fun x => ¬ next.Listed x) ⊆
      (id :: ids).toFinset.filter fun x => ¬ ue.Listed x := by
    intro x member
    obtain ⟨inside, unlisted⟩ := Finset.mem_filter.mp member
    rw [Finset.mem_filter, toFinset_cons, Finset.mem_insert]
    exact ⟨.inr inside, fun there => unlisted (kept x there)⟩
  have less := Finset.card_le_card fewer
  unfold Room at room ⊢
  omega

end

structure CreatedFailed (ue next : UeContext) (id : Nat) : Prop where
  count : next.nbOfPdusessions = ue.nbOfPdusessions + 1
  drbs : next.establishedDrbs = ue.establishedDrbs
  old : ∀ i, i < ue.nbOfPdusessions → next.pduSession i = ue.pduSession i
  entry : (next.pduSession ue.nbOfPdusessions).pdusessionId = id
  tidy : next.Tidy

theorem CreatedFailed.listed (created : CreatedFailed ue next id) (x : Nat) :
    next.Listed x ↔ ue.Listed x ∨ x = id := by
  constructor
  · rintro ⟨i, inside, same⟩
    rcases Nat.lt_or_ge i ue.nbOfPdusessions with before | after
    · exact .inl ⟨i, before, created.old i before ▸ same⟩
    · have last : i = ue.nbOfPdusessions := by have := created.count; omega
      exact .inr (same.symm.trans (last ▸ created.entry))
  · rintro (⟨i, inside, same⟩ | rfl)
    · exact ⟨i, by rw [created.count]; omega, by rw [created.old i inside, same]⟩
    · exact ⟨ue.nbOfPdusessions, by rw [created.count]; omega, created.entry⟩

theorem CreatedFailed.names (created : CreatedFailed ue next id) (d x : Nat) : next.Names d x ↔ ue.Names d x := by
  rw [UeContext.Names, UeContext.Names, created.drbs]

theorem CreatedFailed.named (created : CreatedFailed ue next id) (x : Nat) : next.Named x ↔ ue.Named x :=
  exists_congr fun d => created.names d x

theorem createFailed_ok (tidy : ue.Tidy) (nonzero : id ≠ 0) (unlisted : ¬ ue.Listed id)
    (room : ue.nbOfPdusessions < ngapMaxPduSession) :
    ∃ next, createFailed ue id = .ok next ∧ CreatedFailed ue next id := by
  have made : ue.create = .ok { ue with nbOfPdusessions := ue.nbOfPdusessions + 1 } := if_pos room
  have done : createFailed ue id = .ok (UeContext.change
      { ue with nbOfPdusessions := ue.nbOfPdusessions + 1 } ue.nbOfPdusessions fun session =>
        { session with status := .failed, pdusessionId := id, cause := .radioNetwork }) := by
    rw [createFailed, made]
    rfl
  refine ⟨_, done, rfl, rfl, ?_, ?_, ?_⟩
  · intro i inside
    exact update_of_ne (ne_of_lt inside) _ _
  · exact congrArg _ (update_self _ _ _)
  · have other : ∀ i, i ≠ ue.nbOfPdusessions → update ue.pduSession ue.nbOfPdusessions
        { ue.pduSession ue.nbOfPdusessions with
          status := .failed, pdusessionId := id, cause := .radioNetwork } i = ue.pduSession i :=
      fun i different => update_of_ne different _ _
    refine tidy.extends nonzero ⟨.inr ⟨rfl, unlisted⟩, room, ?_, ?_, ?_⟩ (fun _ _ names => names)
      (fun _ _ names => .inl names) (fun d e => tidy.oneDrb d e id) (fun _ member => .inl member) ?_
    · intro i beyond
      exact (congrArg _ (other i (ne_of_gt beyond))).trans (tidy.unused i (le_of_lt beyond))
    · intro i inside
      exact ⟨congrArg _ (other i (ne_of_lt inside)), congrArg _ (other i (ne_of_lt inside))⟩
    · simp [UeContext.change]
    · intro _ status
      simp [UeContext.change] at status

end OranSlice.Rrc
