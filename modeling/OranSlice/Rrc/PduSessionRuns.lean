import OranSlice.Rrc.PduSessionTidy

/-! All runs of setup, modification and release of PDU sessions. -/

namespace OranSlice.Rrc

open UeContext List Function

variable {ue next : UeContext} {id : Nat}

theorem getNextAvailableDrbId_some (free : ue.activeDrbs.card + 1 < maxDrbsPerUe) :
    ∃ d, getNextAvailableDrbId ue = some d ∧ d + 1 < 32 ∧ (ue.establishedDrbs d).status = .inactive := by
  have inactive : ∃ k, k < 31 ∧ (ue.establishedDrbs k).status = .inactive := by
    by_contra none
    push Not at none
    have all : Finset.range 31 ⊆ ue.activeDrbs := by
      intro k member
      have small := Finset.mem_range.mp member
      have wide : k < maxDrbsPerUe := by unfold maxDrbsPerUe; omega
      exact mem_activeDrbs.mpr ⟨wide, none k small⟩
    have many := Finset.card_le_card all
    rw [Finset.card_range] at many
    unfold maxDrbsPerUe at free
    omega
  obtain ⟨k, small, idle⟩ := inactive
  have wide : k < maxDrbsPerUe := by unfold maxDrbsPerUe; omega
  cases found : getNextAvailableDrbId ue with
  | none =>
    have busy := find?_eq_none.mp found k (mem_range.mpr wide)
    simp [idle] at busy
  | some d =>
    obtain ⟨here, _, first⟩ := find?_range_eq_some.mp found
    have least : ¬ k < d := fun before => by simpa [idle] using first k before
    exact ⟨d, rfl, by omega, by simpa using here⟩

structure Placed (ue placed : UeContext) (id j : Nat) : Prop where
  entries : placed.pduSession = ue.pduSession
  drbs : placed.establishedDrbs = ue.establishedDrbs
  setUp : placed.setUp = ue.setUp
  at_ : j < ue.nbOfPdusessions ∧ (ue.pduSession j).pdusessionId = id ∧
      placed.nbOfPdusessions = ue.nbOfPdusessions ∨
    j = ue.nbOfPdusessions ∧ ¬ ue.Listed id ∧ placed.nbOfPdusessions = ue.nbOfPdusessions + 1

theorem findOrCreatePduSession_ok {ids : List Nat} (room : ue.Room (id :: ids)) :
    ∃ placed j, findOrCreatePduSession ue id = .ok (placed, j) ∧ Placed ue placed id j := by
  cases found : findPduSession ue id with
  | some j =>
    obtain ⟨inside, same⟩ := findPduSession_some found
    exact ⟨ue, j, by rw [findOrCreatePduSession, found], rfl, rfl, rfl, .inl ⟨inside, same, rfl⟩⟩
  | none =>
    have unlisted := findPduSession_none.mp found
    have made : ue.create = .ok { ue with nbOfPdusessions := ue.nbOfPdusessions + 1 } :=
      if_pos (room.fits unlisted)
    refine ⟨{ ue with nbOfPdusessions := ue.nbOfPdusessions + 1 }, ue.nbOfPdusessions, ?_, rfl, rfl, rfl,
      .inr ⟨rfl, unlisted, rfl⟩⟩
    simp only [findOrCreatePduSession, found, made]
    rfl

def SessionItem.enter (item : SessionItem) (session : PduSession) : PduSession :=
  { session with
    pdusessionId := item.pdusessionId, nasPdu := item.nasPdu, fiveQi := item.fiveQi.getD session.fiveQi }

def UeContext.bearer (placed : UeContext) (item : SessionItem) (j d : Nat) : UeContext :=
  { placed.change j item.enter with
    establishedDrbs := update placed.establishedDrbs d
      ⟨drbStatusOf (item.enter (placed.pduSession j)).fiveQi, item.pdusessionId⟩
    setUp := item.pdusessionId :: placed.setUp }

variable {placed : UeContext} {item : SessionItem} {j d : Nat}

theorem setupSession_eq (found : findOrCreatePduSession ue item.pdusessionId = .ok (placed, j))
    (drb : getNextAvailableDrbId placed = some d) (small : d + 1 < 32) :
    setupSession ue item = .ok (placed.bearer item j d) := by
  have entered : (placed.change j item.enter).pduSession j = item.enter (placed.pduSession j) :=
    update_self _ _ _
  have next : getNextAvailableDrbId (placed.change j item.enter) = some d := drb
  unfold SessionItem.enter at next entered
  rw [setupSession, found]
  dsimp only [bind, Except.bind]
  rw [next]
  exact (if_pos small).trans (by rw [entered]; rfl)

theorem drbStatusOf_active (fiveQi : List Nat) : drbStatusOf fiveQi ≠ .inactive := by
  unfold drbStatusOf
  split_ifs <;> decide

theorem names_bearer (small : d + 1 < 32) (idle : (placed.establishedDrbs d).status = .inactive) (e x : Nat) :
    (placed.bearer item j d).Names e x ↔ placed.Names e x ∨ e = d ∧ x = item.pdusessionId := by
  unfold UeContext.Names bearer maxDrbsPerUe
  by_cases same : e = d
  · subst same
    simp only [update_self, idle, ne_eq, not_true_eq_false, false_and, and_false, false_or, true_and]
    constructor
    · rintro ⟨_, _, there⟩
      exact there.symm
    · rintro rfl
      exact ⟨by omega, drbStatusOf_active _, rfl⟩
  · simp [same]

theorem activeDrbs_bearer (small : d + 1 < 32) (idle : (placed.establishedDrbs d).status = .inactive) :
    (placed.bearer item j d).activeDrbs.card = placed.activeDrbs.card + 1 := by
  have more : (placed.bearer item j d).activeDrbs = insert d placed.activeDrbs := by
    ext e
    rw [Finset.mem_insert, mem_activeDrbs, mem_activeDrbs, maxDrbsPerUe, bearer]
    by_cases same : e = d
    · subst same
      simp only [update_self, true_or, iff_true]
      exact ⟨by omega, drbStatusOf_active _⟩
    · simp [same]
  have fresh : d ∉ placed.activeDrbs := fun member => (mem_activeDrbs.mp member).2 idle
  rw [more, Finset.card_insert_of_notMem fresh]

theorem extends_bearer (tidy : ue.Tidy)
    (bound : placed.nbOfPdusessions ≤ ngapMaxPduSession) (there : Placed ue placed item.pdusessionId j) :
    Extends ue (placed.bearer item j d) item.pdusessionId ∧
      (placed.bearer item j d).Listed item.pdusessionId := by
  have entry : ((placed.bearer item j d).pduSession j).pdusessionId = item.pdusessionId ∧
      ((placed.bearer item j d).pduSession j).status = (ue.pduSession j).status := by
    simp only [bearer, change, update_self, there.entries]
    exact ⟨rfl, rfl⟩
  have other : ∀ i, i ≠ j → (placed.bearer item j d).pduSession i = ue.pduSession i := by
    intro i different
    simp [bearer, change, update_of_ne different, there.entries]
  have status : ∀ i, ((placed.bearer item j d).pduSession i).status = (ue.pduSession i).status := by
    intro i
    by_cases same : i = j
    · rw [same, entry.2]
    · rw [other i same]
  rcases there.at_ with ⟨inside, same, count⟩ | ⟨rfl, unlisted, count⟩
  · refine ⟨⟨.inl count, bound, ?_, ?_, fun more => ?_⟩, j, (show j < placed.nbOfPdusessions by omega), entry.1⟩
    · intro i beyond
      rw [status]
      exact tidy.unused i (count ▸ beyond)
    · intro i _
      refine ⟨?_, status i⟩
      by_cases here : i = j
      · rw [here, entry.1, same]
      · rw [other i here]
    · have less : placed.nbOfPdusessions = ue.nbOfPdusessions + 1 := more
      omega
  · refine ⟨⟨.inr ⟨count, unlisted⟩, bound, ?_, ?_, fun _ => ⟨entry.1, ?_⟩⟩, ue.nbOfPdusessions,
      (show ue.nbOfPdusessions < placed.nbOfPdusessions by omega), entry.1⟩
    · intro i beyond
      rw [status]
      have after : placed.nbOfPdusessions ≤ i := beyond
      exact tidy.unused i (by omega)
    · intro i inside
      rw [other i (ne_of_lt inside)]
      exact ⟨rfl, rfl⟩
    · rw [entry.2, tidy.unused _ (le_refl _)]
      decide

theorem setupSession_ok {ids : List Nat} (tidy : ue.Tidy) (nonzero : item.pdusessionId ≠ 0)
    (unnamed : ¬ ue.Named item.pdusessionId) (free : ue.activeDrbs.card + 1 < maxDrbsPerUe)
    (room : ue.Room (item.pdusessionId :: ids)) :
    ∃ next, setupSession ue item = .ok next ∧ next.Tidy ∧ next.Room ids ∧
      next.activeDrbs.card = ue.activeDrbs.card + 1 ∧ ∀ x, next.Named x → ue.Named x ∨ x = item.pdusessionId := by
  obtain ⟨placed, j, found, there⟩ := findOrCreatePduSession_ok room
  have active : placed.activeDrbs = ue.activeDrbs := by
    unfold activeDrbs
    rw [there.drbs]
  obtain ⟨d, drb, small, idle⟩ : ∃ d, getNextAvailableDrbId placed = some d ∧ d + 1 < 32 ∧
      (placed.establishedDrbs d).status = .inactive := getNextAvailableDrbId_some (active ▸ free)
  have old : ∀ e x, placed.Names e x ↔ ue.Names e x := by
    intro e x
    rw [UeContext.Names, UeContext.Names, there.drbs]
  have names : ∀ e x, (placed.bearer item j d).Names e x ↔ ue.Names e x ∨ e = d ∧ x = item.pdusessionId := by
    intro e x
    rw [names_bearer small idle, old]
  have own : (placed.bearer item j d).Named item.pdusessionId := ⟨d, (names d _).mpr (.inr ⟨rfl, rfl⟩)⟩
  have bound : placed.nbOfPdusessions ≤ ngapMaxPduSession := by
    rcases there.at_ with ⟨_, _, count⟩ | ⟨_, unlisted, count⟩
    · exact count ▸ tidy.bound
    · exact count ▸ room.fits unlisted
  obtain ⟨grown, listed⟩ : Extends ue (placed.bearer item j d) item.pdusessionId ∧
      (placed.bearer item j d).Listed item.pdusessionId := extends_bearer tidy bound there
  refine ⟨_, setupSession_eq found drb small, ?_, ?_, ?_, ?_⟩
  · refine tidy.extends nonzero grown (fun e x old => (names e x).mpr (.inl old)) ?_ ?_ ?_ (fun _ _ => own)
    · intro e x new
      rcases (names e x).mp new with old | ⟨_, same⟩
      · exact .inl old
      · exact .inr ⟨same, listed⟩
    · have only : ∀ e, (placed.bearer item j d).Names e item.pdusessionId → e = d := by
        intro e new
        rcases (names e _).mp new with old | ⟨same, _⟩
        · exact absurd ⟨e, old⟩ unnamed
        · exact same
      exact fun e f first second => (only e first).trans (only f second).symm
    · intro x member
      have either : x = item.pdusessionId ∨ x ∈ ue.setUp := there.setUp ▸ mem_cons.mp member
      rcases either with rfl | old
      · exact .inr ⟨rfl, own⟩
      · exact .inl old
  · rcases there.at_ with ⟨_, _, count⟩ | ⟨_, unlisted, count⟩
    · exact room.listed count fun x => grown.listed
    refine room.created unlisted count fun x => ?_
    rintro (old | rfl)
    · exact grown.listed old
    · exact listed
  · rw [activeDrbs_bearer small idle, active]
  · rintro x ⟨e, new⟩
    rcases (names e x).mp new with old | ⟨_, same⟩
    · exact .inl ⟨e, old⟩
    · exact .inr same

variable {sessions : List SessionItem}

theorem triggerBearerSetup_ok (tidy : ue.Tidy) (distinct : (sessions.map (·.pdusessionId)).Nodup)
    (fresh : ∀ id ∈ sessions.map (·.pdusessionId), id ≠ 0 ∧ ¬ ue.Named id)
    (free : ue.activeDrbs.card + (sessions.map (·.pdusessionId)).length < maxDrbsPerUe)
    (room : ue.Room (sessions.map (·.pdusessionId))) :
    ∃ next, triggerBearerSetup ue sessions = .ok next ∧ next.Tidy := by
  induction sessions generalizing ue with
  | nil => exact ⟨ue, rfl, tidy⟩
  | cons item rest ih =>
    rw [map_cons] at distinct fresh free room
    rw [length_cons] at free
    obtain ⟨nonzero, unnamed⟩ := fresh item.pdusessionId mem_cons_self
    obtain ⟨middle, first, tidy', room', count, named⟩ := setupSession_ok tidy nonzero unnamed (by omega) room
    have fresh' : ∀ id ∈ rest.map (·.pdusessionId), id ≠ 0 ∧ ¬ middle.Named id := by
      intro id member
      refine ⟨(fresh id (mem_cons_of_mem _ member)).1, fun there => ?_⟩
      rcases named id there with old | same
      · exact (fresh id (mem_cons_of_mem _ member)).2 old
      · exact (nodup_cons.mp distinct).1 (same ▸ member)
    obtain ⟨next, later, done⟩ := ih tidy' (nodup_cons.mp distinct).2 fresh' (by omega) room'
    refine ⟨next, ?_, done⟩
    rw [triggerBearerSetup, foldlM_cons, first]
    exact later

theorem listed_change {k x : Nat} {f : PduSession → PduSession}
    (keeps : ∀ session, (f session).pdusessionId = session.pdusessionId) : (ue.change k f).Listed x ↔ ue.Listed x := by
  refine exists_congr fun i => and_congr_right fun _ => ?_
  by_cases here : i = k
  · subst here
    simp [change, keeps]
  · simp [change, update_of_ne here]

theorem modifySession_known {i j : Nat} {allFailed : Bool} (tidy : ue.Tidy)
    (nonzero : item.pdusessionId ≠ 0) (named : ue.Named item.pdusessionId)
    (found : findPduSession ue item.pdusessionId = some j) :
    ∃ next, modifySession (ue, allFailed) item i = .ok (next, false) ∧ next.Tidy ∧
      next.nbOfPdusessions = ue.nbOfPdusessions ∧ next.establishedDrbs = ue.establishedDrbs ∧
      ∀ x, next.Listed x ↔ ue.Listed x := by
  obtain ⟨inside, same⟩ := findPduSession_some found
  have modified : (ue.change j fun session =>
      { session with status := .new, cause := .nothing, fiveQi := item.fiveQi.getD session.fiveQi }).Tidy := by
    apply tidy.change inside
    exact Advances.moves rfl (tidy.unreleased inside (same ▸ nonzero)) (by simp) (fun _ => same ▸ named)
      (fun zero => absurd (same ▸ zero) nonzero)
  have taken : modifySession (ue, allFailed) item i = .ok (
      if item.nasPdu then (ue.change j fun session => { session with
          status := .new, cause := .nothing, fiveQi := item.fiveQi.getD session.fiveQi }).change i
            fun session => { session with nasPdu := true }
      else ue.change j fun session => { session with
        status := .new, cause := .nothing, fiveQi := item.fiveQi.getD session.fiveQi }, false) := by
    simp [modifySession, found]
  refine ⟨_, taken, ?_⟩
  split_ifs
  · refine ⟨modified.store i, rfl, rfl, fun x => ?_⟩
    rw [listed_change, listed_change] <;> exact fun _ => rfl
  · exact ⟨modified, rfl, rfl, fun x => listed_change fun _ => rfl⟩

def Modifiable (ue : UeContext) (ids : List Nat) : Prop :=
  ∀ id ∈ ids, id ≠ 0 ∧ (ue.Named id ∨ ¬ ue.Listed id ∧ ids.count id = 1)

theorem modifySessions_ok {i : Nat} {allFailed : Bool} (tidy : ue.Tidy)
    (modifiable : Modifiable ue (sessions.map (·.pdusessionId))) (room : ue.Room (sessions.map (·.pdusessionId))) :
    ∃ next failed, modifySessions (ue, allFailed) sessions i = .ok (next, failed) ∧ next.Tidy := by
  induction sessions generalizing ue i allFailed with
  | nil => exact ⟨ue, allFailed, rfl, tidy⟩
  | cons item rest ih =>
    rw [map_cons] at modifiable room
    obtain ⟨nonzero, either⟩ := modifiable item.pdusessionId mem_cons_self
    have later : ∀ x, x ≠ item.pdusessionId → x ∈ rest.map (·.pdusessionId) →
        x ≠ 0 ∧ (ue.Named x ∨ ¬ ue.Listed x ∧ (rest.map (·.pdusessionId)).count x = 1) := by
      intro x other member
      have there := modifiable x (mem_cons_of_mem _ member)
      rwa [count_cons_of_ne other.symm] at there
    cases found : findPduSession ue item.pdusessionId with
    | none =>
      have unlisted := findPduSession_none.mp found
      obtain ⟨middle, first, created⟩ := createFailed_ok tidy nonzero unlisted (room.fits unlisted)
      have once : item.pdusessionId ∉ rest.map (·.pdusessionId) := by
        rcases either with ⟨d, names⟩ | ⟨_, one⟩
        · exact absurd (tidy.listed d _ names).2 unlisted
        · rw [count_cons_self, Nat.add_eq_right] at one
          exact count_eq_zero.mp one
      have modifiable' : Modifiable middle (rest.map (·.pdusessionId)) := by
        intro x member
        have other : x ≠ item.pdusessionId := fun same => once (same ▸ member)
        rw [created.named, created.listed, or_iff_left other]
        exact later x other member
      obtain ⟨next, failed, done, kept⟩ := @ih middle (i + 1) allFailed created.tidy modifiable'
        (room.created unlisted created.count fun x => (created.listed x).mpr)
      refine ⟨next, failed, ?_, kept⟩
      simp only [modifySessions, modifySession, found, first]
      exact done
    | some j =>
      have known : ue.Named item.pdusessionId := by
        rcases either with named | ⟨unlisted, _⟩
        · exact named
        · exact absurd ⟨j, findPduSession_some found⟩ unlisted
      obtain ⟨middle, first, tidy', count, drbs, listed⟩ :=
        @modifySession_known ue item i j allFailed tidy nonzero known found
      have named : ∀ x, middle.Named x ↔ ue.Named x := by
        intro x
        refine exists_congr fun d => ?_
        rw [UeContext.Names, UeContext.Names, drbs]
      have modifiable' : Modifiable middle (rest.map (·.pdusessionId)) := by
        intro x member
        rw [named, listed]
        by_cases same : x = item.pdusessionId
        · exact ⟨same ▸ nonzero, .inl (same ▸ known)⟩
        · exact later x same member
      obtain ⟨next, failed, done, kept⟩ := @ih middle (i + 1) false tidy' modifiable'
        (room.listed count fun x => (listed x).mpr)
      refine ⟨next, failed, ?_, kept⟩
      rw [modifySessions, first]
      exact done

theorem modifyDedicatedRrcReconfiguration_ok (tidy : ue.Tidy) (xid : Fin 4) :
    ∃ next, modifyDedicatedRrcReconfiguration ue xid = .ok next ∧ next.Tidy := by
  have inside : ¬ (range ue.nbOfPdusessions).any
      (fun i => toBeModified (ue.pduSession i) ∧ searchLeavesDrbs ue i) = true := by
    intro leaves
    obtain ⟨i, member, both⟩ := any_eq_true.mp leaves
    simp only [toBeModified, searchLeavesDrbs, decide_eq_true_eq, all_eq_true, mem_range] at both member
    obtain ⟨d, names⟩ := tidy.new i member both.1.1
    exact both.2.2 d names.1 names
  refine ⟨_, if_neg inside, ?_⟩
  apply (tidy.begin xid .pdusessionModify).changeAll
  intro i there
  have status := (tidy.begin xid .pdusessionModify).stays (i := i) there rfl rfl
  unfold reconfigureSession
  split
  case isTrue => exact ⟨rfl, Iff.rfl, status.new, status.zero⟩
  case isFalse old =>
  have new : ((ue.begin xid .pdusessionModify).pduSession i).status = .new := not_not.mp old
  split
  · exact Advances.moves rfl (by rw [new]; decide) (by simp) (by simp) (fun _ => rfl)
  refine Advances.moves rfl (by rw [new]; decide) (by simp) (by simp) (fun zero => ?_)
  rcases status.zero zero with gone | gone
  · exact absurd (new.symm.trans gone) (by decide)
  · exact absurd (new.symm.trans gone) (by decide)

/-- The condition under which the end of a release command clears entries without a DRB only, for the
sessions that are still to come. -/
def ClearsLater (xid : Fin 4) (ue : UeContext) (ids : List Nat) : Prop :=
  (∀ i, i < ue.nbOfPdusessions → (ue.pduSession i).pdusessionId ∈ ids → (ue.pduSession i).status ≠ .established) →
    ue.ClearsUnnamed fun session => session.xid = xid.val ∨ session.status = .failed ∧ session.pdusessionId ∈ ids

variable {xid : Fin 4}

theorem ClearsLater.failed {ids : List Nat} {j : Nat} (later : ClearsLater xid ue (id :: ids))
    (tidy : ue.Tidy) (nonzero : id ≠ 0) (inside : j < ue.nbOfPdusessions)
    (same : (ue.pduSession j).pdusessionId = id) (failed : (ue.pduSession j).status = .failed) :
    ClearsLater xid (ue.change j fun session => { session with xid := xid.val }) ids := by
  intro unestablished
  have entry : ∀ i, i ≠ j → (ue.change j fun session => { session with xid := xid.val }).pduSession i =
      ue.pduSession i := fun i other => update_of_ne other _ _
  have own : (ue.change j fun session => { session with xid := xid.val }).pduSession j =
      { ue.pduSession j with xid := xid.val } := update_self _ _ _
  have before := later (by
    intro i there member
    by_cases here : i = j
    · rw [here, failed]
      decide
    rcases mem_cons.mp member with other | rest
    · exact absurd (tidy.distinct i j there inside (other ▸ nonzero) (other.trans same.symm)) here
    · have kept := unestablished i there (by rwa [entry i here])
      rwa [entry i here] at kept)
  intro i there cleared
  by_cases here : i = j
  · subst here
    rw [own]
    exact before i there (.inr ⟨failed, same ▸ mem_cons_self⟩)
  · rw [entry i here] at cleared ⊢
    exact before i there (cleared.imp_right fun ⟨status, member⟩ => ⟨status, mem_cons_of_mem _ member⟩)

theorem ClearsLater.created {ids : List Nat} (later : ClearsLater xid ue (id :: ids))
    (tidy : ue.Tidy) (unlisted : ¬ ue.Listed id) (created : CreatedFailed ue next id) : ClearsLater xid next ids := by
  intro unestablished
  have inside : ∀ i, i < ue.nbOfPdusessions → i < next.nbOfPdusessions := by
    rw [created.count]
    omega
  have before := later (by
    intro i there member
    rcases mem_cons.mp member with other | rest
    · exact absurd ⟨i, there, other⟩ unlisted
    · have kept := unestablished i (inside i there) (by rwa [created.old i there])
      rwa [created.old i there] at kept)
  intro i there cleared
  rw [created.named]
  rcases Nat.lt_or_ge i ue.nbOfPdusessions with old | new
  · rw [created.old i old] at cleared ⊢
    exact before i old (cleared.imp_right fun ⟨status, member⟩ => ⟨status, mem_cons_of_mem _ member⟩)
  · have last : i = ue.nbOfPdusessions := by have := created.count; omega
    rw [last, created.entry]
    exact fun ⟨d, names⟩ => unlisted (tidy.listed d id names).2

theorem ClearsLater.other {ids : List Nat} {j : Nat} (later : ClearsLater xid ue (id :: ids))
    (tidy : ue.Tidy) (nonzero : id ≠ 0) (inside : j < ue.nbOfPdusessions)
    (same : (ue.pduSession j).pdusessionId = id) (status : (ue.pduSession j).status ≠ .established) :
    ClearsLater xid ue ids := by
  intro unestablished
  have before := later (by
    intro i there member
    rcases mem_cons.mp member with other | rest
    · rw [tidy.distinct i j there inside (other ▸ nonzero) (other.trans same.symm)]
      exact status
    · exact unestablished i there rest)
  exact fun i there cleared =>
    before i there (cleared.imp_right fun ⟨status, member⟩ => ⟨status, mem_cons_of_mem _ member⟩)

theorem releaseSessions_ok {ids : List Nat} {xid : Fin 4} {found : Bool} (tidy : ue.Tidy)
    (nonzero : ∀ id ∈ ids, id ≠ 0) (room : ue.Room ids) (later : found = false → ClearsLater xid ue ids) :
    ∃ next released, ids.foldlM (releaseSession xid) (ue, found) = .ok (next, released) ∧ next.Tidy ∧
      (released = false → next.ClearsUnnamed fun session => session.xid = xid.val) := by
  induction ids generalizing ue found with
  | nil =>
    refine ⟨ue, found, rfl, tidy, fun none i there cleared => ?_⟩
    exact later none (fun _ _ member => absurd member not_mem_nil) i there (.inl cleared)
  | cons id rest ih =>
    have first := nonzero id mem_cons_self
    have others : ∀ x ∈ rest, x ≠ 0 := (forall_mem_cons.mp nonzero).2
    rw [foldlM_cons]
    cases there : findPduSession ue id with
    | none =>
      have unlisted := findPduSession_none.mp there
      obtain ⟨middle, step, created⟩ := createFailed_ok tidy first unlisted (room.fits unlisted)
      have taken : releaseSession xid (ue, found) id = .ok (middle, found) := by
        simp only [releaseSession, there, step]
        rfl
      rw [taken]
      exact ih created.tidy others (room.created unlisted created.count fun x => (created.listed x).mpr)
        fun none => (later none).created tidy unlisted created
    | some j =>
      obtain ⟨inside, same⟩ := findPduSession_some there
      have room' : ∀ f, (∀ session : PduSession, (f session).pdusessionId = session.pdusessionId) →
          (ue.change j f).Room rest := fun f keeps => room.listed rfl fun x => (listed_change keeps).mpr
      by_cases failed : (ue.pduSession j).status = .failed
      · have taken : releaseSession xid (ue, found) id =
            .ok (ue.change j fun session => { session with xid := xid.val }, found) := by
          simp [releaseSession, there, failed]
        rw [taken]
        exact ih (tidy.change inside (tidy.stays inside rfl rfl)) others (room' _ fun _ => rfl)
          fun none => (later none).failed tidy first inside same failed
      · by_cases established : (ue.pduSession j).status = .established
        · have taken : releaseSession xid (ue, found) id =
              .ok (ue.change j fun session => { session with status := .torelease, xid := xid.val }, true) := by
            simp [releaseSession, there, established]
          rw [taken]
          refine ih (tidy.change inside ?_) others (room' _ fun _ => rfl) (fun none => absurd none (by decide))
          exact Advances.moves rfl (by rw [established]; decide) (by simp) (by simp)
            (fun zero => absurd (same ▸ zero) first)
        · have taken : releaseSession xid (ue, found) id = .ok (ue, found) := by
            simp [releaseSession, there]
          rw [taken]
          exact ih tidy others (room.listed rfl fun _ there => there)
            fun none => (later none).other tidy first inside same established

theorem generateDedicatedRrcReconfiguration_tidy (tidy : ue.Tidy) (xid : Fin 4) :
    (generateDedicatedRrcReconfiguration ue xid).Tidy := by
  apply (tidy.begin xid .pdusessionEstablish).changeAll
  intro i there
  by_cases early : (ue.pduSession i).status = .new ∨ (ue.pduSession i).status = .done
  · have zero : (ue.pduSession i).pdusessionId ≠ 0 := by
      intro none
      rcases tidy.zero i there none with status | status <;> rw [status] at early <;> simp at early
    refine Advances.moves rfl (tidy.unreleased there zero) ?_ ?_ (fun none => absurd none zero)
    · simp [begin, early]
    · simp [begin, early]
  · exact (tidy.begin xid .pdusessionEstablish).stays there (by rfl) (if_neg early)

theorem modifyRespSession_tidy {i : Nat} (tidy : ue.Tidy) (there : i < ue.nbOfPdusessions) :
    (modifyRespSession xid ue i).Tidy := by
  unfold modifyRespSession
  split
  case isFalse => exact tidy
  case isTrue done =>
  have zero : (ue.pduSession i).pdusessionId ≠ 0 := by
    intro none
    rcases tidy.zero i there none with status | status <;> rw [status] at done <;> simp at done
  cases found : findPduSession ue (ue.pduSession i).pdusessionId with
  | none => exact tidy
  | some k =>
    obtain ⟨inside, same⟩ := findPduSession_some found
    apply tidy.change inside
    exact Advances.moves rfl (tidy.unreleased inside (same ▸ zero)) (by simp) (by simp)
      (fun none => absurd (same ▸ none) zero)

theorem modifyRespSession_count (xid : Fin 4) (i : Nat) :
    (modifyRespSession xid ue i).nbOfPdusessions = ue.nbOfPdusessions := by
  unfold modifyRespSession
  split
  · cases findPduSession ue (ue.pduSession i).pdusessionId <;> rfl
  · rfl

theorem pdusessionModifyResp_tidy (tidy : ue.Tidy) (xid : Fin 4) : (pdusessionModifyResp ue xid).Tidy := by
  have walked : ∀ (indices : List Nat) (ue : UeContext), ue.Tidy → (∀ i ∈ indices, i < ue.nbOfPdusessions) →
      (indices.foldl (modifyRespSession xid) ue).Tidy := by
    intro indices
    induction indices with
    | nil => exact fun _ tidy _ => tidy
    | cons i rest ih =>
      intro ue tidy inside
      refine ih _ (modifyRespSession_tidy tidy (inside i mem_cons_self)) fun k member => ?_
      rw [modifyRespSession_count]
      exact inside k (mem_cons_of_mem i member)
  exact walked _ ue tidy fun i member => mem_range.mp member

theorem handleRrcReconfigurationComplete_tidy (tidy : ue.Tidy)
    (allowed : (SessionEvent.reconfigurationComplete xid).Allowed ue) :
    (handleRrcReconfigurationComplete ue xid).Tidy := by
  apply UeContext.Tidy.begin
  rw [SessionEvent.Allowed] at allowed
  cases action : ue.xids xid with
  | none => exact tidy
  | pdusessionEstablish =>
    rw [action] at allowed
    dsimp only
    split
    · exact tidy.answer allowed
    · exact tidy
  | pdusessionModify => exact pdusessionModifyResp_tidy tidy xid
  | pdusessionRelease =>
    rw [action] at allowed
    exact tidy.clear allowed

theorem processSessionEvent_ok {event : SessionEvent} (tidy : ue.Tidy) (allowed : event.Allowed ue) :
    ∃ next, processSessionEvent ue event = .ok next ∧ next.Tidy := by
  cases event with
  | setupReq sessions =>
    obtain ⟨distinct, fresh, free, room⟩ := allowed
    exact triggerBearerSetup_ok tidy distinct fresh free room
  | dedicatedReconfiguration xid => exact ⟨_, rfl, generateDedicatedRrcReconfiguration_tidy tidy xid⟩
  | modifyReq sessions xid =>
    obtain ⟨next, failed, done, kept⟩ := @modifySessions_ok ue sessions.val 0 true tidy allowed.1 allowed.2
    have unfolded : processSessionEvent ue (.modifyReq sessions xid) =
        if failed then .ok next else modifyDedicatedRrcReconfiguration next xid := by
      simp only [processSessionEvent, processPdusessionModifyReq, done]
      rfl
    rw [unfolded]
    cases failed with
    | true => exact ⟨next, rfl, kept⟩
    | false => exact modifyDedicatedRrcReconfiguration_ok kept xid
  | releaseCommand ids xid =>
    by_cases many : ids.length > ngapMaxPdusession
    · exact ⟨ue, if_pos many, tidy⟩
    obtain ⟨nonzero, room, later⟩ := allowed (not_lt.mp many)
    obtain ⟨next, released, done, kept, unnamed⟩ := @releaseSessions_ok (ue.begin xid .pdusessionRelease) ids xid
      false (tidy.begin xid _) nonzero room fun _ => later
    have unfolded : processSessionEvent ue (.releaseCommand ids xid) =
        .ok (if released then next else pdusessionReleaseResponse next xid) := by
      simp only [processSessionEvent, processPdusessionReleaseCommand, if_neg many, done]
      rfl
    rw [unfolded]
    cases released with
    | true => exact ⟨next, rfl, kept⟩
    | false => exact ⟨_, rfl, kept.clear (unnamed rfl)⟩
  | reconfigurationComplete xid => exact ⟨_, rfl, handleRrcReconfigurationComplete_tidy tidy allowed⟩

def request (ids : List Nat) (few : ids.length ≤ ngapMaxPdusession) : RequestedSessions :=
  ⟨ids.map fun id => ⟨id, true, some [9]⟩, by simpa using few⟩

def UeContext.view (ue : UeContext) : List (Nat × PduSessionStatus) × List Nat :=
  ((range ue.nbOfPdusessions).map fun i => ((ue.pduSession i).pdusessionId, (ue.pduSession i).status),
    ((range maxDrbsPerUe).filter fun d => (ue.establishedDrbs d).status ≠ .inactive).map
      fun d => (ue.establishedDrbs d).pdusessionId)

end OranSlice.Rrc
