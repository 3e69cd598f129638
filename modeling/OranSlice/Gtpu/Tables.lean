import OranSlice.Gtpu.Tunnels

/-! What each tunnel operation does to the bearers of every UE and to the map of TEIDs. -/

namespace OranSlice.Gtpu

open BitCodec List

namespace GtpEndPoints

variable (globGtp : GtpEndPoints)

def bearersOf (key ueId : Nat) : Table GtpBearer :=
  ((globGtp.instances.lookup key).bind (fun ue2te => ue2te.lookup ueId)).getD ∅

def hasUe (key ueId : Nat) : Bool :=
  ((globGtp.instances.lookup key).bind (fun ue2te => ue2te.lookup ueId)).isSome

def bearerAt (key ueId bearerId : Nat) : Option GtpBearer :=
  (globGtp.bearersOf key ueId).lookup bearerId

def teidAt (place : Nat × Nat × Nat) : Option Nat :=
  (globGtp.bearerAt place.1 place.2.1 place.2.2).map GtpBearer.teidIncoming

end GtpEndPoints

def Contiguous (bearers : Table GtpBearer) : Prop := ∀ i < bearers.keys.length, i ∈ bearers

theorem Contiguous.lt_length {bearers : Table GtpBearer} (contiguous : Contiguous bearers) {b : Nat}
    (member : b ∈ bearers) : b < bearers.keys.length := by
  have counted : range bearers.keys.length ⊆ bearers.keys := by
    intro i below
    exact contiguous i (mem_range.mp below)
  have all := (subperm_of_subset nodup_range counted).perm_of_length_le (by simp)
  exact mem_range.mp (all.mem_iff.mpr member)

namespace Table

variable {α : Type} [Inhabited α]

omit [Inhabited α] in
theorem exists_lookup {table : Table α} (nonempty : table ≠ ∅) : ∃ key value, table.lookup key = some value := by
  have entries : table.entries ≠ [] := by
    intro empty
    exact nonempty (AList.ext empty)
  obtain ⟨⟨key, value⟩, member⟩ := exists_mem_of_ne_nil _ entries
  exact ⟨key, value, AList.mem_lookup_iff.mpr member⟩

variable (table : Table α)

theorem access_snd (key : Nat) : (table.access key).2 = (table.lookup key).getD default := by
  unfold access
  cases table.lookup key <;> rfl

theorem access_of_lookup {table : Table α} {key : Nat} {value : α} (found : table.lookup key = some value) :
    table.access key = (table, value) := by
  unfold access
  rw [found]

theorem lookup_access (key k : Nat) :
    (table.access key).1.lookup k = if k = key then some (table.access key).2 else table.lookup k := by
  by_cases same : k = key
  · rw [if_pos same, same]
    unfold access
    cases found : table.lookup key with
    | none => exact AList.lookup_insert table
    | some value => exact found
  · rw [if_neg same]
    unfold access
    cases table.lookup key with
    | none => exact AList.lookup_insert_ne same
    | some value => rfl

theorem length_le_access (key : Nat) : table.keys.length ≤ (table.access key).1.keys.length := by
  unfold access
  cases found : table.lookup key with
  | none =>
    rw [AList.keys_insert, erase_of_not_mem (AList.lookup_eq_none.mp found)]
    exact Nat.le_succ _
  | some value => exact le_refl _

end Table

namespace GtpEndPoints

variable {globGtp : GtpEndPoints}

@[simp] theorem instanceKey_compatInst (instanceId : Int) :
    globGtp.instanceKey (globGtp.compatInst instanceId) = globGtp.instanceKey instanceId := by
  unfold instanceKey compatInst
  split <;> rename_i legacy
  · split <;> rfl
  · rfl

theorem bearersOf_eq {key : Nat} {ue2te : Table (Table GtpBearer)}
    (known : globGtp.instances.lookup key = some ue2te) (ueId : Nat) :
    globGtp.bearersOf key ueId = (ue2te.lookup ueId).getD ∅ := by
  unfold bearersOf
  rw [known]
  rfl

theorem bearersOf_setUe2te (key : Nat) (ue2te : Table (Table GtpBearer)) (te2ue : Table UeidData)
    (otherKey ueId : Nat) :
    GtpEndPoints.bearersOf { globGtp.setUe2te key ue2te with te2ueMapping := te2ue } otherKey ueId =
      if otherKey = key then (ue2te.lookup ueId).getD ∅ else globGtp.bearersOf otherKey ueId := by
  unfold bearersOf setUe2te
  split_ifs with same
  · rw [same, AList.lookup_insert]
    rfl
  · rw [AList.lookup_insert_ne same]

theorem teidAt_of_bearersOf {next : GtpEndPoints} {key ueId : Nat} {bearers : Table GtpBearer}
    (changed : ∀ k u, next.bearersOf k u = if k = key ∧ u = ueId then bearers else globGtp.bearersOf k u)
    (k u b : Nat) :
    next.teidAt (k, u, b) =
      if k = key ∧ u = ueId then (bearers.lookup b).map GtpBearer.teidIncoming else globGtp.teidAt (k, u, b) := by
  unfold teidAt bearerAt
  rw [changed]
  split <;> rfl

theorem bearersOf_replaced {key ueId : Nat} {ue2te replaced : Table (Table GtpBearer)}
    {bearers : Table GtpBearer} (known : globGtp.instances.lookup key = some ue2te)
    (here : (replaced.lookup ueId).getD ∅ = bearers)
    (others : ∀ u, u ≠ ueId → replaced.lookup u = ue2te.lookup u) (te2ue : Table UeidData) (k u : Nat) :
    GtpEndPoints.bearersOf { globGtp.setUe2te key replaced with te2ueMapping := te2ue } k u =
      if k = key ∧ u = ueId then bearers else globGtp.bearersOf k u := by
  rw [bearersOf_setUe2te]
  by_cases same : k = key
  · by_cases ue : u = ueId
    · rw [if_pos same, if_pos ⟨same, ue⟩, ue, here]
    · rw [if_pos same, if_neg (fun both => ue both.2), others u ue, same, bearersOf_eq known]
  · rw [if_neg same, if_neg (fun both => same both.1)]

variable {ue2te : Table (Table GtpBearer)}

theorem lookup_eraseExisting {ueId u : Nat} (bearerId : Nat) (other : u ≠ ueId) :
    (eraseExisting ue2te ueId bearerId).lookup u = ue2te.lookup u := by
  unfold eraseExisting
  split
  · rfl
  · split
    · exact AList.lookup_erase_ne other
    · rfl

theorem eraseExisting_of_new {ueId bearerId : Nat}
    (new : bearerId ∉ (ue2te.lookup ueId).getD ∅) : eraseExisting ue2te ueId bearerId = ue2te := by
  unfold eraseExisting
  split
  · rfl
  · rename_i bearers found
    rw [found] at new
    exact if_neg new

theorem freshTeid_spec {draws : List Draw} {teid : Nat} (drawn : globGtp.freshTeid draws = some teid) :
    globGtp.te2ueMapping.lookup teid = none ∧ 1 ≤ teid ∧ teid < 2 ^ 32 := by
  have fresh := find?_some drawn
  have member := mem_of_find?_eq_some drawn
  obtain ⟨draw, _, rfl⟩ := mem_map.mp member
  refine ⟨AList.lookup_eq_none.mpr (by simpa using fresh), ?_, ?_⟩
  · unfold gtpv1uNewTeid
    unfold randMax at *
    omega
  · exact Nat.mod_lt _ (by decide)

theorem newGtpuCreateTunnel_cases {instanceId : Int} {request : TunnelRequest} {draws : List Draw}
    {next : GtpEndPoints} {result : Int}
    (created : globGtp.newGtpuCreateTunnel instanceId request draws = some (next, result)) :
    (globGtp.instanceKey instanceId ∉ globGtp.instances ∧ next = globGtp ∧ result = gtpNok) ∨
      ∃ teid bearer kept, globGtp.instanceKey instanceId ∈ globGtp.instances ∧
        globGtp.freshTeid draws = some teid ∧ result = teid ∧ bearer.teidIncoming = teid ∧
        next.te2ueMapping = globGtp.te2ueMapping.insert teid (owner request) ∧
        (∀ k u, next.bearersOf k u = if k = globGtp.instanceKey instanceId ∧ u = request.ueId then
            AList.insert (toKey request.outgoingBearerId) bearer kept
          else globGtp.bearersOf k u) ∧
        (toKey request.outgoingBearerId ∉ globGtp.bearersOf (globGtp.instanceKey instanceId) request.ueId →
          kept = globGtp.bearersOf (globGtp.instanceKey instanceId) request.ueId) := by
  unfold newGtpuCreateTunnel at created
  rw [instanceKey_compatInst] at created
  dsimp only at created
  cases known : globGtp.instances.lookup (globGtp.instanceKey instanceId) with
  | none =>
    rw [known] at created
    cases created
    exact .inl ⟨AList.lookup_eq_none.mp known, rfl, rfl⟩
  | some ue2te =>
    rw [known] at created
    obtain ⟨teid, drawn, created⟩ := Option.bind_eq_some_iff.mp created
    obtain ⟨bearer, _, created⟩ := Option.map_eq_some_iff.mp created
    cases created
    refine .inr ⟨teid, _, _, AList.lookup_isSome.mp (by rw [known]; rfl), drawn, rfl, ?_, rfl,
      bearersOf_replaced known (by rw [AList.lookup_insert]; rfl)
        (fun u other => (AList.lookup_insert_ne other).trans (lookup_eraseExisting _ other)) _, ?_⟩
    · rfl
    · intro new
      rw [bearersOf_eq known] at new ⊢
      rw [eraseExisting_of_new new, Table.access_snd]
      rfl

variable (oldUeId newUeId : Nat) (owner : UeidData)

def retitle : UeidData :=
  if owner.ueId = oldUeId then { owner with ueId := newUeId } else owner

theorem retitle_retitle :
    retitle oldUeId newUeId (retitle oldUeId newUeId owner) = retitle oldUeId newUeId owner := by
  unfold retitle
  split
  · split <;> rfl
  · rfl

theorem lookup_retitled {teid : Nat} {te2ue : Table UeidData} {owner : UeidData}
    (owned : te2ue.lookup teid = some owner) (other : Nat) :
    AList.lookup other (if owner.ueId = oldUeId then
        AList.insert teid { owner with ueId := newUeId } te2ue else te2ue) =
      if other = teid then (te2ue.lookup other).map (retitle oldUeId newUeId) else te2ue.lookup other := by
  by_cases same : other = teid
  · rw [if_pos same, same, owned, Option.map_some, retitle]
    split
    · rw [AList.lookup_insert]
    · exact owned
  · split
    · rw [AList.lookup_insert_ne same]
    · rfl

theorem updateLoop_bearers {oldUeId newUeId fuel i : Nat} {bearers bearers' : Table GtpBearer}
    {te2ue te2ue' : Table UeidData}
    (ended : updateLoop oldUeId newUeId fuel i bearers te2ue = some (bearers', te2ue')) :
    (∀ k bearer, bearers.lookup k = some bearer → bearers'.lookup k = some bearer) ∧
    (∀ k, i ≤ k → k < bearers.keys.length → bearers.lookup k = none → bearers'.lookup k = some default) ∧
    (∀ k bearer, bearers.lookup k = none → bearers'.lookup k = some bearer → bearer = default) := by
  induction fuel generalizing i bearers te2ue with
  | zero => cases ended
  | succ fuel ih =>
    unfold updateLoop at ended
    split at ended
    · have look := bearers.lookup_access i
      have long := bearers.length_le_access i
      have value := bearers.access_snd i
      generalize bearers.access i = accessed at ended look long value
      obtain ⟨middle, bearer⟩ := accessed
      obtain ⟨kept, filled, empty⟩ := ih ended
      refine ⟨?_, ?_, ?_⟩
      · intro k old found
        apply kept
        rw [look]
        split_ifs with same
        · rw [value, ← same, found]
          rfl
        · exact found
      · intro k above below missing
        by_cases same : k = i
        · apply kept
          rw [look, if_pos same, value, ← same, missing]
          rfl
        · apply filled k (by omega) (lt_of_lt_of_le below long)
          rw [look, if_neg same, missing]
      · intro k added missing there
        by_cases same : k = i
        · have filled : middle.lookup k = some default := by
            rw [look, if_pos same, value, ← same, missing]
            rfl
          exact Option.some.inj (there.symm.trans (kept k default filled))
        · apply empty k added _ there
          rw [look, if_neg same, missing]
    · cases ended
      refine ⟨fun _ _ found => found, fun k above below => ?_, fun k added missing there => ?_⟩
      · omega
      · cases missing.symm.trans there

def TeidFrom (bearers : Table GtpBearer) (i teid : Nat) : Prop :=
  ∃ k bearer, i ≤ k ∧ k < bearers.keys.length ∧ bearers.lookup k = some bearer ∧ bearer.teidIncoming = teid

theorem updateLoop_owners {oldUeId newUeId fuel i : Nat} {bearers bearers' : Table GtpBearer}
    {te2ue te2ue' : Table UeidData}
    (ended : updateLoop oldUeId newUeId fuel i bearers te2ue = some (bearers', te2ue'))
    (full : ∀ k, i ≤ k → k < bearers.keys.length →
      ∃ bearer owner, bearers.lookup k = some bearer ∧ te2ue.lookup bearer.teidIncoming = some owner) :
    bearers' = bearers ∧ (∀ teid, TeidFrom bearers i teid →
      te2ue'.lookup teid = (te2ue.lookup teid).map (retitle oldUeId newUeId)) ∧
    (∀ teid, ¬ TeidFrom bearers i teid → te2ue'.lookup teid = te2ue.lookup teid) := by
  induction fuel generalizing i te2ue with
  | zero => cases ended
  | succ fuel ih =>
    unfold updateLoop at ended
    split_ifs at ended with below
    · obtain ⟨bearer, owner, found, owned⟩ := full i (le_refl i) below
      rw [Table.access_of_lookup found] at ended
      dsimp only at ended
      rw [Table.access_of_lookup owned] at ended
      have look := lookup_retitled oldUeId newUeId owned
      have first : TeidFrom bearers i bearer.teidIncoming := ⟨i, bearer, le_refl i, below, found, rfl⟩
      have later : ∀ teid, TeidFrom bearers (i + 1) teid → TeidFrom bearers i teid := by
        rintro teid ⟨k, other, above, rest⟩
        exact ⟨k, other, by omega, rest⟩
      have split : ∀ teid, TeidFrom bearers i teid → teid ≠ bearer.teidIncoming →
          TeidFrom bearers (i + 1) teid := by
        rintro teid ⟨k, other, above, below, there, rfl⟩ different
        refine ⟨k, other, ?_, below, there, rfl⟩
        rcases Nat.eq_or_lt_of_le above with same | above
        · subst same
          cases found.symm.trans there
          exact absurd rfl different
        · exact above
      obtain ⟨same, renamed, kept⟩ := ih ended (by
        intro k above below
        obtain ⟨other, otherOwner, there, otherOwned⟩ := full k (by omega) below
        refine ⟨other, if other.teidIncoming = bearer.teidIncoming then retitle oldUeId newUeId otherOwner
          else otherOwner, there, ?_⟩
        rw [look, otherOwned]
        split <;> rfl)
      refine ⟨same, fun teid here => ?_, fun teid away => ?_⟩
      · by_cases again : TeidFrom bearers (i + 1) teid
        · rw [renamed teid again, look]
          split
          · rw [Option.map_map]
            congr 1
            exact funext (retitle_retitle oldUeId newUeId)
          · rfl
        · have now : teid = bearer.teidIncoming := by
            by_contra different
            exact again (split teid here different)
          rw [kept teid again, look, if_pos now]
      · have different : teid ≠ bearer.teidIncoming := by
          rintro rfl
          exact away first
        rw [kept teid (mt (later teid) away), look, if_neg different]
    · cases ended
      refine ⟨rfl, ?_, fun _ _ => rfl⟩
      rintro teid ⟨k, _, above, below, _⟩
      omega

theorem gtpv1uUpdateUeId_cases {instanceId : Int} {oldUeId newUeId : Nat} {next : GtpEndPoints} {result : Int}
    (updated : globGtp.gtpv1uUpdateUeId instanceId oldUeId newUeId = some (next, result)) :
    (globGtp.hasUe (globGtp.instanceKey instanceId) oldUeId = false ∧ result = gtpNok ∧
      next.te2ueMapping = globGtp.te2ueMapping ∧ ∀ k u, next.bearersOf k u = globGtp.bearersOf k u) ∨
    ∃ bearers' te2ue', globGtp.hasUe (globGtp.instanceKey instanceId) oldUeId = true ∧ result = 0 ∧
      updateLoop oldUeId newUeId (2 ^ 32) 0 (globGtp.bearersOf (globGtp.instanceKey instanceId) oldUeId)
        globGtp.te2ueMapping = some (bearers', te2ue') ∧
      next.te2ueMapping = te2ue' ∧
      ∀ k u, next.bearersOf k u = if k = globGtp.instanceKey instanceId ∧ u = oldUeId then ∅
        else if k = globGtp.instanceKey instanceId ∧ u = newUeId then bearers'
        else globGtp.bearersOf k u := by
  unfold gtpv1uUpdateUeId at updated
  dsimp only at updated
  generalize globGtp.instanceKey instanceId = key at updated ⊢
  cases known : globGtp.instances.lookup key with
  | none =>
    left
    unfold Table.access at updated
    rw [known] at updated
    cases updated
    refine ⟨by rw [hasUe, known]; rfl, rfl, rfl, fun k u => ?_⟩
    unfold bearersOf
    by_cases same : k = key
    · rw [same, AList.lookup_insert, known]
      rfl
    · rw [AList.lookup_insert_ne same]
  | some ue2te =>
    rw [Table.access_of_lookup known] at updated
    cases there : ue2te.lookup oldUeId with
    | none =>
      left
      rw [there] at updated
      cases updated
      exact ⟨by rw [hasUe, known, Option.bind_some, there]; rfl, rfl, rfl, fun _ _ => rfl⟩
    | some bearers =>
      right
      rw [there] at updated
      obtain ⟨⟨bearers', te2ue'⟩, ended, updated⟩ := Option.map_eq_some_iff.mp updated
      cases updated
      refine ⟨bearers', te2ue', by rw [hasUe, known, Option.bind_some, there]; rfl, rfl, ?_, rfl, fun k u => ?_⟩
      · rw [bearersOf_eq known, there]
        exact ended
      · rw [bearersOf_setUe2te]
        by_cases same : k = key
        · rw [if_pos same]
          by_cases old : u = oldUeId
          · rw [if_pos ⟨same, old⟩, old, AList.lookup_erase]
            rfl
          rw [AList.lookup_erase_ne old, if_neg (fun both => old both.2)]
          by_cases new : u = newUeId
          · rw [if_pos ⟨same, new⟩, new, AList.lookup_insert]
            rfl
          · rw [if_neg (fun both => new both.2), AList.lookup_insert_ne new, same, bearersOf_eq known]
        · rw [if_neg same, if_neg (fun both => same both.1), if_neg (fun both => same both.1)]

theorem lookup_eraseTeids (te2ue : Table UeidData) (bearers : List GtpBearer) (teid : Nat) :
    (eraseTeids te2ue bearers).lookup teid =
      if teid ∈ bearers.map GtpBearer.teidIncoming then none else te2ue.lookup teid := by
  induction bearers generalizing te2ue with
  | nil => rfl
  | cons bearer rest ih =>
    change (eraseTeids (te2ue.erase bearer.teidIncoming) rest).lookup teid = _
    rw [ih, map_cons]
    by_cases same : teid = bearer.teidIncoming
    · rw [same, AList.lookup_erase, if_pos mem_cons_self, ite_self]
    · simp [same]

section

variable (globGtp : GtpEndPoints) (instanceId : Int) (ueId : Nat)

theorem newGtpuDeleteOneTunnel_cases (rbId : Int) :
    (globGtp.bearerAt (globGtp.instanceKey instanceId) ueId (toKey rbId) = none ∧
      (globGtp.newGtpuDeleteOneTunnel instanceId ueId rbId).1 = globGtp) ∨
    ∃ bearer, globGtp.bearerAt (globGtp.instanceKey instanceId) ueId (toKey rbId) = some bearer ∧
      (globGtp.newGtpuDeleteOneTunnel instanceId ueId rbId).1.te2ueMapping =
        globGtp.te2ueMapping.erase (toKey (toInt bearer.teidIncoming)) ∧
      ∀ k u, (globGtp.newGtpuDeleteOneTunnel instanceId ueId rbId).1.bearersOf k u =
        if k = globGtp.instanceKey instanceId ∧ u = ueId then
          AList.erase (toKey rbId) (globGtp.bearersOf (globGtp.instanceKey instanceId) ueId)
        else globGtp.bearersOf k u := by
  unfold newGtpuDeleteOneTunnel bearerAt
  rw [instanceKey_compatInst]
  dsimp only
  generalize globGtp.instanceKey instanceId = key
  cases known : globGtp.instances.lookup key with
  | none => exact .inl ⟨by rw [bearersOf, known]; rfl, rfl⟩
  | some ue2te =>
    rw [bearersOf_eq known]
    dsimp only
    cases there : ue2te.lookup ueId with
    | none => exact .inl ⟨rfl, rfl⟩
    | some bearers =>
      dsimp only [Option.getD_some]
      cases found : bearers.lookup (toKey rbId) with
      | none => exact .inl ⟨rfl, rfl⟩
      | some bearer =>
        exact .inr ⟨bearer, rfl, rfl, bearersOf_replaced known (by rw [AList.lookup_insert]; rfl)
          (fun u => AList.lookup_insert_ne) _⟩

theorem newGtpuDeleteAllTunnels_spec :
    (∀ teid, (globGtp.newGtpuDeleteAllTunnels instanceId ueId).1.te2ueMapping.lookup teid =
      if teid ∈ (globGtp.bearersOf (globGtp.instanceKey instanceId) ueId).entries.map
          (fun entry => entry.2.teidIncoming) then none
      else globGtp.te2ueMapping.lookup teid) ∧
    ∀ k u, (globGtp.newGtpuDeleteAllTunnels instanceId ueId).1.bearersOf k u =
      if k = globGtp.instanceKey instanceId ∧ u = ueId then ∅ else globGtp.bearersOf k u := by
  unfold newGtpuDeleteAllTunnels
  rw [instanceKey_compatInst]
  dsimp only
  generalize globGtp.instanceKey instanceId = key
  have nothing (empty : globGtp.bearersOf key ueId = ∅) :
      (∀ teid, globGtp.te2ueMapping.lookup teid =
        if teid ∈ (globGtp.bearersOf key ueId).entries.map (fun entry => entry.2.teidIncoming) then none
        else globGtp.te2ueMapping.lookup teid) ∧
      ∀ k u, globGtp.bearersOf k u = if k = key ∧ u = ueId then ∅ else globGtp.bearersOf k u := by
    rw [empty]
    refine ⟨fun _ => rfl, fun k u => ?_⟩
    split_ifs with here
    · rw [here.1, here.2, empty]
    · rfl
  cases known : globGtp.instances.lookup key with
  | none => exact nothing (by rw [bearersOf, known]; rfl)
  | some ue2te =>
    dsimp only
    cases there : ue2te.lookup ueId with
    | none => exact nothing (by rw [bearersOf_eq known, there]; rfl)
    | some bearers =>
      refine ⟨fun teid => ?_, bearersOf_replaced known (by rw [AList.lookup_erase]; rfl)
        (fun u => AList.lookup_erase_ne) _⟩
      rw [lookup_eraseTeids, bearersOf_eq known, there, map_map]
      rfl

theorem newGtpuDeleteTunnels_spec (pdusessionIds : List Byte) :
    (∀ teid, (∀ id ∈ pdusessionIds, ∀ bearer ∈
          globGtp.bearerAt (globGtp.instanceKey instanceId) ueId id.toNat, bearer.teidIncoming ≠ teid) →
        (globGtp.newGtpuDeleteTunnels instanceId ueId pdusessionIds).1.te2ueMapping.lookup teid =
          globGtp.te2ueMapping.lookup teid) ∧
    ∀ k u, (globGtp.newGtpuDeleteTunnels instanceId ueId pdusessionIds).1.bearersOf k u =
      globGtp.bearersOf k u := by
  unfold newGtpuDeleteTunnels bearerAt
  rw [instanceKey_compatInst]
  dsimp only
  generalize globGtp.instanceKey instanceId = key
  cases known : globGtp.instances.lookup key with
  | none => exact ⟨fun _ _ => rfl, fun _ _ => rfl⟩
  | some ue2te =>
    dsimp only
    cases there : ue2te.lookup ueId with
    | none => exact ⟨fun _ _ => rfl, fun _ _ => rfl⟩
    | some bearers =>
      have same : globGtp.bearersOf key ueId = bearers := by rw [bearersOf_eq known, there]; rfl
      refine ⟨fun teid away => ?_, fun k u => ?_⟩
      · rw [lookup_eraseTeids, if_neg]
        intro member
        obtain ⟨bearer, found, here⟩ := mem_map.mp member
        obtain ⟨id, listed, found⟩ := mem_filterMap.mp found
        exact away id listed bearer (same ▸ found) here
      · dsimp only
        split_ifs with empty
        · rw [bearersOf_replaced known (by rw [AList.lookup_erase]) (fun u => AList.lookup_erase_ne)]
          split_ifs with here
          · rw [here.1, here.2, same]
            exact AList.ext (length_eq_zero_iff.mp (by simpa [AList.keys, keys] using empty)).symm
          · rfl
        · rw [bearersOf_setUe2te]
          split_ifs with here
          · rw [here, bearersOf_eq known]
          · rfl

end

end GtpEndPoints

end OranSlice.Gtpu
