import OranSlice.Gtpu.Consistency

/-! Every other operation makes the tables inconsistent, so that a run keeps them consistent exactly if all
its operations do. -/

namespace OranSlice.Gtpu

open BitCodec Registry Runs GtpEndPoints List

variable {session next : Session}

namespace Session.Sound

variable {instanceId rbId : Int} {request : TunnelRequest} {draws : List Draw} {result : GtpEndPoints × Int}
  {oldUeId newUeId ueId : Nat} {pdusessionIds : List Byte} {op : GtpOp}

theorem createTunnel_breaks (sound : session.Sound)
    (illegal : ¬ (GtpOp.createTunnel instanceId request draws).KeepsTables session.globGtp)
    (created : session.globGtp.newGtpuCreateTunnel instanceId request draws = some result) :
    ¬ (session.created (session.globGtp.instanceKey instanceId) request result).Consistent := by
  obtain ⟨globGtp, result⟩ := result
  rcases newGtpuCreateTunnel_cases created with
    ⟨unknown, _⟩ | ⟨teid, bearer, kept, known, drawn, rfl, hasTeid, owners, bearers, _⟩
  · exact absurd (fun known => absurd known unknown) illegal
  intro consistent
  obtain ⟨unowned, _⟩ := freshTeid_spec drawn
  rw [Session.created_teid] at consistent
  have small : toKey request.outgoingBearerId < 2 ^ 8 := by
    have listed := consistent.owners.found (mem_append_right session.live mem_cons_self)
    rw [owners] at listed
    change AList.lookup teid _ = _ at listed
    rw [AList.lookup_insert] at listed
    have same := congrArg UeidData.pdusessionId (Option.some.inj listed)
    change (request.outgoingBearerId % 2 ^ 8).toNat = toKey request.outgoingBearerId at same
    omega
  apply illegal
  intro _
  refine ⟨small, ?_⟩
  cases found : session.globGtp.bearerAt (session.globGtp.instanceKey instanceId) request.ueId
      (toKey request.outgoingBearerId) with
  | none => rfl
  | some old =>
    obtain ⟨tunnel, member, place, _⟩ := sound.tunnel_of_bearer found
    have there := consistent.bearers.found (mem_append_left _ member)
    rw [place] at there
    rw [teidAt_of_bearersOf bearers, if_pos ⟨rfl, rfl⟩, AList.lookup_insert, Option.map_some, hasTeid] at there
    have taken := sound.owners.found member
    rw [← Option.some.inj there, unowned] at taken
    cases taken

theorem updateUeId_breaks (sound : session.Sound)
    (illegal : ¬ (GtpOp.updateUeId instanceId oldUeId newUeId).KeepsTables session.globGtp)
    (updated : session.globGtp.gtpv1uUpdateUeId instanceId oldUeId newUeId = some result) :
    ¬ (session.renamed (session.globGtp.instanceKey instanceId) oldUeId newUeId result).Consistent := by
  obtain ⟨globGtp, result⟩ := result
  rcases gtpv1uUpdateUeId_cases updated with
    ⟨unknown, _⟩ | ⟨bearers', te2ue', known, rfl, ended, rfl, bearers⟩
  · exact absurd (fun known => by rw [unknown] at known; cases known) illegal
  intro consistent
  change Session.Consistent { globGtp := globGtp, live := session.live.map _ } at consistent
  apply illegal
  intro _
  generalize session.globGtp.instanceKey instanceId = key at *
  obtain ⟨kept, filled, empty⟩ := updateLoop_bearers ended
  have there (k u b : Nat) : globGtp.teidAt (k, u, b) = if k = key ∧ u = oldUeId then none
      else if k = key ∧ u = newUeId then (bearers'.lookup b).map GtpBearer.teidIncoming
      else session.globGtp.teidAt (k, u, b) := by
    unfold teidAt bearerAt
    rw [bearers]
    split
    · rfl
    · split <;> rfl
  -- a UE with bearers is not renamed to itself, since it is erased
  have different : session.globGtp.bearersOf key oldUeId ≠ ∅ → newUeId ≠ oldUeId := by
    rintro nonempty rfl
    obtain ⟨b, bearer, found⟩ := Table.exists_lookup nonempty
    obtain ⟨tunnel, member, place, _⟩ := sound.tunnel_of_bearer found
    have listed := consistent.bearers.found (mem_map_of_mem member)
    simp only [Tunnel.place, Prod.mk.injEq] at place
    rw [Tunnel.place, there] at listed
    simp [Tunnel.rename, place] at listed
  have positive (tunnel : Tunnel) (member : tunnel ∈ session.live.map (Tunnel.rename key oldUeId newUeId)) :
      tunnel.teid ≠ 0 := by
    obtain ⟨old, oldLive, rfl⟩ := mem_map.mp member
    have positive := (sound.range old oldLive).1
    unfold Tunnel.rename
    split <;> exact ne_of_gt positive
  constructor
  · intro i below
    by_contra missing
    have nonempty : session.globGtp.bearersOf key oldUeId ≠ ∅ := by
      intro none
      rw [none] at below
      exact absurd below (Nat.not_lt_zero i)
    have zero : globGtp.teidAt (key, newUeId, i) = some 0 := by
      rw [there, if_neg (fun both => different nonempty both.2), if_pos ⟨rfl, rfl⟩,
        filled i (Nat.zero_le i) below (AList.lookup_eq_none.mpr missing)]
      rfl
    obtain ⟨tunnel, member, _, teid⟩ := consistent.bearers.exists_item zero
    exact positive tunnel member teid
  · by_contra nonempty
    obtain ⟨b, bearer, found⟩ := Table.exists_lookup nonempty
    obtain ⟨tunnel, member, place, _⟩ := sound.tunnel_of_bearer found
    simp only [Tunnel.place, Prod.mk.injEq] at place
    have renamed : newUeId ≠ oldUeId := by
      rintro rfl
      exact different nonempty rfl
    have unmoved : tunnel.rename key oldUeId newUeId = tunnel := by
      apply if_neg
      rintro ⟨_, old⟩
      exact renamed (place.2.1.symm.trans old)
    have listed := consistent.bearers.found (mem_map_of_mem member)
    rw [unmoved] at listed
    rw [Tunnel.place, place.1, place.2.1, place.2.2, there, if_neg (fun both => renamed both.2),
      if_pos ⟨rfl, rfl⟩] at listed
    obtain ⟨taken, lookup, teid⟩ := Option.map_eq_some_iff.mp listed
    cases before : (session.globGtp.bearersOf key oldUeId).lookup b with
    | none =>
      have zero := (sound.range tunnel member).1
      rw [← teid, empty b taken before lookup] at zero
      exact absurd zero (by decide)
    | some old =>
      obtain ⟨other, otherLive, otherPlace, otherTeid⟩ := sound.tunnel_of_bearer before
      rw [kept b old before] at lookup
      cases lookup
      rw [sound.eq_of_teid_eq otherLive member (otherTeid.trans teid)] at otherPlace
      simp only [Tunnel.place, Prod.mk.injEq] at otherPlace
      exact renamed (place.2.1.symm.trans otherPlace.2.1)

theorem deleteOneTunnel_breaks (sound : session.Sound)
    (illegal : ¬ (GtpOp.deleteOneTunnel instanceId ueId rbId).KeepsTables session.globGtp) :
    ¬ (session.deleted (session.globGtp.newGtpuDeleteOneTunnel instanceId ueId rbId).1
      (session.globGtp.instanceKey instanceId) ueId (fun id => id = toKey rbId)).Consistent := by
  intro consistent
  rcases session.globGtp.newGtpuDeleteOneTunnel_cases instanceId ueId rbId with
    ⟨missing, _⟩ | ⟨bearer, found, owners, _⟩
  · apply illegal
    intro bearer found
    cases missing.symm.trans found
  · obtain ⟨tunnel, member, place, teid⟩ := sound.tunnel_of_bearer found
    have large : ¬ bearer.teidIncoming < 2 ^ 31 := by
      intro small
      apply illegal
      intro other there
      cases found.symm.trans there
      exact small
    have different : tunnel.teid ≠ toKey (toInt bearer.teidIncoming) := by
      unfold toInt toKey
      omega
    have stays : (session.globGtp.newGtpuDeleteOneTunnel instanceId ueId rbId).1.te2ueMapping.lookup tunnel.teid =
        some tunnel.owner := by
      rw [owners, AList.lookup_erase_ne different]
      exact sound.owners.found member
    obtain ⟨other, otherMember, same, _⟩ := consistent.owners.exists_item stays
    obtain ⟨otherLive, kept⟩ := mem_filter.mp otherMember
    rw [sound.eq_of_teid_eq otherLive member same] at kept
    simp only [Tunnel.place, Prod.mk.injEq] at place
    simp [place] at kept

theorem deleteTunnels_breaks
    (illegal : ¬ (GtpOp.deleteTunnels instanceId ueId pdusessionIds).KeepsTables session.globGtp) :
    ¬ (session.deleted (session.globGtp.newGtpuDeleteTunnels instanceId ueId pdusessionIds).1
      (session.globGtp.instanceKey instanceId) ueId (fun id => id ∈ pdusessionIds.map BitVec.toNat)).Consistent := by
  intro consistent
  obtain ⟨_, bearers⟩ := session.globGtp.newGtpuDeleteTunnels_spec instanceId ueId pdusessionIds
  apply illegal
  intro id listed
  cases found : session.globGtp.bearerAt (session.globGtp.instanceKey instanceId) ueId id.toNat with
  | none => rfl
  | some bearer =>
    have stays : (session.globGtp.newGtpuDeleteTunnels instanceId ueId pdusessionIds).1.teidAt
        (session.globGtp.instanceKey instanceId, ueId, id.toNat) = some bearer.teidIncoming := by
      unfold teidAt bearerAt
      rw [bearers]
      exact congrArg (Option.map GtpBearer.teidIncoming) found
    obtain ⟨tunnel, member, place, _⟩ := consistent.bearers.exists_item stays
    obtain ⟨_, kept⟩ := mem_filter.mp member
    simp only [Tunnel.place, Prod.mk.injEq] at place
    simp [place, mem_map_of_mem listed] at kept

theorem step_breaks (sound : session.Sound) (illegal : ¬ op.KeepsTables session.globGtp)
    (taken : session.step op = some next) : ¬ next.Consistent := by
  cases op with
  | createTunnel instanceId request draws =>
    obtain ⟨result, created, rfl⟩ := Option.map_eq_some_iff.mp taken
    exact sound.createTunnel_breaks illegal created
  | updateUeId instanceId oldUeId newUeId =>
    obtain ⟨result, updated, rfl⟩ := Option.map_eq_some_iff.mp taken
    exact sound.updateUeId_breaks illegal updated
  | deleteOneTunnel instanceId ueId rbId =>
    cases taken
    exact sound.deleteOneTunnel_breaks illegal
  | deleteAllTunnels instanceId ueId | endMarker h msgBuf => exact absurd trivial illegal
  | deleteTunnels instanceId ueId pdusessionIds =>
    cases taken
    exact deleteTunnels_breaks illegal

end Session.Sound

variable (handles : List Nat) (legacyInstanceMapping : Int)

def startEndPoints : GtpEndPoints where
  instances := (handles.map (fun handle => (⟨handle, ∅⟩ : Sigma (fun _ : Nat => Table (Table GtpBearer))))).toAList
  te2ueMapping := ∅
  legacyInstanceMapping := legacyInstanceMapping

theorem bearersOf_start (key ueId : Nat) :
    (startEndPoints handles legacyInstanceMapping).bearersOf key ueId = ∅ := by
  unfold bearersOf startEndPoints
  rw [AList.lookup_to_alist]
  induction handles with
  | nil => rfl
  | cons handle rest ih =>
    by_cases same : key = handle
    · subst same
      rw [map_cons, dlookup_cons_eq]
      rfl
    · rw [map_cons, dlookup_cons_ne _ _ same]
      exact ih

theorem sound_start : Session.Sound { globGtp := startEndPoints handles legacyInstanceMapping } := by
  refine ⟨Lists.nil ?_, Lists.nil (fun _ => rfl), nodup_nil, by simp⟩
  intro place
  rw [teidAt, bearerAt, bearersOf_start]
  rfl

/-- The tables describe the tunnels created and not deleted in every state of a run, exactly if each
operation keeps them consistent. -/
theorem gtpu_tables_consistent_iff (handles : List Nat) (legacyInstanceMapping : Int) (ops : List GtpOp) :
    Along Session.step Session.Consistent { globGtp := startEndPoints handles legacyInstanceMapping } ops ↔
      Steps Session.step (fun session op => op.KeepsTables session.globGtp)
        { globGtp := startEndPoints handles legacyInstanceMapping } ops := by
  apply @along_iff_steps_of_invariant _ _ Session.step _ Session.Sound
  · intro session sound
    exact sound.consistent
  · intro session op next sound legal taken
    exact sound.step legal taken
  · intro session op next sound illegal taken
    exact sound.step_breaks illegal taken
  · exact sound_start handles legacyInstanceMapping

def firstBearer : TunnelRequest where
  ueId := 1
  incomingBearerId := 1
  outgoingBearerId := 1
  outgoingTeid := 100
  outgoingQfi := 9
  remoteAddr := ⟨32, [10#8, 0#8, 0#8, 1#8]⟩
  port := 2152
  callBack := some 1
  callBackSdap := some 2

/-- When a UE with only bearer 1 is renamed, it gets a bearer 0, with TEID 0 that belongs to UE 0
and has no callback. -/
theorem gtpu_rename_adds_bearer :
    ∃ session, run Session.step { globGtp := startEndPoints [5] 5 }
        [.createTunnel 5 firstBearer [(0, 0)], .updateUeId 5 1 2] = some session ∧
      session.globGtp.te2ueMapping.lookup 0 = some default ∧ ¬ session.Consistent := by
  have renamed : (run Session.step { globGtp := startEndPoints [5] 5 }
      [.createTunnel 5 firstBearer [(0, 0)], .updateUeId 5 1 2]).map (fun session =>
        (session.globGtp.bearerAt 5 2 0, session.globGtp.te2ueMapping.lookup 0)) =
      some (some default, some default) := by
    decide
  obtain ⟨session, reached, state⟩ := Option.map_eq_some_iff.mp renamed
  obtain ⟨bearer, owner⟩ := Prod.mk.injEq .. ▸ state
  refine ⟨session, reached, owner, fun consistent => ?_⟩
  obtain ⟨found, listed, ue, _⟩ := consistent.registered 5 2 0 default bearer
  rw [show (default : GtpBearer).teidIncoming = 0 from rfl, owner] at listed
  cases listed
  cases ue

end OranSlice.Gtpu
