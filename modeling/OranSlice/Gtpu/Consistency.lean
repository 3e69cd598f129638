import OranSlice.Core.Registry
import OranSlice.Core.Runs
import OranSlice.Gtpu.Tables

/-! The map of incoming TEIDs and the bearers of the UEs describe the same tunnels, exactly as long as
no operation overwrites a bearer or loses one of its entries. -/

namespace OranSlice.Gtpu

open BitCodec Registry GtpEndPoints List

structure Tunnel where
  (instanceKey ueId bearerId teid incomingRbId : Nat)
  callBack : Option Nat
  outgoingTeid : Nat
  callBackSdap : Option Nat
deriving DecidableEq, Repr

namespace Tunnel

def place (tunnel : Tunnel) : Nat × Nat × Nat := (tunnel.instanceKey, tunnel.ueId, tunnel.bearerId)

def owner (tunnel : Tunnel) : UeidData :=
  ⟨tunnel.ueId, tunnel.incomingRbId, tunnel.callBack, tunnel.outgoingTeid, tunnel.callBackSdap, tunnel.bearerId⟩

def ofRequest (key : Nat) (request : TunnelRequest) (teid : Nat) : Tunnel where
  instanceKey := key
  ueId := request.ueId
  bearerId := toKey request.outgoingBearerId
  teid := teid
  incomingRbId := (request.incomingBearerId % 2 ^ 8).toNat
  callBack := request.callBack
  outgoingTeid := request.outgoingTeid
  callBackSdap := request.callBackSdap

def rename (key oldUeId newUeId : Nat) (tunnel : Tunnel) : Tunnel :=
  if tunnel.instanceKey = key ∧ tunnel.ueId = oldUeId then { tunnel with ueId := newUeId } else tunnel

end Tunnel

inductive GtpOp where
  | createTunnel (instanceId : Int) (request : TunnelRequest) (draws : List Draw)
  | updateUeId (instanceId : Int) (oldUeId newUeId : Nat)
  | deleteOneTunnel (instanceId : Int) (ueId : Nat) (rbId : Int)
  | deleteAllTunnels (instanceId : Int) (ueId : Nat)
  | deleteTunnels (instanceId : Int) (ueId : Nat) (pdusessionIds : List Byte)
  | endMarker (h : Int) (msgBuf : List Byte)

/-- `live` holds the tunnels that have been created and not deleted. -/
structure Session where
  globGtp : GtpEndPoints
  live : List Tunnel := []

namespace Session

def created (session : Session) (key : Nat) (request : TunnelRequest) : GtpEndPoints × Int → Session
  | (globGtp, result) =>
    if result = gtpNok then { session with globGtp := globGtp }
    else
      { globGtp := globGtp
        live := session.live ++ [Tunnel.ofRequest key request result.toNat] }

def renamed (session : Session) (key oldUeId newUeId : Nat) : GtpEndPoints × Int → Session
  | (globGtp, result) =>
    if result = gtpNok then { session with globGtp := globGtp }
    else { globGtp := globGtp, live := session.live.map (Tunnel.rename key oldUeId newUeId) }

def deleted (session : Session) (globGtp : GtpEndPoints) (key ueId : Nat) (bearers : Nat → Bool) : Session where
  globGtp := globGtp
  live := session.live.filter (fun tunnel =>
    !(tunnel.instanceKey = key && tunnel.ueId = ueId && bearers tunnel.bearerId))

/-- The session after an operation, or `none` if the operation ends the program or does not return. -/
def step (session : Session) : GtpOp → Option Session
  | .createTunnel instanceId request draws =>
    (session.globGtp.newGtpuCreateTunnel instanceId request draws).map
      (session.created (session.globGtp.instanceKey instanceId) request)
  | .updateUeId instanceId oldUeId newUeId =>
    (session.globGtp.gtpv1uUpdateUeId instanceId oldUeId newUeId).map
      (session.renamed (session.globGtp.instanceKey instanceId) oldUeId newUeId)
  | .deleteOneTunnel instanceId ueId rbId =>
    some (session.deleted (session.globGtp.newGtpuDeleteOneTunnel instanceId ueId rbId).1
      (session.globGtp.instanceKey instanceId) ueId (fun id => id = toKey rbId))
  | .deleteAllTunnels instanceId ueId =>
    some (session.deleted (session.globGtp.newGtpuDeleteAllTunnels instanceId ueId).1
      (session.globGtp.instanceKey instanceId) ueId (fun _ => true))
  | .deleteTunnels instanceId ueId pdusessionIds =>
    some (session.deleted (session.globGtp.newGtpuDeleteTunnels instanceId ueId pdusessionIds).1
      (session.globGtp.instanceKey instanceId) ueId (fun id => id ∈ pdusessionIds.map BitVec.toNat))
  | .endMarker h msgBuf => (session.globGtp.gtpv1uHandleEndMarker h msgBuf).map (fun _ => session)

end Session

structure Session.Consistent (session : Session) : Prop where
  registered : ∀ key ueId bearerId bearer, session.globGtp.bearerAt key ueId bearerId = some bearer →
    ∃ owner, session.globGtp.te2ueMapping.lookup bearer.teidIncoming = some owner ∧
      owner.ueId = ueId ∧ owner.pdusessionId = bearerId
  owned : ∀ teid owner, session.globGtp.te2ueMapping.lookup teid = some owner →
    ∃ key bearer, session.globGtp.bearerAt key owner.ueId owner.pdusessionId = some bearer ∧
      bearer.teidIncoming = teid
  bearers : Lists Tunnel.place Tunnel.teid session.live session.globGtp.teidAt
  owners : Lists Tunnel.teid Tunnel.owner session.live session.globGtp.te2ueMapping.lookup

/-- The operation keeps the tables consistent: a new tunnel is for a new bearer with an id of 8 bits, a
renamed UE has contiguous bearers and replaces no other UE's, a TEID deleted alone is a positive `int`,
and tunnels deleted by a list do not exist. -/
def GtpOp.KeepsTables (globGtp : GtpEndPoints) : GtpOp → Prop
  | .createTunnel instanceId request _ =>
    globGtp.instanceKey instanceId ∈ globGtp.instances → toKey request.outgoingBearerId < 2 ^ 8 ∧
      globGtp.bearerAt (globGtp.instanceKey instanceId) request.ueId (toKey request.outgoingBearerId) = none
  | .updateUeId instanceId oldUeId newUeId =>
    globGtp.hasUe (globGtp.instanceKey instanceId) oldUeId = true →
      Contiguous (globGtp.bearersOf (globGtp.instanceKey instanceId) oldUeId) ∧
      globGtp.bearersOf (globGtp.instanceKey instanceId) newUeId = ∅
  | .deleteOneTunnel instanceId ueId rbId =>
    ∀ bearer ∈ globGtp.bearerAt (globGtp.instanceKey instanceId) ueId (toKey rbId), bearer.teidIncoming < 2 ^ 31
  | .deleteAllTunnels _ _ => True
  | .deleteTunnels instanceId ueId pdusessionIds =>
    ∀ id ∈ pdusessionIds, globGtp.bearerAt (globGtp.instanceKey instanceId) ueId id.toNat = none
  | .endMarker _ _ => True

theorem GtpEndPoints.owner_eq (key teid : Nat) {request : TunnelRequest}
    (small : toKey request.outgoingBearerId < 2 ^ 8) :
    owner request = (Tunnel.ofRequest key request teid).owner := by
  have same : (request.outgoingBearerId % 2 ^ 8).toNat = toKey request.outgoingBearerId := by
    unfold toKey at *
    omega
  unfold owner Tunnel.owner Tunnel.ofRequest
  rw [same]

theorem Session.created_teid (session : Session) (key : Nat) (request : TunnelRequest) (globGtp : GtpEndPoints)
    (teid : Nat) :
    session.created key request (globGtp, (teid : Int)) =
      { globGtp := globGtp, live := session.live ++ [Tunnel.ofRequest key request teid] } := by
  unfold Session.created
  dsimp only
  rw [if_neg (show (teid : Int) ≠ gtpNok by unfold gtpNok; omega), Int.toNat_natCast]

variable {session next : Session} {op : GtpOp}

structure Session.Sound (session : Session) : Prop where
  bearers : Lists Tunnel.place Tunnel.teid session.live session.globGtp.teidAt
  owners : Lists Tunnel.teid Tunnel.owner session.live session.globGtp.te2ueMapping.lookup
  distinct : (session.live.map Tunnel.teid).Nodup
  range : ∀ tunnel ∈ session.live, 1 ≤ tunnel.teid ∧ tunnel.teid < 2 ^ 32

namespace Session.Sound

section

variable (sound : session.Sound)

include sound

variable {first second tunnel : Tunnel} {key ueId bearerId oldUeId newUeId : Nat} {bearer : GtpBearer}
  {globGtp : GtpEndPoints} {instanceId rbId : Int} {request : TunnelRequest} {draws : List Draw}
  {result : GtpEndPoints × Int} {ids : Nat → Bool} {pdusessionIds : List Byte}

theorem eq_of_teid_eq (firstLive : first ∈ session.live)
    (secondLive : second ∈ session.live) (same : first.teid = second.teid) : first = second :=
  inj_on_of_nodup_map sound.distinct firstLive secondLive same

theorem tunnel_of_bearer (found : session.globGtp.bearerAt key ueId bearerId = some bearer) :
    ∃ tunnel ∈ session.live, tunnel.place = (key, ueId, bearerId) ∧ tunnel.teid = bearer.teidIncoming := by
  apply sound.bearers.exists_item
  rw [teidAt, found]
  rfl

theorem bearer_of_tunnel (member : tunnel ∈ session.live) :
    ∃ bearer, session.globGtp.bearerAt tunnel.instanceKey tunnel.ueId tunnel.bearerId = some bearer ∧
      bearer.teidIncoming = tunnel.teid :=
  Option.map_eq_some_iff.mp (sound.bearers.found member)

theorem consistent : session.Consistent where
  registered key ueId bearerId bearer found := by
    obtain ⟨tunnel, member, place, teid⟩ := sound.tunnel_of_bearer found
    cases place
    exact ⟨tunnel.owner, teid ▸ sound.owners.found member, rfl, rfl⟩
  owned teid owner found := by
    obtain ⟨tunnel, member, rfl, rfl⟩ := sound.owners.exists_item found
    exact ⟨tunnel.instanceKey, sound.bearer_of_tunnel member⟩
  bearers := sound.bearers
  owners := sound.owners

theorem congr (bearers : ∀ k u, globGtp.bearersOf k u = session.globGtp.bearersOf k u)
    (owners : ∀ teid, globGtp.te2ueMapping.lookup teid = session.globGtp.te2ueMapping.lookup teid) :
    Session.Sound { session with globGtp := globGtp } := by
  refine ⟨?_, ?_, sound.distinct, sound.range⟩
  · have same : globGtp.teidAt = session.globGtp.teidAt := by
      funext place
      rw [teidAt, bearerAt, bearers]
      rfl
    rw [same]
    exact sound.bearers
  · rw [funext owners]
    exact sound.owners

theorem createTunnel (legal : (GtpOp.createTunnel instanceId request draws).KeepsTables session.globGtp)
    (created : session.globGtp.newGtpuCreateTunnel instanceId request draws = some result) :
    (session.created (session.globGtp.instanceKey instanceId) request result).Sound := by
  obtain ⟨globGtp, result⟩ := result
  rcases newGtpuCreateTunnel_cases created with
    ⟨_, rfl, rfl⟩ | ⟨teid, bearer, kept, known, drawn, rfl, hasTeid, owners, bearers, others⟩
  · exact sound
  obtain ⟨small, free⟩ := legal known
  obtain ⟨unowned, positive, bounded⟩ := freshTeid_spec drawn
  have same := others (AList.lookup_eq_none.mp free)
  rw [Session.created_teid]
  generalize session.globGtp.instanceKey instanceId = key at *
  refine ⟨?_, ?_, ?_, ?_⟩
  · apply sound.bearers.add
    · exact congrArg (Option.map GtpBearer.teidIncoming) free
    · rintro ⟨k, u, b⟩
      rw [teidAt_of_bearersOf bearers, same]
      simp only [Tunnel.place, Tunnel.ofRequest, Prod.mk.injEq]
      by_cases here : k = key ∧ u = request.ueId
      · obtain ⟨rfl, rfl⟩ := here
        by_cases new : b = toKey request.outgoingBearerId
        · rw [new, AList.lookup_insert, Option.map_some, hasTeid]
          simp
        · simp [new, teidAt, bearerAt]
      · rw [if_neg here, if_neg (fun all => here ⟨all.1, all.2.1⟩)]
  · apply sound.owners.add unowned
    intro other
    rw [owners]
    split_ifs with new
    · rw [new]
      change AList.lookup teid _ = _
      rw [AList.lookup_insert, owner_eq key teid small]
    · exact AList.lookup_insert_ne new
  · rw [map_append]
    refine List.Nodup.append sound.distinct (nodup_singleton _) ?_
    intro other old new
    obtain ⟨tunnel, member, rfl⟩ := mem_map.mp old
    have taken := sound.owners.found member
    rw [mem_singleton.mp new] at taken
    exact absurd (unowned.symm.trans taken) (by simp)
  · exact forall_mem_append.mpr ⟨sound.range, forall_mem_singleton.mpr ⟨positive, bounded⟩⟩

theorem deleted (bearers : ∀ place, globGtp.teidAt place =
      if place.1 = key ∧ place.2.1 = ueId ∧ ids place.2.2 = true then none else session.globGtp.teidAt place)
    (gone : ∀ b teid, ids b = true → session.globGtp.teidAt (key, ueId, b) = some teid →
      globGtp.te2ueMapping.lookup teid = none)
    (stays : ∀ teid, (∀ b, ids b = true → session.globGtp.teidAt (key, ueId, b) ≠ some teid) →
      globGtp.te2ueMapping.lookup teid = session.globGtp.te2ueMapping.lookup teid) :
    (session.deleted globGtp key ueId ids).Sound := by
  have kept (tunnel : Tunnel) : (!(tunnel.instanceKey = key && tunnel.ueId = ueId && ids tunnel.bearerId)) = true ↔
      ¬ (tunnel.instanceKey = key ∧ tunnel.ueId = ueId ∧ ids tunnel.bearerId = true) := by
    rw [Bool.not_eq_true']
    simp
  refine ⟨?_, ?_, ?_, ?_⟩
  · exact sound.bearers.filter (fun tunnel _ => kept tunnel) bearers
  · apply Lists.intro
    · intro tunnel member
      obtain ⟨old, stayed⟩ := mem_filter.mp member
      change globGtp.te2ueMapping.lookup _ = _
      rw [stays, sound.owners.found old]
      intro b listed same
      obtain ⟨other, otherLive, place, teid⟩ := sound.bearers.exists_item same
      have equal := sound.eq_of_teid_eq otherLive old teid
      subst equal
      cases place
      exact (kept other).mp stayed ⟨rfl, rfl, listed⟩
    · intro teid owner there
      change globGtp.te2ueMapping.lookup teid = some owner at there
      by_cases deleted : ∃ b, ids b = true ∧ session.globGtp.teidAt (key, ueId, b) = some teid
      · obtain ⟨b, listed, same⟩ := deleted
        rw [gone b teid listed same] at there
        cases there
      have away : ∀ b, ids b = true → session.globGtp.teidAt (key, ueId, b) ≠ some teid :=
        fun b listed same => deleted ⟨b, listed, same⟩
      rw [stays teid away] at there
      obtain ⟨tunnel, member, rfl, _⟩ := sound.owners.exists_item there
      refine ⟨tunnel, mem_filter.mpr ⟨member, (kept tunnel).mpr ?_⟩, rfl⟩
      rintro ⟨rfl, rfl, listed⟩
      exact away _ listed (sound.bearers.found member)
  · exact sound.distinct.sublist (filter_sublist.map _)
  · intro tunnel member
    exact sound.range tunnel (mem_of_mem_filter member)

theorem deleted_none (none : ∀ b, ids b = true → session.globGtp.bearerAt key ueId b = none)
    (bearers : ∀ k u, globGtp.bearersOf k u = session.globGtp.bearersOf k u)
    (owners : ∀ teid, globGtp.te2ueMapping.lookup teid = session.globGtp.te2ueMapping.lookup teid) :
    (session.deleted globGtp key ueId ids).Sound := by
  have nowhere (b : Nat) (listed : ids b = true) : session.globGtp.teidAt (key, ueId, b) = Option.none :=
    congrArg (Option.map GtpBearer.teidIncoming) (none b listed)
  apply sound.deleted
  · rintro ⟨k, u, b⟩
    have same : globGtp.teidAt (k, u, b) = session.globGtp.teidAt (k, u, b) := by
      rw [teidAt, bearerAt, bearers]
      rfl
    rw [same]
    split_ifs with here
    · obtain ⟨rfl, rfl, listed⟩ := here
      exact nowhere b listed
    · rfl
  · intro b teid listed there
    rw [nowhere b listed] at there
    cases there
  · intro teid _
    exact owners teid

theorem deleteOneTunnel (legal : (GtpOp.deleteOneTunnel instanceId ueId rbId).KeepsTables session.globGtp) :
    (session.deleted (session.globGtp.newGtpuDeleteOneTunnel instanceId ueId rbId).1
      (session.globGtp.instanceKey instanceId) ueId (fun id => id = toKey rbId)).Sound := by
  rcases session.globGtp.newGtpuDeleteOneTunnel_cases instanceId ueId rbId with
    ⟨missing, same⟩ | ⟨bearer, found, owners, bearers⟩
  · rw [same]
    apply sound.deleted_none
    · intro b listed
      rw [of_decide_eq_true listed]
      exact missing
    · exact fun _ _ => rfl
    · exact fun _ => rfl
  · have small : bearer.teidIncoming < 2 ^ 31 := legal bearer found
    have key : toKey (toInt bearer.teidIncoming) = bearer.teidIncoming := by
      unfold toInt toKey
      omega
    have here : session.globGtp.teidAt (session.globGtp.instanceKey instanceId, ueId, toKey rbId) =
        some bearer.teidIncoming := congrArg (Option.map GtpBearer.teidIncoming) found
    rw [key] at owners
    apply sound.deleted
    · rintro ⟨k, u, b⟩
      rw [teidAt_of_bearersOf bearers]
      by_cases place : k = session.globGtp.instanceKey instanceId ∧ u = ueId
      · obtain ⟨rfl, rfl⟩ := place
        by_cases same : b = toKey rbId
        · rw [same]
          simp
        · simp [same, teidAt, bearerAt]
      · rw [if_neg place, if_neg (fun all => place ⟨all.1, all.2.1⟩)]
    · intro b teid listed there
      rw [of_decide_eq_true listed, here] at there
      cases there
      rw [owners, AList.lookup_erase]
    · intro teid away
      have different : teid ≠ bearer.teidIncoming := by
        rintro rfl
        exact away _ (decide_eq_true rfl) here
      rw [owners, AList.lookup_erase_ne different]

theorem deleteAllTunnels (instanceId : Int) (ueId : Nat) :
    (session.deleted (session.globGtp.newGtpuDeleteAllTunnels instanceId ueId).1
      (session.globGtp.instanceKey instanceId) ueId (fun _ => true)).Sound := by
  obtain ⟨owners, bearers⟩ := session.globGtp.newGtpuDeleteAllTunnels_spec instanceId ueId
  generalize session.globGtp.instanceKey instanceId = key at *
  have listed (teid : Nat) : teid ∈ (session.globGtp.bearersOf key ueId).entries.map
      (fun entry => entry.2.teidIncoming) ↔ ∃ b, session.globGtp.teidAt (key, ueId, b) = some teid := by
    rw [mem_map]
    constructor
    · rintro ⟨⟨b, bearer⟩, member, rfl⟩
      have found : session.globGtp.bearerAt key ueId b = some bearer := AList.mem_lookup_iff.mpr member
      exact ⟨b, congrArg (Option.map GtpBearer.teidIncoming) found⟩
    · rintro ⟨b, there⟩
      obtain ⟨bearer, found, rfl⟩ := Option.map_eq_some_iff.mp there
      exact ⟨⟨b, bearer⟩, AList.mem_lookup_iff.mp found, rfl⟩
  apply sound.deleted
  · rintro ⟨k, u, b⟩
    rw [teidAt_of_bearersOf bearers]
    simp
  · intro b teid _ there
    rw [owners, if_pos ((listed teid).mpr ⟨b, there⟩)]
  · intro teid away
    rw [owners, if_neg]
    intro member
    obtain ⟨b, there⟩ := (listed teid).mp member
    exact away b rfl there

theorem deleteTunnels
    (legal : (GtpOp.deleteTunnels instanceId ueId pdusessionIds).KeepsTables session.globGtp) :
    (session.deleted (session.globGtp.newGtpuDeleteTunnels instanceId ueId pdusessionIds).1
      (session.globGtp.instanceKey instanceId) ueId (fun id => id ∈ pdusessionIds.map BitVec.toNat)).Sound := by
  obtain ⟨owners, bearers⟩ := session.globGtp.newGtpuDeleteTunnels_spec instanceId ueId pdusessionIds
  apply sound.deleted_none
  · intro b listed
    obtain ⟨id, member, rfl⟩ := mem_map.mp (of_decide_eq_true listed)
    exact legal id member
  · exact bearers
  · intro teid
    apply owners teid
    intro id member bearer found
    rw [legal id member] at found
    cases found

theorem teidFrom_iff (contiguous : Contiguous (session.globGtp.bearersOf key ueId)) (teid : Nat) :
    GtpEndPoints.TeidFrom (session.globGtp.bearersOf key ueId) 0 teid ↔
      ∃ tunnel ∈ session.live, (tunnel.instanceKey = key ∧ tunnel.ueId = ueId) ∧ tunnel.teid = teid := by
  constructor
  · rintro ⟨b, bearer, _, _, found, rfl⟩
    obtain ⟨tunnel, member, place, teid⟩ := sound.tunnel_of_bearer found
    cases place
    exact ⟨tunnel, member, ⟨rfl, rfl⟩, teid⟩
  · rintro ⟨tunnel, member, ⟨rfl, rfl⟩, rfl⟩
    obtain ⟨bearer, found, teid⟩ := sound.bearer_of_tunnel member
    refine ⟨tunnel.bearerId, bearer, Nat.zero_le _, contiguous.lt_length ?_, found, teid⟩
    exact AList.lookup_isSome.mp (by rw [bearerAt] at found; rw [found]; rfl)

theorem renamed (contiguous : Contiguous (session.globGtp.bearersOf key oldUeId))
    (free : session.globGtp.bearersOf key newUeId = ∅) (bearers : ∀ k u b, globGtp.teidAt (k, u, b) =
      if k = key ∧ u = oldUeId then none
      else if k = key ∧ u = newUeId then session.globGtp.teidAt (key, oldUeId, b)
      else session.globGtp.teidAt (k, u, b))
    (renamed : ∀ teid, GtpEndPoints.TeidFrom (session.globGtp.bearersOf key oldUeId) 0 teid →
      globGtp.te2ueMapping.lookup teid =
        (session.globGtp.te2ueMapping.lookup teid).map (retitle oldUeId newUeId))
    (kept : ∀ teid, ¬ GtpEndPoints.TeidFrom (session.globGtp.bearersOf key oldUeId) 0 teid →
      globGtp.te2ueMapping.lookup teid = session.globGtp.te2ueMapping.lookup teid) :
    Session.Sound { globGtp := globGtp, live := session.live.map (Tunnel.rename key oldUeId newUeId) } := by
  have notNew (tunnel : Tunnel) (member : tunnel ∈ session.live) :
      ¬ (tunnel.instanceKey = key ∧ tunnel.ueId = newUeId) := by
    rintro ⟨rfl, rfl⟩
    obtain ⟨bearer, found, _⟩ := sound.bearer_of_tunnel member
    rw [bearerAt, free] at found
    cases found
  have sameTeid (tunnel : Tunnel) : (tunnel.rename key oldUeId newUeId).teid = tunnel.teid := by
    unfold Tunnel.rename
    split <;> rfl
  refine ⟨?_, ?_, ?_, ?_⟩
  · apply Lists.map
    · intro tunnel member
      have there : session.globGtp.teidAt (tunnel.instanceKey, tunnel.ueId, tunnel.bearerId) = some tunnel.teid :=
        sound.bearers.found member
      rw [Tunnel.place, bearers]
      by_cases moved : tunnel.instanceKey = key ∧ tunnel.ueId = oldUeId
      · have different : newUeId ≠ oldUeId := by
          rintro rfl
          exact notNew tunnel member moved
        simp only [Tunnel.rename, moved, and_self, if_true, different]
        rw [← moved.1, ← moved.2]
        exact there
      · have unmoved : tunnel.rename key oldUeId newUeId = tunnel := if_neg moved
        rw [unmoved, if_neg moved, if_neg (notNew tunnel member)]
        exact there
    · rintro ⟨k, u, b⟩ teid there
      rw [bearers] at there
      split at there
      · cases there
      rename_i notOld
      split_ifs at there with new
      · obtain ⟨tunnel, member, place, _⟩ := sound.bearers.exists_item there
        cases place
        refine ⟨tunnel, member, ?_⟩
        rw [new.1, new.2, Tunnel.rename, if_pos ⟨rfl, rfl⟩]
        rfl
      · obtain ⟨tunnel, member, place, _⟩ := sound.bearers.exists_item there
        cases place
        refine ⟨tunnel, member, ?_⟩
        rw [Tunnel.rename, if_neg notOld]
        rfl
  · apply Lists.map
    · intro tunnel member
      rw [sameTeid]
      by_cases moved : tunnel.instanceKey = key ∧ tunnel.ueId = oldUeId
      · rw [renamed _ ((sound.teidFrom_iff contiguous _).mpr ⟨tunnel, member, moved, rfl⟩),
          sound.owners.found member, Option.map_some, Tunnel.rename, if_pos moved, retitle,
          if_pos (show tunnel.owner.ueId = oldUeId from moved.2)]
        rfl
      · rw [kept, sound.owners.found member, Tunnel.rename, if_neg moved]
        intro listed
        obtain ⟨other, otherLive, otherMoved, same⟩ := (sound.teidFrom_iff contiguous _).mp listed
        rw [sound.eq_of_teid_eq otherLive member same] at otherMoved
        exact moved otherMoved
    · intro teid owner there
      have known : ∃ owner, session.globGtp.te2ueMapping.lookup teid = some owner := by
        by_cases listed : GtpEndPoints.TeidFrom (session.globGtp.bearersOf key oldUeId) 0 teid
        · rw [renamed teid listed] at there
          obtain ⟨before, found, _⟩ := Option.map_eq_some_iff.mp there
          exact ⟨before, found⟩
        · rw [kept teid listed] at there
          exact ⟨owner, there⟩
      obtain ⟨before, found⟩ := known
      obtain ⟨tunnel, member, rfl, _⟩ := sound.owners.exists_item found
      exact ⟨tunnel, member, sameTeid tunnel⟩
  · have teids : (session.live.map (Tunnel.rename key oldUeId newUeId)).map Tunnel.teid =
        session.live.map Tunnel.teid := by
      rw [map_map]
      exact map_congr_left (fun tunnel _ => sameTeid tunnel)
    rw [teids]
    exact sound.distinct
  · intro tunnel member
    obtain ⟨old, oldLive, rfl⟩ := mem_map.mp member
    rw [sameTeid]
    exact sound.range old oldLive

theorem updateUeId (legal : (GtpOp.updateUeId instanceId oldUeId newUeId).KeepsTables session.globGtp)
    (updated : session.globGtp.gtpv1uUpdateUeId instanceId oldUeId newUeId = some result) :
    (session.renamed (session.globGtp.instanceKey instanceId) oldUeId newUeId result).Sound := by
  obtain ⟨globGtp, result⟩ := result
  rcases gtpv1uUpdateUeId_cases updated with
    ⟨_, rfl, owners, bearers⟩ | ⟨bearers', te2ue', known, rfl, ended, rfl, bearers⟩
  · exact sound.congr bearers (fun teid => by rw [owners])
  obtain ⟨contiguous, free⟩ := legal known
  obtain ⟨rfl, renamed, kept⟩ := updateLoop_owners ended (by
    intro b _ below
    have member := AList.lookup_isSome.mpr (contiguous b below)
    obtain ⟨bearer, found⟩ := Option.isSome_iff_exists.mp member
    obtain ⟨tunnel, live, _, teid⟩ := sound.tunnel_of_bearer found
    exact ⟨bearer, tunnel.owner, found, teid ▸ sound.owners.found live⟩)
  refine sound.renamed contiguous free ?_ renamed kept
  intro k u b
  unfold teidAt bearerAt
  rw [bearers]
  split
  · rfl
  · split <;> rfl

theorem step (legal : op.KeepsTables session.globGtp) (taken : session.step op = some next) : next.Sound := by
  cases op with
  | createTunnel instanceId request draws =>
    obtain ⟨result, created, rfl⟩ := Option.map_eq_some_iff.mp taken
    exact sound.createTunnel legal created
  | updateUeId instanceId oldUeId newUeId =>
    obtain ⟨result, updated, rfl⟩ := Option.map_eq_some_iff.mp taken
    exact sound.updateUeId legal updated
  | deleteOneTunnel instanceId ueId rbId =>
    cases taken
    exact sound.deleteOneTunnel legal
  | deleteAllTunnels instanceId ueId =>
    cases taken
    exact sound.deleteAllTunnels instanceId ueId
  | deleteTunnels instanceId ueId pdusessionIds =>
    cases taken
    exact sound.deleteTunnels legal
  | endMarker h msgBuf =>
    obtain ⟨_, _, rfl⟩ := Option.map_eq_some_iff.mp taken
    exact sound

end

end Session.Sound

end OranSlice.Gtpu
