import Mathlib.Data.List.AList
import OranSlice.Core.BitCodec

/-! The GTP-U tunnels of all instances: the bearers of each UE and the map from incoming TEIDs. Keys are
64-bit unsigned; an integer argument is converted. -/

namespace OranSlice.Gtpu

open BitCodec

abbrev Table (α : Type) := AList (fun _ : Nat => α)

/-- The `operator[]` of a map, which inserts a missing key. -/
def Table.access {α : Type} [Inhabited α] (table : Table α) (key : Nat) : Table α × α :=
  match table.lookup key with
  | some found => (table, found)
  | none => (table.insert key default, default)

/-- The value `GTPNOK`; success is its negation, 0. -/
def gtpNok : Int := -1

def toKey (value : Int) : Nat := (value % 2 ^ 64).toNat

def toInt (teid : Nat) : Int := if teid < 2 ^ 31 then teid else teid - 2 ^ 32

def byteAt (msgBuf : List Byte) (i : Nat) : Nat := (msgBuf.getD i 0).toNat

structure MsgHeader where
  (pn s e : Bool)
  (pt version msgType msgLength teid : Nat)
deriving DecidableEq, Repr

def headerOf (msgBuf : List Byte) : MsgHeader where
  pn := byteAt msgBuf 0 % 2 == 1
  s := byteAt msgBuf 0 / 2 % 2 == 1
  e := byteAt msgBuf 0 / 4 % 2 == 1
  pt := byteAt msgBuf 0 / 16 % 2
  version := byteAt msgBuf 0 / 32
  msgType := byteAt msgBuf 1
  msgLength := byteAt msgBuf 2 * 256 + byteAt msgBuf 3
  teid := ((byteAt msgBuf 4 * 256 + byteAt msgBuf 5) * 256 + byteAt msgBuf 6) * 256 + byteAt msgBuf 7

structure TransportLayerAddr where
  length : Nat
  buffer : List Byte
deriving DecidableEq, Repr

structure GtpBearer where
  (teidIncoming teidOutgoing : Nat)
  (outgoingIpAddr outgoingIp6Addr : List Byte)
  (outgoingPort outgoingQfi : Int)
deriving DecidableEq, Repr

instance : Inhabited GtpBearer := ⟨⟨0, 0, List.replicate 4 0, List.replicate 16 0, 0, 0⟩⟩

/-- The owner of an incoming TEID; a callback is named by a number, or null. -/
structure UeidData where
  (ueId incomingRbId : Nat)
  callBack : Option Nat
  outgoingTeid : Nat
  callBackSdap : Option Nat
  pdusessionId : Nat
deriving DecidableEq, Repr

instance : Inhabited UeidData := ⟨⟨0, 0, none, 0, none, 0⟩⟩

structure GtpEndPoints where
  instances : Table (Table (Table GtpBearer))
  te2ueMapping : Table UeidData
  legacyInstanceMapping : Int

/-- The two values of `random()` that a new TEID is made of. -/
abbrev Draw := Fin (2 ^ 31) × Fin (2 ^ 31)

def randMax : Nat := 2 ^ 31 - 1

def gtpv1uNewTeid (draw : Draw) : Nat := (draw.1.val + draw.2.val % (randMax - 1) + 1) % 2 ^ 32

structure TunnelRequest where
  ueId : Nat
  (incomingBearerId outgoingBearerId : Int)
  outgoingTeid : Nat
  outgoingQfi : Int
  remoteAddr : TransportLayerAddr
  port : Int
  (callBack callBackSdap : Option Nat)
deriving DecidableEq, Repr

namespace GtpEndPoints

def instanceDefault : Int := 2 ^ 16 - 1 - 1

variable (globGtp : GtpEndPoints) (instanceId : Int) (ue2te : Table (Table GtpBearer))
  (request : TunnelRequest) (ueId : Nat) (draws : List Draw)

def compatInst : Int :=
  if instanceId = 0 ∨ instanceId = instanceDefault then globGtp.legacyInstanceMapping else instanceId

def instanceKey : Nat := toKey (globGtp.compatInst instanceId)

def setUe2te (key : Nat) (ue2te : Table (Table GtpBearer)) : GtpEndPoints :=
  { globGtp with instances := globGtp.instances.insert key ue2te }

/-- The remote address of a bearer. Only addresses of 4 or 16 bytes are accepted: the case of both falls
through to the assertion. -/
def setAddress (bearer : GtpBearer) (remoteAddr : TransportLayerAddr) : Option GtpBearer :=
  if remoteAddr.length / 8 = 4 then some { bearer with outgoingIpAddr := remoteAddr.buffer.take 4 }
  else if remoteAddr.length / 8 = 16 then some { bearer with outgoingIp6Addr := remoteAddr.buffer.take 16 }
  else none

/-- The bearers of a UE when a tunnel is created: a UE that has the bearer already is erased. -/
def eraseExisting (bearerId : Nat) : Table (Table GtpBearer) :=
  match ue2te.lookup ueId with
  | none => ue2te
  | some bearers => if bearerId ∈ bearers then ue2te.erase ueId else ue2te

def freshTeid : Option Nat :=
  (draws.map gtpv1uNewTeid).find? (fun teid => teid ∉ globGtp.te2ueMapping)

def owner : UeidData where
  ueId := request.ueId
  incomingRbId := (request.incomingBearerId % 2 ^ 8).toNat
  callBack := request.callBack
  outgoingTeid := request.outgoingTeid
  callBackSdap := request.callBackSdap
  pdusessionId := (request.outgoingBearerId % 2 ^ 8).toNat

/-- A new tunnel and its incoming TEID, or `none` if the program ends or still draws TEIDs. -/
def newGtpuCreateTunnel : Option (GtpEndPoints × Int) :=
  let key := globGtp.instanceKey (globGtp.compatInst instanceId)
  match globGtp.instances.lookup key with
  | none => some (globGtp, gtpNok)
  | some ue2te =>
    let bearerId := toKey request.outgoingBearerId
    let ue2te := eraseExisting ue2te request.ueId bearerId
    (globGtp.freshTeid draws).bind (fun incomingTeid =>
      let te2ue := globGtp.te2ueMapping.insert incomingTeid (owner request)
      let bearers := (Table.access ue2te request.ueId).2
      let tmp := (Table.access bearers bearerId).2
      (setAddress tmp request.remoteAddr).map (fun tmp =>
        let tmp := { tmp with
          teidIncoming := incomingTeid
          outgoingPort := request.port
          teidOutgoing := request.outgoingTeid
          outgoingQfi := request.outgoingQfi }
        let ue2te := ue2te.insert request.ueId (bearers.insert bearerId tmp)
        ({ globGtp.setUe2te key ue2te with te2ueMapping := te2ue }, (incomingTeid : Int))))

/-- The loop of `gtpv1u_update_ue_id` from bearer `i` on. It counts to the number of bearers, but uses
`i` as a bearer id, and adds the missing ones. The counter has 32 bits: `none` is a loop without end. -/
def updateLoop (oldUeId newUeId : Nat) : Nat → Nat → Table GtpBearer → Table UeidData →
    Option (Table GtpBearer × Table UeidData)
  | 0, _, _, _ => none
  | fuel + 1, i, bearers, te2ue =>
    if i < bearers.keys.length then
      let (bearers, bearer) := Table.access bearers i
      let (te2ue, entry) := Table.access te2ue bearer.teidIncoming
      let te2ue :=
        if entry.ueId = oldUeId then te2ue.insert bearer.teidIncoming { entry with ueId := newUeId }
        else te2ue
      updateLoop oldUeId newUeId fuel (i + 1) bearers te2ue
    else some (bearers, te2ue)

def gtpv1uUpdateUeId (oldUeId newUeId : Nat) :
    Option (GtpEndPoints × Int) :=
  let key := globGtp.instanceKey instanceId
  let (instances, ue2te) := Table.access globGtp.instances key
  let globGtp := { globGtp with instances := instances }
  match ue2te.lookup oldUeId with
  | none => some (globGtp, gtpNok)
  | some bearers =>
    (updateLoop oldUeId newUeId (2 ^ 32) 0 bearers globGtp.te2ueMapping).map (fun (bearers, te2ue) =>
      let ue2te := (ue2te.insert newUeId bearers).erase oldUeId
      ({ globGtp.setUe2te key ue2te with te2ueMapping := te2ue }, 0))

def newGtpuDeleteOneTunnel (rbId : Int) :
    GtpEndPoints × Int :=
  let key := globGtp.instanceKey (globGtp.compatInst instanceId)
  match globGtp.instances.lookup key with
  | none => (globGtp, gtpNok)
  | some ue2te =>
    match ue2te.lookup ueId with
    | none => (globGtp, 0)
    | some bearers =>
      match bearers.lookup (toKey rbId) with
      | none => (globGtp, 0)
      | some bearer =>
        -- the TEID goes through an `int` and is extended by its sign
        let te2ue := globGtp.te2ueMapping.erase (toKey (toInt bearer.teidIncoming))
        let ue2te := ue2te.insert ueId (bearers.erase (toKey rbId))
        ({ globGtp.setUe2te key ue2te with te2ueMapping := te2ue }, 0)

def eraseTeids (te2ue : Table UeidData) (bearers : List GtpBearer) : Table UeidData :=
  bearers.foldl (fun te2ue bearer => te2ue.erase bearer.teidIncoming) te2ue

def newGtpuDeleteAllTunnels : GtpEndPoints × Int :=
  let key := globGtp.instanceKey (globGtp.compatInst instanceId)
  match globGtp.instances.lookup key with
  | none => (globGtp, gtpNok)
  | some ue2te =>
    match ue2te.lookup ueId with
    | none => (globGtp, gtpNok)
    | some bearers =>
      let te2ue := eraseTeids globGtp.te2ueMapping (bearers.entries.map (fun entry => entry.2))
      ({ globGtp.setUe2te key (ue2te.erase ueId) with te2ueMapping := te2ue }, 0)

/-- The TEIDs of the given bearers are no longer known; the bearers stay. -/
def newGtpuDeleteTunnels
    (pdusessionIds : List Byte) : GtpEndPoints × Int :=
  let key := globGtp.instanceKey (globGtp.compatInst instanceId)
  match globGtp.instances.lookup key with
  | none => (globGtp, gtpNok)
  | some ue2te =>
    match ue2te.lookup ueId with
    | none => (globGtp, gtpNok)
    | some bearers =>
      let found := pdusessionIds.filterMap (fun id => bearers.lookup id.toNat)
      let te2ue := eraseTeids globGtp.te2ueMapping found
      let ue2te := if bearers.keys.length = 0 then ue2te.erase ueId else ue2te
      ({ globGtp.setUe2te key ue2te with te2ueMapping := te2ue }, 0)

structure Notice where
  (callBack ueId rbId : Nat)
deriving DecidableEq, Repr

/-- The callback of the tunnel is told about an end marker; a null callback ends the program. -/
def gtpv1uHandleEndMarker (h : Int) (msgBuf : List Byte) :
    Option (Option Notice × Int) :=
  if (headerOf msgBuf).version ≠ 1 ∨ (headerOf msgBuf).pt ≠ 1 then some (none, gtpNok)
  else if globGtp.instanceKey h ∉ globGtp.instances then some (none, gtpNok)
  else
    match globGtp.te2ueMapping.lookup (headerOf msgBuf).teid with
    | none => some (none, gtpNok)
    | some tunnel =>
      tunnel.callBack.map (fun callBack => (some ⟨callBack, tunnel.ueId, tunnel.incomingRbId⟩, 0))

end GtpEndPoints

end OranSlice.Gtpu
