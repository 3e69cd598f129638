import OranSlice.Rlc.AmRun

/-! Two AM entities joined by channels that may lose PDUs but keep their order. -/

namespace OranSlice.Rlc

open BitCodec

structure Party where
  entity : AmEntity
  outgoing : List (List Byte) := []
  accepted : List Sdu := []
  delivered : List (List Byte) := []
  confirmed : List Sdu := []

def DataOp.acceptedSdus (before after : AmEntity) : DataOp → List Sdu
  | .recvSdu buffer sduId =>
    if after.tx.created = before.tx.created then [] else [⟨before.tx.created, sduId, buffer⟩]
  | _ => []

def deliveredSdus (events : List AmEvent) : List (List Byte) :=
  events.filterMap (fun event =>
    match event with
    | .deliverSdu buffer => some buffer
    | _ => none)

def confirmedSdus (events : List AmEvent) : List Sdu :=
  events.filterMap (fun event =>
    match event with
    | .sduSuccessfulDelivery sdu => some sdu
    | _ => none)

def Party.perform (party : Party) (op : DataOp) : Option Party :=
  (party.entity.perform op).map (fun result =>
    let (entity, output) := result
    { entity := entity
      outgoing := if output.pdu.isEmpty then party.outgoing else party.outgoing ++ [output.pdu]
      accepted := party.accepted ++ op.acceptedSdus party.entity entity
      delivered := party.delivered ++ deliveredSdus output.events
      confirmed := party.confirmed ++ confirmedSdus output.events })

/-- The steps of a link at one of its ends: those of its entity, and the arrival or the
loss of the oldest PDU on its way to it. -/
inductive LinkOp where
  | recvSdu (buffer : List Byte) (sduId : Int)
  | discardSdu (sduId : Int)
  | generatePdu (size : Nat)
  | setTime (now : Nat)
  | arrive
  | lose
deriving DecidableEq, Repr

def Party.step (own peer : Party) : LinkOp → Option (Party × Party)
  | .recvSdu buffer sduId => (own.perform (.recvSdu buffer sduId)).map (fun own => (own, peer))
  | .discardSdu sduId => (own.perform (.discardSdu sduId)).map (fun own => (own, peer))
  | .generatePdu size => (own.perform (.generatePdu size)).map (fun own => (own, peer))
  | .setTime now => (own.perform (.setTime now)).map (fun own => (own, peer))
  | .arrive =>
    match peer.outgoing with
    | [] => some (own, peer)
    | pdu :: rest =>
      (own.perform (.recvPdu pdu)).map (fun own => (own, { peer with outgoing := rest }))
  | .lose => some (own, { peer with outgoing := peer.outgoing.tail })

structure Link where
  (a b : Party)

inductive Side where
  | a
  | b
deriving DecidableEq, Repr

def Link.step (link : Link) : Side × LinkOp → Option Link
  | (.a, op) => (link.a.step link.b op).map (fun ends => ⟨ends.1, ends.2⟩)
  | (.b, op) => (link.b.step link.a op).map (fun ends => ⟨ends.2, ends.1⟩)

def Link.start (rxMaxsize txMaxsize : Int) (aParams bParams : AmParams) (snFieldLength : Nat) :
    Option Link := do
  let a ← newNrRlcEntityAm rxMaxsize txMaxsize aParams snFieldLength
  let b ← newNrRlcEntityAm rxMaxsize txMaxsize bParams snFieldLength
  some ⟨{ entity := a }, { entity := b }⟩

end OranSlice.Rlc
