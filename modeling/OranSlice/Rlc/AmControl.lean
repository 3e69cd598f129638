import OranSlice.Rlc.AmStatus

/-! How an AM entity processes a status report. -/

namespace OranSlice.Rlc

open BitCodec Window

variable (cfg : AmConfig) (tx : AmTx) (ackSn : Int) (buffer : List Byte) (part : NackedPart) (a : Int)
  (status : StatusPdu) (s : ControlState) (nack : Nack) (segment : SduSegment) (rest : List SduSegment)

def AmTx.modulusTx : Int :=
  distance cfg.snModulus tx.txNextAck a

def AmTx.snCompareTx (b : Int) : Int :=
  tx.modulusTx cfg a - tx.modulusTx cfg b

/-- An end of -1 stands for the end of the SDU. -/
def soOverlap (s1 e1 s2 e2 : Int) : Bool :=
  if s1 < s2 then e1 == -1 || decide (e1 ≥ s2) else e2 == -1 || decide (s1 ≤ e2)

structure Nack where
  (sn soStart soEnd : Int)
  range : Nat
deriving DecidableEq, Repr

structure NackedPart where
  (sn soStart soEnd : Int)
deriving DecidableEq, Repr

def Nack.expand : List NackedPart :=
  (List.range nack.range).map (fun i : Nat =>
    { sn := (nack.sn + i) % cfg.snModulus
      soStart := if i = 0 then nack.soStart else 0
      soEnd := if i + 1 = nack.range then nack.soEnd else -1 })

structure StatusPdu where
  ackSn : Int
  nacks : List Nack
deriving DecidableEq, Repr

def decodeNack (stream : List Bool) : Option (Nack × Bool × List Bool) := do
  let (sn, stream) ← take? cfg.snFieldLength stream
  let (e1, stream) ← take? 1 stream
  let (e2, stream) ← take? 1 stream
  let (e3, stream) ← take? 1 stream
  let (_, stream) ← take? (nackRBits cfg) stream
  let (soStart, stream) ← if e2 = 1 then take? 16 stream else some (0, stream)
  let (soEnd, stream) ← if e2 = 1 then take? 16 stream else some (soEndOfSdu, stream)
  let (range, stream) ← if e3 = 1 then take? 8 stream else some (1, stream)
  some (⟨sn, soStart, if soEnd = soEndOfSdu then -1 else soEnd, range⟩, e1 == 1, stream)

/-- The NACKs of a report; each takes some of the stream, which bounds their number. -/
def decodeNacks (cfg : AmConfig) : Nat → Bool → List Bool → Option (List Nack)
  | _, false, _ => some []
  | 0, true, _ => none
  | fuel + 1, true, stream => do
      let (nack, e1, stream) ← decodeNack cfg stream
      let nacks ← decodeNacks cfg fuel e1 stream
      some (nack :: nacks)

def decodeStatusPdu : Option StatusPdu := do
  let (_, stream) ← take? 1 (bytesToBits buffer)
  let (cpt, stream) ← take? 3 stream
  if cpt ≠ 0 then none
  else
    let (ackSn, stream) ← take? cfg.snFieldLength stream
    let (e1, stream) ← take? 1 stream
    let (_, stream) ← take? (if cfg.snFieldLength = 18 then 1 else 7) stream
    let nacks ← decodeNacks cfg (8 * buffer.length) (e1 == 1) stream
    some ⟨ackSn, nacks⟩

/-- A report is refused if its ACK_SN is beyond TX_Next or a NACK is beyond the ACK_SN. NACKs that do
not increase are meant to be refused, but the validating pass never sets the previous NACK that it
compares with. -/
def AmTx.admits : Bool :=
  !decide (tx.snCompareTx cfg status.ackSn tx.txNext > 0) && (status.nacks.flatMap (Nack.expand cfg)).all
      (fun part => !decide (tx.snCompareTx cfg part.sn status.ackSn > 0))

def AmTx.freeSegment : AmTx × List AmEvent :=
  let counts := tx.counts segment.sdu.ident
  let freed := { counts with freeCount := counts.freeCount + 1 }
  let tx := { tx with counts := Function.update tx.counts segment.sdu.ident freed }
  if freed.freeCount = freed.refCount then
    ({ tx with txSize := tx.txSize - segment.sdu.data.length }, [.sduSuccessfulDelivery segment.sdu])
  else (tx, [])

def AmTx.countRetx : AmTx × List AmEvent :=
  let counts := tx.counts segment.sdu.ident
  let counted := { counts with retxCount := counts.retxCount + 1 }
  let tx := { tx with
    counts := Function.update tx.counts segment.sdu.ident counted
    bstatusRetxSize := tx.bstatusRetxSize + (computePduHeaderSize cfg segment + segment.size) }
  (tx, if counted.retxCount ≥ cfg.maxRetxThreshold * counted.refCount then [.maxRetxReached] else [])

/-- The lists while a report is processed: `passed` and `wait` are the wait list before and from the
current segment on; `kept` is the new retransmit list, `retx` the rest of the old one. -/
structure ControlState where
  (passed wait kept retx : List SduSegment)
  tx : AmTx
  events : List AmEvent

def NackedPart.overlaps : Bool :=
  segment.sn == part.sn && soOverlap part.soStart part.soEnd segment.so (segment.so + segment.size - 1)

def AmTx.isAfter (part : NackedPart) : Bool :=
  decide (tx.snCompareTx cfg segment.sn part.sn > 0) ||
    (decide (tx.snCompareTx cfg segment.sn part.sn = 0) && decide (segment.so > part.soStart))

/-- The current segment of the wait list: it is nacked, too far to be decided by this NACK
(`none`), acked, or left where it is. -/
def ControlState.waitHead : Option ControlState :=
  if part.overlaps segment then
    let (tx, events) := s.tx.countRetx cfg segment
    some { s with wait := rest, kept := s.kept ++ [segment], tx := tx, events := s.events ++ events }
  else if s.tx.isAfter cfg segment part then none
  else if s.tx.snCompareTx cfg segment.sn ackSn < 0 then
    let (tx, events) := s.tx.freeSegment segment
    some { s with wait := rest, tx := tx, events := s.events ++ events }
  else if s.tx.snCompareTx cfg segment.sn ackSn > 0 then
    some { s with passed := s.passed ++ segment :: rest, wait := [] }
  else some { s with passed := s.passed ++ [segment], wait := rest }

def AmTx.freeRetx : AmTx × List AmEvent :=
  { tx with bstatusRetxSize :=
      tx.bstatusRetxSize - (computePduHeaderSize cfg segment + segment.size) }.freeSegment segment

/-- The current segment of the retransmit list. When the wait list is done and the segment is not acked,
the rest of the list is put behind the new one, but the pointer to its end stays, and the rest is cut
off again in the end. -/
def ControlState.retxHead : Option ControlState :=
  if part.overlaps segment then some { s with retx := rest, kept := s.kept ++ [segment] }
  else if s.tx.isAfter cfg segment part then none
  else if s.tx.snCompareTx cfg segment.sn ackSn < 0 then
    let (tx, events) := s.tx.freeRetx cfg segment
    some { s with retx := rest, tx := tx, events := s.events ++ events }
  else if s.wait = [] then some { s with retx := [] }
  else some { s with retx := rest, kept := s.kept ++ [segment] }

def AmTx.waitFirst (wait retx : SduSegment) : Bool :=
  decide (tx.snCompareTx cfg wait.sn retx.sn < 0) ||
    (decide (tx.snCompareTx cfg wait.sn retx.sn = 0) && decide (wait.so < retx.so))

def ControlState.nackStep :
    Option ControlState :=
  match s.wait, s.retx with
  | [], [] => none
  | wait :: waits, [] => s.waitHead cfg ackSn part wait waits
  | [], retx :: retxs => s.retxHead cfg ackSn part retx retxs
  | wait :: waits, retx :: retxs =>
    if s.tx.waitFirst cfg wait retx then s.waitHead cfg ackSn part wait waits
    else s.retxHead cfg ackSn part retx retxs

/-- Every step takes a segment off a list, so the number of segments bounds the steps. -/
def ControlState.processPart (cfg : AmConfig) (ackSn : Int) (part : NackedPart) :
    Nat → ControlState → ControlState
  | 0, s => s
  | fuel + 1, s =>
    match s.nackStep cfg ackSn part with
    | none => s
    | some s => s.processPart cfg ackSn part fuel

def ControlState.processNack :
    ControlState :=
  let s := (nack.expand cfg).foldl
    (fun s part => s.processPart cfg ackSn part (s.wait.length + s.retx.length)) s
  -- a NACK for POLL_SN stops the poll timer
  if s.tx.snCompareTx cfg nack.sn s.tx.pollSn ≤ 0 ∧
      s.tx.snCompareTx cfg s.tx.pollSn ((nack.sn + nack.range) % cfg.snModulus) < 0 then
    { s with tx := { s.tx with tPollRetransmitStart := 0 } }
  else s

/-- After the NACKs: the acked segments at the head of a list are freed. -/
def freeAcked (cfg : AmConfig) (ackSn : Int) (free : AmTx → SduSegment → AmTx × List AmEvent) :
    List SduSegment → AmTx → List SduSegment × AmTx × List AmEvent
  | [], tx => ([], tx, [])
  | segment :: rest, tx =>
    if tx.snCompareTx cfg segment.sn ackSn < 0 then
      let (tx, events) := free tx segment
      let (left, tx, later) := freeAcked cfg ackSn free rest tx
      (left, tx, events ++ later)
    else (segment :: rest, tx, [])

def AmTx.lowerSn (sn : Option Int) (bound : Int) : Int :=
  match sn with
  | some sn => if tx.snCompareTx cfg sn bound < 0 then sn else bound
  | none => bound

/-- TX_Next_Ack becomes the smallest SN in the wait and retransmit lists, ACK_SN and
TX_Next. -/
def AmTx.nextAck : Int :=
  let bound := tx.lowerSn cfg (tx.waitList.head?.map SduSegment.sn) tx.txNext
  let bound := tx.lowerSn cfg (tx.retransmitList.head?.map SduSegment.sn) bound
  tx.lowerSn cfg (some ackSn) bound

def AmTx.processStatus : AmTx × List AmEvent :=
  let tx :=
    if tx.snCompareTx cfg tx.pollSn status.ackSn < 0 then { tx with tPollRetransmitStart := 0 }
    else tx
  let s := status.nacks.foldl (ControlState.processNack cfg status.ackSn)
    ⟨[], tx.waitList, [], tx.retransmitList, tx, []⟩
  let (wait, tx, waitEvents) := freeAcked cfg status.ackSn AmTx.freeSegment s.wait s.tx
  let (retx, tx, retxEvents) := freeAcked cfg status.ackSn (AmTx.freeRetx cfg) s.retx tx
  let tx := { tx with waitList := s.passed ++ wait, retransmitList := s.kept ++ retx }
  ({ tx with txNextAck := tx.nextAck cfg status.ackSn }, s.events ++ waitEvents ++ retxEvents)

/-- A report that cannot be decoded or is not admitted is discarded as a whole. -/
def AmTx.processControlPdu : AmTx × List AmEvent :=
  match decodeStatusPdu cfg buffer with
  | none => (tx, [])
  | some status => if tx.admits cfg status then tx.processStatus cfg status else (tx, [])

end OranSlice.Rlc
