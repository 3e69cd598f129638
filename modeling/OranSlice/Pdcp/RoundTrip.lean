import OranSlice.Pdcp.Reception

/-! What one end of a bearer sends the other delivers, in whatever order the PDUs arrive, as long as
COUNT does not come to its end. -/

namespace OranSlice.Pdcp

open BitCodec Runs List

variable {crypto : Crypto} {entity sender receiver next : PdcpEntity} {sdu pdu rest : List Byte}

def Crypto.XorsKeystream (crypto : Crypto) : Prop :=
  ∃ stream : List Byte → Int → Nat → Nat → Nat → Byte, ∀ key buffer bearer count direction,
    crypto.nea2 key buffer bearer count direction =
      buffer.mapIdx (fun i byte => byte ^^^ stream key bearer count direction i)

theorem Crypto.XorsKeystream.twice (xors : crypto.XorsKeystream) (key buffer : List Byte) (bearer : Int)
    (count direction : Nat) :
    crypto.nea2 key (crypto.nea2 key buffer bearer count direction) bearer count direction = buffer := by
  obtain ⟨stream, same⟩ := xors
  rw [same, same]
  apply ext_getElem
  · simp
  · intro i _ _
    rw [getElem_mapIdx, getElem_mapIdx, BitVec.xor_assoc, BitVec.xor_self, BitVec.xor_zero]

namespace PdcpEntity

theorem cipher_twice (xors : crypto.XorsKeystream) {buffer : List Byte} {start : Nat}
    (inside : start ≤ buffer.length) (count direction : Nat) :
    entity.cipher crypto (entity.cipher crypto buffer start count direction) start count direction = buffer := by
  unfold cipher
  have front : (buffer.take start).length = start := length_take_of_le inside
  rw [take_left' front, drop_left' front, xors.twice, take_append_drop]

theorem length_cipher (buffer : List Byte) (start count direction : Nat) :
    (entity.cipher crypto buffer start count direction).length = buffer.length := by
  unfold cipher
  rw [length_append, crypto.nea2_length, length_take, length_drop]
  omega

theorem length_pduHeader (sn : Nat) : (entity.pduHeader sn).length = entity.headerSize := by
  unfold pduHeader headerSize
  dsimp only
  split <;> rfl

theorem markData_pduHeader (sn : Nat) :
    entity.markData (entity.pduHeader sn ++ rest) = entity.pduHeader sn ++ rest := by
  have marked (x : Nat) : BitVec.ofNat 8 (0x80 ||| x) ||| 0x80#8 = BitVec.ofNat 8 (0x80 ||| x) := by
    rw [BitVec.ofNat_or, BitVec.or_comm, ← BitVec.or_assoc, BitVec.or_self]
  unfold markData pduHeader
  by_cases srb : entity.type = .srb
  · rw [if_pos srb]
  rw [if_neg srb, if_neg srb]
  by_cases short : entity.snSize = shortSnSize
  · rw [if_pos short]
    exact congrArg (· :: _) (marked (sn >>> 8 &&& 0xf))
  · rw [if_neg short]
    exact congrArg (· :: _) (marked (sn >>> 16 &&& 0x3))

theorem toNat_marked {type : EntityType} (x : Nat) {mask : Nat} (small : mask = 0xf ∨ mask = 0x3) :
    (BitVec.ofNat 8 ((if type = .srb then 0 else 0x80) ||| x &&& mask)).toNat &&& mask = x &&& mask := by
  have bound := @Nat.and_le_right x mask
  generalize x &&& mask = y at bound
  rcases small with rfl | rfl <;> split <;> revert y <;> decide

theorem rcvdSn_pduHeader (configured : entity.Configured) {sn : Nat} (fits : sn < 2 ^ entity.snSize) :
    entity.rcvdSn (entity.pduHeader sn ++ rest) = sn := by
  have byte (x : Nat) : (BitVec.ofNat 8 (x &&& 0xff)).toNat = x % 256 := by
    rw [Nat.and_two_pow_sub_one_eq_mod x 8]
    exact Nat.mod_mod _ _
  unfold rcvdSn pduHeader
  rcases configured.snSize with short | long
  · rw [short, shortSnSize] at fits
    rw [if_pos short, if_pos short]
    simp only [cons_append, getD_cons_zero, getD_cons_succ]
    rw [toNat_marked _ (.inl rfl), byte, Nat.and_two_pow_sub_one_eq_mod _ 4,
      ← Nat.shiftLeft_add_eq_or_of_lt (Nat.mod_lt sn (by decide))]
    omega
  · rw [long, longSnSize] at fits
    rw [if_neg (by rw [long]; decide), if_neg (by rw [long]; decide)]
    simp only [cons_append, getD_cons_zero, getD_cons_succ]
    rw [toNat_marked _ (.inr rfl), byte, byte, Nat.and_two_pow_sub_one_eq_mod _ 2, Nat.or_assoc,
      ← Nat.shiftLeft_add_eq_or_of_lt (Nat.mod_lt sn (by decide)),
      ← Nat.shiftLeft_add_eq_or_of_lt]
    · omega
    · omega

theorem rcvdCount_of_window (configured : entity.Configured) {count : Nat} (space : count < countSpace)
    (inside : entity.rxDeliv < countSpace) (behind : entity.rxDeliv ≤ count + entity.windowSize)
    (ahead : count < entity.rxDeliv + entity.windowSize) :
    entity.rcvdCount (count &&& entity.snMax) = count := by
  unfold rcvdCount
  rw [configured.windowSize] at behind ahead
  rw [configured.snMax, configured.windowSize, Nat.and_two_pow_sub_one_eq_mod, Nat.and_two_pow_sub_one_eq_mod]
  rw [count_eq configured.small (Nat.mod_lt _ (Nat.two_pow_pos _))]
  unfold countSpace at inside space ⊢
  rcases configured.snSize with short | long
  · rw [short, shortSnSize] at behind ahead ⊢
    split
    · omega
    · split <;> omega
  · rw [long, longSnSize] at behind ahead ⊢
    split
    · omega
    · split <;> omega

end PdcpEntity

structure Peers (sender receiver : PdcpEntity) : Prop where
  configured : receiver.Configured
  active : sender.entitySuspended = false ∧ receiver.entitySuspended = false
  type : sender.type = receiver.type
  snSize : sender.snSize = receiver.snSize
  snMax : sender.snMax = receiver.snMax
  rbId : sender.rbId = receiver.rbId
  sides : sender.isGnb = !receiver.isGnb
  sdap : sender.hasSdapTx = receiver.hasSdapRx
  ciphering : sender.hasCiphering = receiver.hasCiphering ∧ sender.securityContext = receiver.securityContext
  integrity : sender.hasIntegrity = receiver.hasIntegrity ∧ sender.integrityContext = receiver.integrityContext

theorem Peers.asserts (peers : Peers sender receiver) (asserts : sender.SendAsserts sdu) :
    receiver.AssertsHold sender.txNext
      (sdu.length + receiver.integritySize - if receiver.hasSdapRx then 1 else 0) := by
  unfold PdcpEntity.SendAsserts PdcpEntity.AssertsHold PdcpEntity.nea2Asserts PdcpEntity.nia2Asserts
    PdcpEntity.integritySize at asserts
  rw [peers.type, peers.rbId, peers.sdap, peers.ciphering.1, peers.integrity.1, peers.integrity.2] at asserts
  exact asserts

namespace PdcpEntity

def macI (crypto : Crypto) (receiver : PdcpEntity) (body : List Byte) (count : Nat) : List Byte :=
  if receiver.hasIntegrity then receiver.mac crypto body count (if receiver.isGnb then 0 else 1)
  else replicate receiver.integritySize 0

theorem length_macI (body : List Byte) (count : Nat) :
    (receiver.macI crypto body count).length = receiver.integritySize := by
  unfold macI
  split
  · rename_i checked
    unfold mac integritySize
    rw [crypto.integrity_length, checked]
    rfl
  · exact length_replicate

theorem integrityOk_macI (body : List Byte) (count : Nat) :
    receiver.integrityOk crypto (body ++ receiver.macI crypto body count) count = true := by
  have size := @length_macI crypto receiver body count
  unfold integrityOk
  rw [length_append, size, Nat.add_sub_cancel, take_left' rfl, drop_left' rfl]
  by_cases checked : receiver.hasIntegrity = true
  · rw [macI, if_pos checked, beq_self_eq_true, Bool.or_true]
  · simp [checked]

/-- A PDU as its receiver sees it: the ciphered bytes of a header, the SDU and the MAC-I. -/
def sealedPdu (crypto : Crypto) (receiver : PdcpEntity) (count : Nat) (sdu : List Byte) : List Byte :=
  let body := receiver.pduHeader (count &&& receiver.snMax) ++ sdu
  receiver.decipher crypto (body ++ receiver.macI crypto body count) count

theorem processSdu_sealed (peers : Peers sender receiver) {sdu : List Byte} (asserts : sender.SendAsserts sdu) :
    sender.processSdu crypto sdu (nrMaxPdcpPduSize sdu.length) =
      some ({ sender with txNext := (sender.txNext + 1) % countSpace },
        some (receiver.sealedPdu crypto sender.txNext sdu)) := by
  have direction : (if sender.isGnb then 1 else 0) = if receiver.isGnb then 0 else 1 := by
    rw [peers.sides]
    cases receiver.isGnb <;> rfl
  rw [processSdu, if_neg (lt_irrefl _), if_neg (by simp [peers.active.1]), if_neg (not_not.mpr asserts), direction]
  dsimp only [sealedPdu]
  unfold macI decipher frontSize cipher mac pduHeader headerSize integritySize
  rw [peers.type, peers.snSize, peers.snMax, peers.rbId, peers.sdap, peers.ciphering.1, peers.ciphering.2,
    peers.integrity.1, peers.integrity.2]
  by_cases checked : receiver.hasIntegrity = true
  · rw [if_pos checked, if_pos checked]
  · rw [if_neg checked, if_neg checked]

theorem length_sealedPdu (count : Nat) (sdu : List Byte) : (receiver.sealedPdu crypto count sdu).length =
    receiver.headerSize + sdu.length + receiver.integritySize := by
  unfold sealedPdu decipher
  dsimp only
  split
  · rw [length_cipher, length_append, length_append, length_macI, length_pduHeader]
  · rw [length_append, length_append, length_macI, length_pduHeader]

theorem sealedPdu_front (count : Nat) (sdu : List Byte) :
    ∃ rest, receiver.sealedPdu crypto count sdu = receiver.pduHeader (count &&& receiver.snMax) ++ rest := by
  have size := @length_pduHeader receiver (count &&& receiver.snMax)
  unfold sealedPdu decipher
  dsimp only
  split
  · unfold cipher frontSize
    rw [append_assoc, take_append, take_of_length_le (by omega), append_assoc]
    exact ⟨_, rfl⟩
  · rw [append_assoc]
    exact ⟨_, rfl⟩

theorem rcvdSn_sealedPdu (configured : receiver.Configured) (count : Nat) (sdu : List Byte) :
    receiver.rcvdSn (receiver.markData (receiver.sealedPdu crypto count sdu)) = count &&& receiver.snMax := by
  obtain ⟨rest, front⟩ := @sealedPdu_front crypto receiver count sdu
  rw [front, markData_pduHeader]
  apply rcvdSn_pduHeader configured
  rw [configured.snMax, Nat.and_two_pow_sub_one_eq_mod]
  exact Nat.mod_lt _ (Nat.two_pow_pos _)

theorem recvAsserts_sealed (configured : receiver.Configured) {count : Nat}
    (placed : receiver.rcvdCount (count &&& receiver.snMax) = count)
    (asserts : receiver.AssertsHold count
      (sdu.length + receiver.integritySize - if receiver.hasSdapRx then 1 else 0)) :
    receiver.RecvAsserts (receiver.sealedPdu crypto count sdu) := by
  intro _ _
  rw [rcvdSn_sealedPdu configured, placed, length_sealedPdu]
  convert asserts using 1
  unfold frontSize
  split <;> omega

theorem readPdu_sealed (xors : crypto.XorsKeystream) (configured : receiver.Configured) {count : Nat}
    (active : receiver.entitySuspended = false) (long : (if receiver.hasSdapRx then 1 else 0) < sdu.length)
    (placed : receiver.rcvdCount (count &&& receiver.snMax) = count) :
    ∃ msgIntegrity, receiver.readPdu crypto (receiver.sealedPdu crypto count sdu) =
      some ⟨count, sdu, msgIntegrity⟩ := by
  have sn := @rcvdSn_sealedPdu crypto receiver configured count sdu
  have sameLength := @length_sealedPdu crypto receiver count sdu
  have marked : receiver.markData (receiver.sealedPdu crypto count sdu) = receiver.sealedPdu crypto count sdu := by
    obtain ⟨rest, front⟩ := @sealedPdu_front crypto receiver count sdu
    rw [front, markData_pduHeader]
  rw [marked] at sn
  generalize sealed : receiver.sealedPdu crypto count sdu = pdu at sn sameLength marked ⊢
  unfold sealedPdu at sealed
  dsimp only at sealed
  generalize headerEq : receiver.pduHeader (count &&& receiver.snMax) = header at sealed
  generalize clearEq : header ++ sdu ++ receiver.macI crypto (header ++ sdu) count = clear at sealed
  have headerSize : header.length = receiver.headerSize := by rw [← headerEq, length_pduHeader]
  have length : clear.length = receiver.headerSize + sdu.length + receiver.integritySize := by
    rw [← clearEq, length_append, length_append, length_macI, headerSize]
  have frontSize : receiver.frontSize = receiver.headerSize + if receiver.hasSdapRx then 1 else 0 := rfl
  have ok : receiver.integrityOk crypto clear count = true := by
    rw [← clearEq]
    exact integrityOk_macI _ _
  -- deciphering is ciphering once more
  have opened : receiver.decipher crypto pdu count = clear := by
    rw [← sealed]
    unfold decipher
    split
    · exact cipher_twice xors (by omega) _ _
    · rfl
  have large : ¬ pdu.length < 1 := by omega
  unfold readPdu
  rw [if_neg (by simp [active, large]), marked, if_neg (by omega)]
  dsimp only
  rw [sn, placed, opened, if_pos ok]
  refine ⟨_, congrArg some (congrArg (PdcpSdu.mk count · _) ?_)⟩
  rw [← clearEq, append_assoc, drop_left' headerSize, take_left']
  rw [← append_assoc, clearEq]
  omega

def InWindow (entity : PdcpEntity) (count : Nat) : Prop :=
  entity.rxDeliv ≤ count + 2 ^ (entity.snSize - 1) ∧ count < entity.rxDeliv + 2 ^ (entity.snSize - 1)

instance (entity : PdcpEntity) (count : Nat) : Decidable (entity.InWindow count) :=
  inferInstanceAs (Decidable (_ ∧ _))

structure Filled (entity : PdcpEntity) : Prop where
  buffered : entity.Buffered []
  missing : ∀ sdu ∈ entity.rxList, sdu.count ≠ entity.rxDeliv

end PdcpEntity

theorem deliverConsecutive_gap {count : Nat} {list : List PdcpSdu}
    (sorted : list.Pairwise (fun a b => a.count < b.count)) (low : ∀ sdu ∈ list, count ≤ sdu.count)
    (space : ∀ sdu ∈ list, sdu.count + 1 < countSpace) :
    ∃ delivered left, deliverConsecutive count list = (delivered, count + delivered.length, left) ∧
      delivered.map PdcpSdu.count = range' count delivered.length ∧
      ∀ sdu ∈ left, sdu.count ≠ count + delivered.length := by
  induction list generalizing count with
  | nil => exact ⟨[], [], rfl, rfl, by simp⟩
  | cons sdu rest ih =>
    obtain ⟨first, later⟩ := pairwise_cons.mp sorted
    have here := low sdu mem_cons_self
    unfold deliverConsecutive
    split
    · rename_i same
      have next : (count + 1) % countSpace = count + 1 := Nat.mod_eq_of_lt (same ▸ space sdu mem_cons_self)
      obtain ⟨delivered, left, taken, counts, gap⟩ := @ih (count + 1) later
        (fun other member => by have := first other member; omega)
        (forall_mem_cons.mp space).2
      have length : count + (sdu :: delivered).length = count + 1 + delivered.length := by
        rw [length_cons]
        omega
      rw [next, taken]
      refine ⟨sdu :: delivered, left, ?_, ?_, ?_⟩
      · rw [length]
      · rw [map_cons, counts, ← same]
        rfl
      · rw [length]
        exact gap
    · rename_i other
      refine ⟨[], sdu :: rest, rfl, rfl, fun held member => ?_⟩
      rcases mem_cons.mp member with rfl | behind
      · exact fun same => other same.symm
      · have := first held behind
        simp only [length_nil]
        omega

namespace PdcpEntity

theorem reordering_keeps (entity : PdcpEntity) :
    ∃ rxReord timer, entity.stopReordering.startReordering =
      { entity with rxReord := rxReord, tReorderingStart := timer } := by
  rcases @startReordering_cases entity.stopReordering with ⟨same, _⟩ | ⟨started, _⟩
  · rw [same, stopReordering_eq]
    exact ⟨_, _, rfl⟩
  · rw [started, stopReordering_eq]
    exact ⟨_, _, rfl⟩

structure Receives (entity : PdcpEntity) (sdu : PdcpSdu) (result : PdcpEntity × List PdcpSdu) : Prop where
  filled : result.1.Filled
  deliv : result.1.rxDeliv = entity.rxDeliv + result.2.length
  counts : result.2.map PdcpSdu.count = range' entity.rxDeliv result.2.length
  origin : ∀ other ∈ result.2 ++ result.1.rxList, other = sdu ∨ other ∈ entity.rxList
  kept : ∀ other ∈ entity.rxList, other ∈ result.2 ++ result.1.rxList
  known : sdu.count < entity.rxDeliv ∨ ∃ other ∈ result.2 ++ result.1.rxList, other.count = sdu.count

theorem Filled.storeSdu (filled : entity.Filled) {sdu : PdcpSdu} (fresh : entity.isDuplicate sdu.count = false)
    (inside : sdu.count + 1 < countSpace) : entity.Receives sdu (entity.storeSdu sdu) := by
  have added := filled.buffered.addSdu fresh inside
  have members (other : PdcpSdu) : other ∈ (entity.addSdu sdu).rxList ↔ other = sdu ∨ other ∈ entity.rxList :=
    mem_orderedInsert _
  have here : sdu ∈ (entity.addSdu sdu).rxList := (members sdu).mpr (.inl rfl)
  suffices receives : entity.Receives sdu ((entity.addSdu sdu).deliverFrom sdu.count) by
    obtain ⟨rxReord, timer, same⟩ := reordering_keeps ((entity.addSdu sdu).deliverFrom sdu.count).1
    unfold PdcpEntity.storeSdu
    dsimp only
    rw [same]
    exact { receives with filled := ⟨⟨receives.filled.buffered.list, receives.filled.buffered.space⟩,
      receives.filled.missing⟩ }
  by_cases first : sdu.count = entity.rxDeliv
  · have delivered := added.deliverFrom sdu.count
    have low := fun other member => (added.list.inside other member).1
    have high := fun other member => (added.list.inside other member).2
    have space := added.space
    have split := (deliverConsecutive_takesFront added.list.sorted low high added.list.order space).split
    obtain ⟨given, left, taken, counts, gap⟩ := deliverConsecutive_gap added.list.sorted low
      (fun other member => by have := high other member; omega)
    have result : (entity.addSdu sdu).deliverFrom sdu.count =
        ({ (entity.addSdu sdu).afterDelivery given left with rxDeliv := entity.rxDeliv + given.length }, given) := by
      rw [PdcpEntity.deliverFrom, if_pos (by exact first), taken]
      rfl
    rw [taken] at split
    rw [← split] at members here
    rw [result] at delivered ⊢
    exact ⟨⟨⟨delivered.list.forget, delivered.space⟩, gap⟩, rfl, counts, fun other => (members other).mp,
      fun other old => (members other).mpr (.inr old), .inr ⟨sdu, here, rfl⟩⟩
  · rw [PdcpEntity.deliverFrom, if_neg (by exact first)]
    refine ⟨⟨added, ?_⟩, rfl, rfl, fun other => (members other).mp,
      fun other old => (members other).mpr (.inr old), .inr ⟨sdu, here, rfl⟩⟩
    intro other member
    rcases (members other).mp member with rfl | old
    · exact first
    · exact filled.missing other old

theorem Filled.takePdu (filled : entity.Filled) {sdu : PdcpSdu} (read : entity.readPdu crypto pdu = some sdu)
    (inside : sdu.count + 1 < countSpace) : entity.Receives sdu (entity.takePdu crypto pdu) := by
  unfold PdcpEntity.takePdu
  rw [read]
  dsimp only
  split_ifs with duplicate
  · refine ⟨filled, rfl, rfl, fun other => .inr, fun other => id, ?_⟩
    simpa [isDuplicate, nrPdcpSduInList] using duplicate
  · exact filled.storeSdu (by simpa using duplicate) inside

end PdcpEntity

/-- An SDU and its PDU, with the COUNT that it would have if COUNT had no end. -/
structure Packet where
  count : Nat
  (sdu pdu : List Byte)
deriving DecidableEq, Repr

structure Link where
  (sender receiver : PdcpEntity)
  count : Nat
  (sent arrived : List Packet := [])
  delivered : List PdcpSdu := []
deriving DecidableEq, Repr

inductive LinkOp where
  | send (sdu : List Byte)
  | arrive (packet : Packet)
deriving DecidableEq, Repr

namespace Link

def receive (link : Link) (packet : Packet) (result : PdcpEntity × List PdcpSdu) : Link :=
  { link with
    receiver := result.1, arrived := packet :: link.arrived, delivered := link.delivered ++ result.2 }

def step (crypto : Crypto) (link : Link) : LinkOp → Option Link
  | .send sdu =>
    (link.sender.processSdu crypto sdu (PdcpEntity.nrMaxPdcpPduSize sdu.length)).bind (fun result =>
      result.2.map (fun pdu =>
        { link with sender := result.1, count := link.count + 1, sent := ⟨link.count, sdu, pdu⟩ :: link.sent }))
  | .arrive packet =>
    if packet ∈ link.sent then (link.receiver.recvPdu crypto packet.pdu).map (link.receive packet) else none

/-- From the COUNT `base` on no PDU of the window is rejected or fails an assertion, SDUs are delivered as
sent, once and in order, and none is kept back when all before it have arrived. -/
structure Faithful (crypto : Crypto) (base : Nat) (link : Link) : Prop where
  completes : ∀ packet ∈ link.sent, link.receiver.InWindow packet.count →
    (link.receiver.recvPdu crypto packet.pdu).isSome = true
  accepts : ∀ packet ∈ link.sent, link.receiver.InWindow packet.count →
    (link.receiver.readPdu crypto packet.pdu).isSome = true
  same : ∀ sdu ∈ link.delivered, ∃ packet ∈ link.sent, packet.count = sdu.count ∧ packet.sdu = sdu.buffer
  order : link.delivered.map PdcpSdu.count = range' base link.delivered.length
  complete : ∀ count, (∀ other, base ≤ other → other < count → ∃ packet ∈ link.arrived, packet.count = other) →
    count ≤ base + link.delivered.length

end Link

/-- SDUs are longer than the SDAP header, and PDUs arrive while their COUNT is in the window. -/
def LinkOp.Usual (link : Link) : LinkOp → Prop
  | .send sdu => (if link.sender.hasSdapTx then 1 else 0) < sdu.length
  | .arrive packet => link.receiver.InWindow packet.count

def LinkOp.AvoidsWrap (link : Link) : LinkOp → Prop
  | .send _ => link.sender.txNext + 1 < countSpace
  | .arrive _ => True

instance (link : Link) (op : LinkOp) : Decidable (op.Usual link) :=
  match op with
  | .send _ => inferInstanceAs (Decidable (_ < _))
  | .arrive _ => inferInstanceAs (Decidable (PdcpEntity.InWindow _ _))

instance (link : Link) (op : LinkOp) : Decidable (op.AvoidsWrap link) :=
  match op with
  | .send _ => inferInstanceAs (Decidable (_ < _))
  | .arrive _ => .isTrue trivial

namespace Link

variable {link after : Link} {base : Nat} {packet : Packet}

structure Synced (crypto : Crypto) (base : Nat) (link : Link) : Prop where
  peers : Peers link.sender link.receiver.frame
  count : link.sender.txNext = link.count
  space : base ≤ link.count ∧ link.count < countSpace
  sent : ∀ packet ∈ link.sent, base ≤ packet.count ∧ packet.count < link.count ∧
    (if link.receiver.hasSdapRx then 1 else 0) < packet.sdu.length ∧
    link.receiver.frame.AssertsHold packet.count
      (packet.sdu.length + link.receiver.frame.integritySize - if link.receiver.frame.hasSdapRx then 1 else 0) ∧
    packet.pdu = link.receiver.frame.sealedPdu crypto packet.count packet.sdu
  filled : link.receiver.Filled
  deliv : link.receiver.rxDeliv = base + link.delivered.length
  order : link.delivered.map PdcpSdu.count = range' base link.delivered.length
  held : ∀ sdu ∈ link.delivered ++ link.receiver.rxList,
    ∃ packet ∈ link.sent, packet.count = sdu.count ∧ packet.sdu = sdu.buffer
  arrived : ∀ packet ∈ link.arrived, ∃ sdu ∈ link.delivered ++ link.receiver.rxList, sdu.count = packet.count

theorem Synced.delivered_iff (synced : link.Synced crypto base) {count : Nat} :
    count ∈ link.delivered.map PdcpSdu.count ↔ base ≤ count ∧ count < link.receiver.rxDeliv := by
  rw [synced.order, mem_range'_1, synced.deliv]

theorem Synced.read (xors : crypto.XorsKeystream) (synced : link.Synced crypto base) (sent : packet ∈ link.sent)
    (window : link.receiver.InWindow packet.count) :
    packet.count + 1 < countSpace ∧ link.receiver.RecvAsserts packet.pdu ∧
      ∃ msgIntegrity, link.receiver.readPdu crypto packet.pdu = some ⟨packet.count, packet.sdu, msgIntegrity⟩ := by
  obtain ⟨snSize, snMax, windowSize⟩ := synced.peers.configured
  have configured : link.receiver.Configured := ⟨snSize, snMax, windowSize⟩
  obtain ⟨_, before, long, asserts, sealed⟩ := synced.sent packet sent
  have space := synced.space.2
  have inside := lt_of_le_of_lt synced.filled.buffered.list.order synced.filled.buffered.space
  unfold PdcpEntity.InWindow at window
  rw [← configured.windowSize] at window
  have placed := PdcpEntity.rcvdCount_of_window configured (before.trans space) inside window.1 window.2
  rw [sealed]
  exact ⟨by omega, PdcpEntity.recvAsserts_sealed configured placed asserts,
    PdcpEntity.readPdu_sealed xors configured synced.peers.active.2 long placed⟩

theorem Synced.faithful (xors : crypto.XorsKeystream) (synced : link.Synced crypto base) :
    link.Faithful crypto base := by
  refine ⟨?_, ?_, (forall_mem_append.mp synced.held).1, synced.order, ?_⟩
  · intro packet sent window
    obtain ⟨_, asserts, _⟩ := synced.read xors sent window
    rw [PdcpEntity.recvPdu, if_pos asserts]
    rfl
  · intro packet sent window
    obtain ⟨_, _, _, read⟩ := synced.read xors sent window
    rw [read]
    rfl
  · intro count all
    by_contra short
    have deliv := synced.deliv
    obtain ⟨packet, arrived, same⟩ := all link.receiver.rxDeliv (by omega) (by omega)
    obtain ⟨sdu, member, found⟩ := synced.arrived packet arrived
    rcases mem_append.mp member with given | kept
    · have := (synced.delivered_iff.mp (mem_map_of_mem given)).2
      omega
    · exact synced.filled.missing sdu kept (found.trans same)

theorem Synced.send (synced : link.Synced crypto base) {sdu : List Byte} (long : (LinkOp.send sdu).Usual link)
    (space : (LinkOp.send sdu).AvoidsWrap link) (taken : link.step crypto (.send sdu) = some after) :
    after.Synced crypto base := by
  have number := synced.count
  obtain ⟨⟨next, result⟩, processed, mapped⟩ := Option.bind_eq_some_iff.mp taken
  have asserts : link.sender.SendAsserts sdu := by
    rcases PdcpEntity.processSdu_cases processed with ⟨_, rfl⟩ | ⟨_, asserts, _⟩
    · cases mapped
    · exact asserts
  have accepted := synced.peers.asserts asserts
  rw [number] at accepted
  change Option.bind _ _ = _ at taken
  rw [PdcpEntity.processSdu_sealed synced.peers asserts, Nat.mod_eq_of_lt space] at taken
  cases taken
  obtain ⟨configured, active, type, snSize, snMax, rbId, sides, sdap, ciphering, integrity⟩ := synced.peers
  refine { synced with
    peers := ⟨configured, active, type, snSize, snMax, rbId, sides, sdap, ciphering, integrity⟩
    count := congrArg (· + 1) number
    space := ⟨Nat.le_succ_of_le synced.space.1, number ▸ space⟩
    sent := ?_
    held := ?_ }
  · intro packet member
    rcases mem_cons.mp member with rfl | old
    · exact ⟨synced.space.1, Nat.lt_succ_self _, sdap ▸ long, accepted,
        congrArg (link.receiver.frame.sealedPdu crypto · sdu) number⟩
    · obtain ⟨low, before, sealed⟩ := synced.sent packet old
      exact ⟨low, Nat.lt_succ_of_lt before, sealed⟩
  · intro other member
    obtain ⟨packet, old, same⟩ := synced.held other member
    exact ⟨packet, mem_cons_of_mem _ old, same⟩

theorem Synced.arrive (xors : crypto.XorsKeystream) (synced : link.Synced crypto base)
    (window : (LinkOp.arrive packet).Usual link) (taken : link.step crypto (.arrive packet) = some after) :
    after.Synced crypto base := by
  obtain ⟨sent, result, completed, rfl⟩ : packet ∈ link.sent ∧
      ∃ result, link.receiver.recvPdu crypto packet.pdu = some result ∧ link.receive packet result = after := by
    simpa [step] using taken
  obtain ⟨space, _, msgIntegrity, read⟩ := synced.read xors sent window
  have received := synced.filled.takePdu read space
  have frame := @PdcpEntity.takePdu_frame crypto link.receiver packet.pdu
  rw [← PdcpEntity.recvPdu_eq completed] at received frame
  have sdap : result.1.hasSdapRx = link.receiver.hasSdapRx := (congrArg PdcpEntity.hasSdapRx frame :)
  have whole : (link.receive packet result).delivered ++ result.1.rxList =
      link.delivered ++ (result.2 ++ result.1.rxList) := append_assoc _ _ _
  have deliv := synced.deliv
  refine ⟨frame ▸ synced.peers, synced.count, synced.space, ?_, received.filled, ?_, ?_, ?_, ?_⟩
  · intro other member
    change _ ∧ _ ∧ (if result.1.hasSdapRx then 1 else 0) < _ ∧ result.1.frame.AssertsHold _
      (_ + result.1.frame.integritySize - if result.1.frame.hasSdapRx then 1 else 0) ∧
      _ = result.1.frame.sealedPdu crypto _ _
    rw [sdap, frame]
    exact synced.sent other member
  · change result.1.rxDeliv = base + (link.delivered ++ result.2).length
    rw [received.deliv, deliv, length_append, add_assoc]
  · change (link.delivered ++ result.2).map PdcpSdu.count = range' base (link.delivered ++ result.2).length
    rw [map_append, synced.order, received.counts, deliv, length_append, range'_append_1]
  · intro sdu member
    rw [show (link.receive packet result).receiver = result.1 from rfl, whole] at member
    rcases mem_append.mp member with old | new
    · exact synced.held sdu (mem_append_left _ old)
    · rcases received.origin sdu new with rfl | kept
      · exact ⟨packet, sent, rfl, rfl⟩
      · exact synced.held sdu (mem_append_right _ kept)
  · intro other member
    rw [show (link.receive packet result).receiver = result.1 from rfl, whole]
    rcases mem_cons.mp member with rfl | old
    · rcases received.known with behind | ⟨sdu, there, same⟩
      · obtain ⟨sdu, given, same⟩ := mem_map.mp (synced.delivered_iff.mpr ⟨(synced.sent other sent).1, behind⟩)
        exact ⟨sdu, mem_append_left _ given, same⟩
      · exact ⟨sdu, mem_append_right _ there, same⟩
    · obtain ⟨sdu, there, same⟩ := synced.arrived other old
      refine ⟨sdu, ?_, same⟩
      rcases mem_append.mp there with given | kept
      · exact mem_append_left _ given
      · exact mem_append_right _ (received.kept sdu kept)

end Link

structure InStep (sender receiver : PdcpEntity) : Prop where
  list : receiver.rxList = []
  deliv : receiver.rxDeliv = sender.txNext
  next : receiver.rxNext = sender.txNext
  space : sender.txNext < countSpace

/-- From any COUNT on, and in whatever order the PDUs of a bearer arrive, are repeated or lost, its SDUs
are delivered as sent, once and in order, as long as the last COUNT is not used. -/
theorem pdcp_round_trip (crypto : Crypto) (xors : crypto.XorsKeystream) {sender receiver : PdcpEntity}
    (peers : Peers sender receiver) (inStep : InStep sender receiver) (ops : List LinkOp)
    (legal : Steps (Link.step crypto) (fun link op => op.Usual link ∧ op.AvoidsWrap link)
      { sender := sender, receiver := receiver, count := sender.txNext } ops) :
    Along (Link.step crypto) (Link.Faithful crypto sender.txNext)
      { sender := sender, receiver := receiver, count := sender.txNext } ops := by
  have start : Link.Synced crypto sender.txNext
      { sender := sender, receiver := receiver, count := sender.txNext } := by
    obtain ⟨⟨size, high, window⟩, active, type, snSize, snMax, rbId, sides, sdap, ciphering, integrity⟩ := peers
    refine ⟨⟨⟨size, high, window⟩, active, type, snSize, snMax, rbId, sides, sdap, ciphering, integrity⟩, rfl,
      ⟨le_refl _, inStep.space⟩, by simp, ⟨⟨?_, ?_⟩, by simp [inStep.list]⟩, inStep.deliv, rfl,
      by simp [inStep.list], by simp⟩
    · rw [inStep.list, inStep.deliv, inStep.next]
      exact Reorder.Ok.empty _
    · rw [inStep.next]
      exact inStep.space
  intro front inside link reached
  refine Link.Synced.faithful xors (invariant_along ?_ _ ops start legal front inside link reached)
  intro link op after synced allowed taken
  cases op with
  | send sdu => exact synced.send allowed.1 allowed.2 taken
  | arrive packet => exact synced.arrive xors allowed.1 taken

def bearerEnd (isGnb : Bool) (count : Nat) : PdcpEntity where
  type := .drbAm
  isGnb := isGnb
  rbId := 1
  hasSdapRx := false
  hasSdapTx := false
  snSize := 12
  tReordering := 100
  snMax := 4095
  windowSize := 2048
  txNext := count
  rxDeliv := count
  rxNext := count

theorem bearerEnd_peers (count : Nat) : Peers (bearerEnd true count) (bearerEnd false count) :=
  ⟨⟨.inl rfl, rfl, rfl⟩, ⟨rfl, rfl⟩, rfl, rfl, rfl, rfl, rfl, rfl, ⟨rfl, rfl⟩, ⟨rfl, rfl⟩⟩

def swapped (count : Nat) : List LinkOp :=
  [.send [7#8], .send [8#8],
    .arrive ⟨count + 1, [8#8], (bearerEnd true 0).pduHeader ((count + 1) % 4096) ++ [8#8]⟩,
    .arrive ⟨count, [7#8], (bearerEnd true 0).pduHeader (count % 4096) ++ [7#8]⟩]

theorem pdcp_round_trip_swapped :
    Along (Link.step plainCrypto) (Link.Faithful plainCrypto 0)
      { sender := bearerEnd true 0, receiver := bearerEnd false 0, count := 0 } (swapped 0) := by
  refine pdcp_round_trip plainCrypto ⟨fun _ _ _ _ _ => 0, fun _ buffer _ _ _ => ?_⟩ (bearerEnd_peers 0)
    ⟨rfl, rfl, rfl, countSpace_pos⟩ _ (steps_of_check (by decide +kernel))
  apply ext_getElem <;> simp [plainCrypto]

/-- At the end of the COUNT space the second SDU gets COUNT 0, is taken for an old one and discarded. -/
theorem pdcp_round_trip_wraps :
    ∃ link, Steps (Link.step plainCrypto) (fun link op => op.Usual link)
        { sender := bearerEnd true (countSpace - 1), receiver := bearerEnd false (countSpace - 1),
          count := countSpace - 1 } (swapped (countSpace - 1)) ∧
      run (Link.step plainCrypto)
        { sender := bearerEnd true (countSpace - 1), receiver := bearerEnd false (countSpace - 1),
          count := countSpace - 1 } (swapped (countSpace - 1)) = some link ∧
      ¬ link.Faithful plainCrypto (countSpace - 1) := by
  have reached : (run (Link.step plainCrypto)
      { sender := bearerEnd true (countSpace - 1), receiver := bearerEnd false (countSpace - 1),
        count := countSpace - 1 } (swapped (countSpace - 1))).map (fun link =>
          (link.arrived.map Packet.count, link.delivered.length)) =
      some ([countSpace - 1, countSpace], 1) := by
    decide
  obtain ⟨link, ran, shown⟩ := Option.map_eq_some_iff.mp reached
  obtain ⟨arrived, delivered⟩ := Prod.mk.inj shown
  refine ⟨link, steps_of_check (by decide), ran, fun faithful => ?_⟩
  have both := faithful.complete (countSpace + 1) (fun other low high => by
    apply mem_map.mp
    rw [arrived]
    have : other = countSpace - 1 ∨ other = countSpace := by omega
    simpa using this)
  rw [delivered] at both
  revert both
  decide

end OranSlice.Pdcp
