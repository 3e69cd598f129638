import OranSlice.Pdcp.Session

/-! PDCP ciphers no two SDUs with the same key and COUNT, as long as COUNT does not wrap under a key. -/

namespace OranSlice.Pdcp

open BitCodec Runs List

variable {crypto : Crypto} {entity : PdcpEntity} {session next : Session} {op : PdcpOp}

/-- The keys that operations bring: re-establishment installs one that was never used to cipher, and
other calls keep the key. -/
def PdcpOp.FreshKeys (session : Session) : PdcpOp → Prop
  | .reestablish parameters => parameters.cipheringAlgorithm ≠ -1 ∧
      ∀ use ∈ session.ciphered, use.1 ≠ parameters.cipheringKey
  | .setSecurity parameters => parameters.cipheringAlgorithm = -1 ∨
      parameters.cipheringKey = session.entity.securityKeysAndAlgos.cipheringKey
  | .recvPdu _ => True
  | .setTime _ => True
  | .processSdu _ _ => True
  | .suspend => True

def PdcpOp.InCountSpace (session : Session) : PdcpOp → Prop
  | .processSdu _ _ => session.processed < countSpace
  | .reestablish _ => True
  | .setSecurity _ => True
  | .recvPdu _ => True
  | .setTime _ => True
  | .suspend => True

instance (session : Session) (op : PdcpOp) : Decidable (op.FreshKeys session) :=
  match op with
  | .reestablish _ => inferInstanceAs (Decidable (_ ∧ _))
  | .setSecurity _ => inferInstanceAs (Decidable (_ ∨ _))
  | .recvPdu _ | .setTime _ | .processSdu _ _ | .suspend => .isTrue trivial

instance (session : Session) (op : PdcpOp) : Decidable (op.InCountSpace session) :=
  match op with
  | .processSdu _ _ => inferInstanceAs (Decidable (_ < _))
  | .reestablish _ | .setSecurity _ | .recvPdu _ | .setTime _ | .suspend => .isTrue trivial

def PdcpEntity.KeyInUse (entity : PdcpEntity) : Prop :=
  entity.hasCiphering = true → entity.securityContext = entity.cipheringKey

theorem PdcpEntity.KeyInUse.setSecurity {parameters : SecurityKeysAndAlgos} {after : PdcpEntity}
    (inUse : entity.KeyInUse) (set : entity.setSecurity parameters = some after) : after.KeyInUse := by
  obtain ⟨hasCiphering, _, stored, context, _, rfl, key, ciphering⟩ := PdcpEntity.setSecurity_eq set
  intro on
  rcases ciphering with ⟨same, kept, none⟩ | changed
  · rw [kept, inUse (same ▸ on), PdcpEntity.cipheringKey, PdcpEntity.cipheringKey, key, if_neg (not_not.mpr none)]
    rfl
  · exact changed on

structure Session.KeysOk (session : Session) : Prop where
  inUse : session.entity.KeyInUse
  space : session.entity.txNext < countSpace
  distinct : session.ciphered.Nodup
  recent : session.entity.entitySuspended = false → ∀ use ∈ session.ciphered,
    use.1 = session.entity.cipheringKey →
      ∃ age < session.processed, (use.2 + age + 1) % countSpace = session.entity.txNext
  counts : ∀ use ∈ session.ciphered, use.2 < countSpace

namespace Session.KeysOk

section

variable (ok : session.KeysOk)

include ok

variable {result : PdcpEntity × List PdcpSdu} {parameters : SecurityKeysAndAlgos} {after : PdcpEntity}

theorem deliver (same : result.1.frame = session.entity.frame) : (session.deliver result).KeysOk := by
  have txNext : result.1.txNext = session.entity.txNext := (congrArg PdcpEntity.txNext same :)
  have key : result.1.cipheringKey = session.entity.cipheringKey := (congrArg PdcpEntity.cipheringKey same :)
  have on : result.1.hasCiphering = session.entity.hasCiphering := (congrArg PdcpEntity.hasCiphering same :)
  have context : result.1.securityContext = session.entity.securityContext :=
    (congrArg PdcpEntity.securityContext same :)
  have suspended : result.1.entitySuspended = session.entity.entitySuspended :=
    (congrArg PdcpEntity.entitySuspended same :)
  refine ⟨?_, ?_, ok.distinct, ?_, ok.counts⟩
  · intro ciphers
    exact context.trans ((ok.inUse (on.symm.trans ciphers)).trans key.symm)
  · change result.1.txNext < countSpace
    rw [txNext]
    exact ok.space
  · intro active use member used
    change ∃ age < session.processed, (use.2 + age + 1) % countSpace = result.1.txNext
    rw [txNext]
    exact ok.recent (suspended.symm.trans active) use member (used.trans key)

theorem send (active : session.entity.entitySuspended = false)
    (left : session.processed < countSpace) (pdu : List Byte) :
    (session.send { session.entity with txNext := (session.entity.txNext + 1) % countSpace } (some pdu)).KeysOk := by
  have known : ∀ use ∈ session.keystream, use = (session.entity.cipheringKey, session.entity.txNext) := by
    intro use member
    unfold Session.keystream at member
    split_ifs at member with on
    · rw [mem_singleton.mp member, ok.inUse on]
    · cases member
  refine ⟨ok.inUse, Nat.mod_lt _ countSpace_pos, ?_, ?_, ?_⟩
  · apply List.Nodup.append ok.distinct
    · unfold Session.keystream
      split <;> simp
    · intro use old new
      rw [known use new] at old
      -- a use of TX_NEXT under this key would be a whole COUNT space ago
      obtain ⟨age, young, same⟩ := ok.recent active _ old rfl
      unfold countSpace at *
      omega
  · intro _ use member used
    change ∃ age < session.processed + 1, (use.2 + age + 1) % countSpace = (session.entity.txNext + 1) % countSpace
    rcases mem_append.mp member with old | new
    · obtain ⟨age, young, same⟩ := ok.recent active use old used
      refine ⟨age + 1, by omega, ?_⟩
      rw [← same, Nat.mod_add_mod]
      rfl
    · rw [known use new]
      exact ⟨0, by omega, rfl⟩
  · intro use member
    rcases mem_append.mp member with old | new
    · exact ok.counts use old
    · rw [known use new]
      exact ok.space

theorem suspend : (session.deliver session.entity.suspend).KeysOk := by
  have same := session.entity.flushReordering_frame
  have key := (congrArg PdcpEntity.cipheringKey same :)
  have on := (congrArg PdcpEntity.hasCiphering same :)
  have context := (congrArg PdcpEntity.securityContext same :)
  refine ⟨?_, countSpace_pos, ok.distinct, ?_, ok.counts⟩
  · intro ciphers
    exact context.trans ((ok.inUse (on.symm.trans ciphers)).trans key.symm)
  · intro active
    cases active

theorem reestablishState :
    session.entity.reestablishState.1.KeyInUse ∧ session.entity.reestablishState.1.txNext < countSpace := by
  unfold PdcpEntity.reestablishState
  split
  · exact ⟨ok.inUse, ok.space⟩
  · have flushed := ok.suspend
    exact ⟨flushed.inUse, flushed.space⟩
  · exact ⟨ok.inUse, countSpace_pos⟩

theorem setSecurity (fresh : (PdcpOp.setSecurity parameters).FreshKeys session)
    (set : session.entity.setSecurity parameters = some after) : Session.KeysOk { session with entity := after } := by
  have inUse := ok.inUse.setSecurity set
  obtain ⟨_, _, stored, _, _, rfl, key, _⟩ := PdcpEntity.setSecurity_eq set
  have kept : stored.cipheringKey = session.entity.cipheringKey := by
    rw [key]
    split_ifs with given
    · exact fresh.resolve_left given
    · rfl
  refine ⟨inUse, ok.space, ok.distinct, ?_, ok.counts⟩
  intro active use member used
  exact ok.recent active use member (used.trans kept)

theorem reestablish (fresh : (PdcpOp.reestablish parameters).FreshKeys session)
    (reestablished : session.entity.reestablish parameters = some result) :
    Session.KeysOk { session with entity := result.1, delivered := [], processed := 0 } := by
  obtain ⟨after, set, rfl⟩ := Option.map_eq_some_iff.mp reestablished
  obtain ⟨inUse, space⟩ := ok.reestablishState
  have inUse := inUse.setSecurity set
  obtain ⟨_, _, stored, _, _, rfl, key, _⟩ := PdcpEntity.setSecurity_eq set
  rw [if_pos fresh.1] at key
  refine ⟨inUse, space, ok.distinct, ?_, ok.counts⟩
  intro _ use member used
  exact absurd (used.trans key) (fresh.2 use member)

theorem step (fresh : op.FreshKeys session) (left : op.InCountSpace session)
    (taken : session.step crypto op = some next) : next.KeysOk := by
  cases op with
  | recvPdu pdu =>
    obtain ⟨result, received, rfl⟩ := Option.map_eq_some_iff.mp taken
    rw [PdcpEntity.recvPdu_eq received]
    exact ok.deliver (PdcpEntity.takePdu_frame pdu)
  | setTime now =>
    cases taken
    exact ok.deliver PdcpEntity.checkTReordering_frame
  | suspend =>
    cases taken
    exact ok.suspend
  | processSdu buffer pduMaxSize =>
    obtain ⟨⟨entity, pdu⟩, processed, rfl⟩ := Option.map_eq_some_iff.mp taken
    rcases PdcpEntity.processSdu_cases processed with ⟨rfl, rfl⟩ | ⟨active, _, rfl, pdu, rfl⟩
    · exact ok
    · exact ok.send active left pdu
  | setSecurity parameters =>
    obtain ⟨entity, set, rfl⟩ := Option.map_eq_some_iff.mp taken
    exact ok.setSecurity fresh set
  | reestablish parameters =>
    obtain ⟨result, reestablished, rfl⟩ := Option.map_eq_some_iff.mp taken
    exact ok.reestablish fresh reestablished

end

end Session.KeysOk

/-- From creation on, no two SDUs are ciphered with the same key and COUNT, if fewer than a COUNT space
of SDUs is sent between re-establishments. -/
theorem pdcp_keystream_unused (crypto : Crypto) {type : EntityType} {isGnb : Bool} {rbId : Int}
    {hasSdapRx hasSdapTx : Bool} {snSize : Nat} {tReordering : Int} {parameters : SecurityKeysAndAlgos}
    {entity : PdcpEntity}
    (created : newNrPdcpEntity type isGnb rbId hasSdapRx hasSdapTx snSize tReordering parameters = some entity)
    (ops : List PdcpOp)
    (legal : Steps (Session.step crypto) (fun session op => op.FreshKeys session ∧ op.InCountSpace session)
      { entity := entity } ops) :
    Along (Session.step crypto) (fun session => session.ciphered.Nodup) { entity := entity } ops := by
  have start : Session.KeysOk { entity := entity } := by
    have unused : PdcpEntity.KeyInUse
        { type := type, isGnb := isGnb, rbId := rbId, hasSdapRx := hasSdapRx, hasSdapTx := hasSdapTx,
          snSize := snSize, tReordering := tReordering, snMax := 2 ^ snSize - 1, windowSize := 2 ^ (snSize - 1) } := by
      intro on
      cases on
    have inUse := unused.setSecurity created
    obtain ⟨_, _, _, _, _, rfl, _⟩ := PdcpEntity.setSecurity_eq created
    exact ⟨inUse, countSpace_pos, nodup_nil, by simp, by simp⟩
  intro front inside session reached
  exact (invariant_along (fun _ _ _ ok allowed taken => ok.step allowed.1 allowed.2 taken) _ ops start legal
    front inside session reached).distinct

def cipheringWith (key : List Byte) : SecurityKeysAndAlgos := ⟨0, 2, [], key⟩

def rekeyRun : List PdcpOp :=
  [.processSdu [7#8] 10, .processSdu [8#8] 10, .setSecurity ⟨-1, -1, [], []⟩, .suspend,
    .processSdu [9#8] 10, .reestablish (cipheringWith [2#8]), .processSdu [9#8] 10]

theorem pdcp_keystream_unused_rekeyed :
    ∃ entity, newNrPdcpEntity .srb true 1 false false shortSnSize 100 (cipheringWith [1#8]) = some entity ∧
      Along (Session.step plainCrypto) (fun session => session.ciphered.Nodup) { entity := entity } rekeyRun ∧
      (run (Session.step plainCrypto) { entity := entity } rekeyRun).map Session.ciphered =
        some [([1#8], 0), ([1#8], 1), ([2#8], 0)] := by
  have checked : (newNrPdcpEntity .srb true 1 false false shortSnSize 100 (cipheringWith [1#8])).any
      (fun entity => checkSteps (Session.step plainCrypto)
          (fun session op => op.FreshKeys session ∧ op.InCountSpace session) { entity := entity } rekeyRun &&
        decide ((run (Session.step plainCrypto) { entity := entity } rekeyRun).map Session.ciphered =
          some [([1#8], 0), ([1#8], 1), ([2#8], 0)])) = true := by decide +kernel
  obtain ⟨entity, created, legal⟩ := (Option.any_eq_true _ _).mp checked
  simp only [Bool.and_eq_true, decide_eq_true_eq] at legal
  exact ⟨entity, created, pdcp_keystream_unused plainCrypto created rekeyRun (steps_of_check legal.1), legal.2⟩

def Session.sent (session : Session) (number : Nat) : Session :=
  { session with
    entity := { session.entity with txNext := (session.entity.txNext + number) % countSpace }
    processed := session.processed + number }

theorem run_processSdu (crypto : Crypto) {buffer : List Byte} {pduMaxSize : Nat}
    (fits : PdcpEntity.nrMaxPdcpPduSize buffer.length ≤ pduMaxSize) (active : session.entity.entitySuspended = false)
    (clear : session.entity.hasCiphering = false) (unchecked : session.entity.hasIntegrity = false)
    (space : session.entity.txNext < countSpace) (number : Nat) :
    run (Session.step crypto) session (replicate number (.processSdu buffer pduMaxSize)) =
      some (session.sent number) := by
  induction number with
  | zero =>
    simp [Session.sent, Nat.mod_eq_of_lt space]
  | succ number ih =>
    rw [replicate_succ', run_append, ih, Option.bind_some, run_cons]
    have taken : (session.sent number).step crypto (.processSdu buffer pduMaxSize) =
        some (session.sent (number + 1)) := by
      obtain ⟨pdu, sent⟩ := @PdcpEntity.processSdu_active crypto (session.sent number).entity _ _ fits active
        (by simp [PdcpEntity.SendAsserts, PdcpEntity.AssertsHold, Session.sent, clear, unchecked])
      change (PdcpEntity.processSdu _ _ _ _).map _ = _
      rw [sent]
      simp [Session.send, Session.keystream, Session.sent, clear, add_assoc]
    rw [taken]
    rfl

/-- One SDU is ciphered, then ciphering is off for all other COUNTs and on again, with the key kept. -/
def switchedRun : List PdcpOp :=
  [.processSdu [7#8] 8, .setSecurity ⟨0, 0, [], [1#8]⟩] ++ (replicate (countSpace - 1) (.processSdu [7#8] 8) ++
    [.setSecurity (cipheringWith [1#8]), .processSdu [7#8] 8])

def switchedBearer (algorithm : Int) (txNext : Nat) : PdcpEntity where
  type := .drbAm
  isGnb := true
  rbId := 1
  hasSdapRx := false
  hasSdapTx := false
  snSize := 12
  tReordering := 100
  snMax := 4095
  windowSize := 2048
  txNext := txNext
  hasCiphering := algorithm = 2
  securityKeysAndAlgos := ⟨0, algorithm, [], [1#8]⟩
  securityContext := [1#8]

/-- TX_NEXT wraps while ciphering is off: the last SDU is ciphered as the first one, with COUNT 0. -/
theorem pdcp_keystream_reused :
    ∃ entity, newNrPdcpEntity .drbAm true 1 false false 12 100 (cipheringWith [1#8]) = some entity ∧
      ∀ crypto, Steps (Session.step crypto) (fun session op => op.FreshKeys session) { entity := entity }
          switchedRun ∧
        ∃ session, run (Session.step crypto) { entity := entity } switchedRun = some session ∧
          ¬ session.ciphered.Nodup := by
  refine ⟨switchedBearer 2 0, rfl, fun crypto => ?_⟩
  have first : run (Session.step crypto) { entity := switchedBearer 2 0 }
      [.processSdu [7#8] 8, .setSecurity ⟨0, 0, [], [1#8]⟩] =
      some { entity := switchedBearer 0 1, processed := 1, ciphered := [([1#8], 0)] } := rfl
  have wrapped : run (Session.step crypto) { entity := switchedBearer 0 1, processed := 1, ciphered := [([1#8], 0)] }
      (replicate (countSpace - 1) (.processSdu [7#8] 8)) =
      some { entity := switchedBearer 0 0, processed := countSpace, ciphered := [([1#8], 0)] } :=
    run_processSdu crypto (by decide) rfl rfl rfl (by decide) (countSpace - 1)
  have last : run (Session.step crypto)
      { entity := switchedBearer 0 0, processed := countSpace, ciphered := [([1#8], 0)] }
      [.setSecurity (cipheringWith [1#8]), .processSdu [7#8] 8] =
      some { entity := switchedBearer 2 1, processed := countSpace + 1, ciphered := [([1#8], 0), ([1#8], 0)] } := rfl
  have whole : run (Session.step crypto) { entity := switchedBearer 2 0 } switchedRun =
      some { entity := switchedBearer 2 1, processed := countSpace + 1, ciphered := [([1#8], 0), ([1#8], 0)] } := by
    rw [switchedRun, run_append, first, Option.bind_some, run_append, wrapped, Option.bind_some, last]
  refine ⟨?_, _, whole, by decide⟩
  refine steps_append.mpr ⟨steps_of_check (by rfl), fun middle reached => ?_⟩
  cases first.symm.trans reached
  refine steps_append.mpr ⟨?_, fun middle reached => ?_⟩
  · intro front op inside _ _ _ _
    have member : op ∈ replicate (countSpace - 1) (.processSdu [7#8] 8) := inside.subset (by simp)
    rw [eq_of_mem_replicate member]
    trivial
  · cases wrapped.symm.trans reached
    exact steps_of_check (by rfl)

end OranSlice.Pdcp
