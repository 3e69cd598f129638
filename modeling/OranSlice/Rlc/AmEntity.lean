import OranSlice.Rlc.Lists

/-! The state of an AM entity, its creation and its reconfiguration. -/

namespace OranSlice.Rlc

structure AmConfig where
  (tPollRetransmit tReassembly tStatusProhibit : Nat)
  /-- A value of -1 means infinity, here and for `pollByte`. -/
  (pollPdu pollByte maxRetxThreshold : Int)
  snFieldLength : Nat
  (snModulus windowSize rxMaxsize txMaxsize : Int)
deriving DecidableEq, Repr

/-- The receiving side. Timers hold the time of their start, or 0. -/
structure AmRx where
  (rxNext rxNextStatusTrigger rxHighestStatus rxNextHighest : Int := 0)
  statusTriggered : Bool := false
  (tReassemblyStart tStatusProhibitStart : Nat := 0)
  rxList : List Pdu := []
  rxSize : Int := 0
deriving DecidableEq, Repr

/-- How many segments an SDU has been cut into and how many of them were freed, and the
number of its retransmissions. -/
structure SduCounts where
  refCount : Int := 1
  freeCount : Int := 0
  retxCount : Int := -1
deriving DecidableEq, Repr

/-- The transmitting side. `counts` holds the counters of all SDUs ever created, under
their identities. -/
structure AmTx where
  (txNext txNextAck pollSn pduWithoutPoll byteWithoutPoll : Int := 0)
  forcePoll : Bool := false
  tPollRetransmitStart : Nat := 0
  (txList waitList retransmitList : List SduSegment := [])
  (txSize bstatusTxSize bstatusRetxSize : Int := 0)
  counts : Nat → SduCounts := fun _ => {}
  created : Nat := 0

structure AmEntity where
  cfg : AmConfig
  rx : AmRx := {}
  tx : AmTx := {}
  tCurrent : Nat := 0

inductive AmEvent where
  | deliverSdu (buffer : List BitCodec.Byte)
  | sduSuccessfulDelivery (sdu : Sdu)
  | maxRetxReached
deriving DecidableEq, Repr

structure AmParams where
  (tPollRetransmit tReassembly tStatusProhibit : Nat)
  (pollPdu pollByte maxRetxThreshold : Int)
deriving DecidableEq, Repr

/-- Creation asserts an SN field length of 12 or 18. -/
def newNrRlcEntityAm (rxMaxsize txMaxsize : Int) (params : AmParams) (snFieldLength : Nat) :
    Option AmEntity :=
  if snFieldLength = 12 ∨ snFieldLength = 18 then
    some { cfg := {
      tPollRetransmit := params.tPollRetransmit
      tReassembly := params.tReassembly
      tStatusProhibit := params.tStatusProhibit
      pollPdu := params.pollPdu
      pollByte := params.pollByte
      maxRetxThreshold := params.maxRetxThreshold
      snFieldLength := snFieldLength
      snModulus := 2 ^ snFieldLength
      windowSize := 2 ^ snFieldLength / 2
      rxMaxsize := rxMaxsize
      txMaxsize := txMaxsize } }
  else none

def AmConfig.Admitted (cfg : AmConfig) : Prop := cfg.snFieldLength = 12 ∨ cfg.snFieldLength = 18

structure AmConfig.Sound (cfg : AmConfig) : Prop where
  admitted : cfg.Admitted
  modulus : cfg.snModulus = 2 ^ cfg.snFieldLength
  window : cfg.windowSize = cfg.snModulus / 2

namespace AmConfig.Sound

variable {cfg : AmConfig}

theorem window_pos (sound : cfg.Sound) : 0 < cfg.windowSize := by
  rw [sound.window, sound.modulus]
  rcases sound.admitted with short | long
  · rw [short]
    decide
  · rw [long]
    decide

theorem modulus_eq (sound : cfg.Sound) : cfg.snModulus = 2 * cfg.windowSize := by
  rw [sound.window, sound.modulus]
  rcases sound.admitted with short | long
  · rw [short]
    decide
  · rw [long]
    decide

theorem modulus_large (sound : cfg.Sound) : 255 < cfg.snModulus := by
  rw [sound.modulus]
  rcases sound.admitted with short | long
  · rw [short]
    decide
  · rw [long]
    decide

theorem toNat_lt (sound : cfg.Sound) {sn : Int} (low : 0 ≤ sn) (high : sn < cfg.snModulus) :
    sn.toNat < 2 ^ cfg.snFieldLength := by
  rw [sound.modulus, ← Int.toNat_of_nonneg low] at high
  exact_mod_cast high

end AmConfig.Sound

theorem newNrRlcEntityAm_sound {rxMaxsize txMaxsize : Int} {params : AmParams} {snFieldLength : Nat}
    {entity : AmEntity} (created : newNrRlcEntityAm rxMaxsize txMaxsize params snFieldLength = some entity) :
    entity.cfg.Sound ∧ entity.rx = {} ∧ entity.tx = {} ∧ entity.tCurrent = 0 := by
  unfold newNrRlcEntityAm at created
  split at created
  · rename_i admitted
    cases created
    exact ⟨⟨admitted, rfl, rfl⟩, rfl, rfl, rfl⟩
  · cases created

/-- A reconfiguration may change the SN field length; modulus and window size stay. -/
def AmEntity.reconfigure (entity : AmEntity) (params : AmParams) (snFieldLength : Option Nat) :
    AmEntity :=
  { entity with cfg := { entity.cfg with
      tPollRetransmit := params.tPollRetransmit
      tReassembly := params.tReassembly
      tStatusProhibit := params.tStatusProhibit
      pollPdu := params.pollPdu
      pollByte := params.pollByte
      maxRetxThreshold := params.maxRetxThreshold
      snFieldLength := snFieldLength.getD entity.cfg.snFieldLength } }

def AmEntity.reestablishment (entity : AmEntity) : AmEntity :=
  { cfg := entity.cfg, tx := { created := entity.tx.created } }

def timerExpired (tCurrent start timeout : Nat) : Bool :=
  start != 0 && !decide (tCurrent ≤ (start + timeout) % 2 ^ 64)

def computePduHeaderSize (cfg : AmConfig) (segment : SduSegment) : Nat :=
  2 + (if cfg.snFieldLength = 18 then 1 else 0) + if segment.isFirst then 0 else 2

end OranSlice.Rlc
