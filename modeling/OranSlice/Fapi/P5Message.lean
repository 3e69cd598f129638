import OranSlice.Fapi.Tlv

/-! Unpacking P5 messages. The tag and length stored with each value are left out: they go to the same
element, so an element is accessed before its value is pulled. -/

namespace OranSlice.Fapi

open BitCodec Walk List

inductive OccasionField where
  | prachRootSequenceIndex
  | numRootSequences
  | k1
  | prachZeroCorrConf
deriving DecidableEq, Repr

inductive GridArray where
  | dlGridSize
  | dlK0
  | ulGridSize
  | ulK0
deriving DecidableEq, Repr

inductive ConfigTlv where
  | field (kind : ValueKind)
  | grid (array : GridArray)
  | numPrachFdOccasions
  | scsCommon
  | occasion (part : OccasionField)
  | numUnusedRootSequences
  | unusedRootSequences
  | ssbMask
  | beamId
  | slotConfig
deriving DecidableEq, Repr

def OccasionField.width : OccasionField → Nat
  | prachRootSequenceIndex => 2
  | numRootSequences => 1
  | k1 => 2
  | prachZeroCorrConf => 1

def ConfigTlv.width : ConfigTlv → Nat
  | field kind => kind.width
  | grid _ => 10
  | numPrachFdOccasions => 1
  | scsCommon => 1
  | occasion part => part.width
  | numUnusedRootSequences => 2
  | unusedRootSequences => 2
  | ssbMask => 4
  | beamId => 1
  | slotConfig => 1

def scsCommonTag : Nat := 0x1010

def configUnpackFns : List (Nat × ConfigTlv) := [
  (0x1001, .field .uint16), -- dl_bandwidth
  (0x1002, .field .uint32), -- dl_frequency
  (0x1004, .grid .dlGridSize),
  (0x1003, .grid .dlK0),
  (0x1005, .field .uint16), -- num_tx_ant
  (0x1006, .field .uint16), -- uplink_bandwidth
  (0x1007, .field .uint32), -- uplink_frequency
  (0x1009, .grid .ulGridSize),
  (0x1008, .grid .ulK0),
  (0x100A, .field .uint16), -- num_rx_ant
  (0x100B, .field .uint8), -- frequency_shift_7p5khz
  (0x100C, .field .uint16), -- phy_cell_id
  (0x100D, .field .uint8), -- frame_duplex_type
  (0x100E, .field .uint32), -- ss_pbch_power
  (0x100F, .field .uint8), -- bch_payload
  (0x1010, .scsCommon),
  (0x1011, .field .uint8), -- prach_sequence_length
  (0x1012, .field .uint8), -- prach_sub_c_spacing
  (0x1013, .field .uint8), -- restricted_set_config
  (0x1014, .numPrachFdOccasions),
  (0x1029, .field .uint8), -- prach_ConfigurationIndex
  (0x1015, .occasion .prachRootSequenceIndex),
  (0x1016, .occasion .numRootSequences),
  (0x1017, .occasion .k1),
  (0x1018, .occasion .prachZeroCorrConf),
  (0x1019, .numUnusedRootSequences),
  (0x101A, .unusedRootSequences),
  (0x101B, .field .uint8), -- ssb_per_rach
  (0x101C, .field .uint8), -- prach_multiple_carriers_in_a_band
  (0x101D, .field .uint16), -- ssb_offset_point_a
  (0x101E, .field .uint8), -- beta_pss
  (0x101F, .field .uint8), -- ssb_period
  (0x1020, .field .uint8), -- ssb_subcarrier_offset
  (0x1021, .field .uint32), -- MIB
  (0x1022, .ssbMask),
  (0x1023, .beamId),
  (0x1024, .field .uint8), -- ss_pbch_multiple_carriers_in_a_band
  (0x1025, .field .uint8), -- multiple_cells_ss_pbch_in_a_carrier
  (0x1026, .field .uint8), -- tdd_period
  (0x1027, .slotConfig),
  (0x1028, .field .uint8), -- rssi_measurement
  (0x0100, .field .ipv4Address), -- p7_vnf_address_ipv4
  (0x0101, .field .ipv6Address), -- p7_vnf_address_ipv6
  (0x0102, .field .uint16), -- p7_vnf_port
  (0x011E, .field .uint8), -- timing_window
  (0x011F, .field .uint8), -- timing_info_mode
  (0x0120, .field .uint8), -- timing_info_period
  (0x0104, .field .ipv6Address), -- p7_pnf_address_ipv6
  (0x0105, .field .uint16)] -- p7_pnf_port

/-- Allocated without being cleared, so the list starts as a pointer that points nowhere. -/
structure PrachFdOccasion where
  fields : OccasionField → Nat := fun _ => 0
  numUnusedRootSequences : Nat := 0
  unusedRootSequencesList : Option (List Nat) := none

structure ConfigRequest where
  numTlv : Nat := 0
  fields : Nat → Nat := fun _ => 0
  grids : GridArray → List Nat := fun _ => replicate 5 0
  ssbMaskList : List Nat := replicate 2 0
  ssbBeamIdList : List Nat := replicate 64 0
  numPrachFdOccasionsList : Option (List PrachFdOccasion) := none
  maxTddPeriodicityList : Option (List (List Nat)) := none

structure ConfigState where
  position : Nat
  numBadTags : Nat := 0
  msg : ConfigRequest := {}
  (prachRootSeqIdx unusedRootSeqIdx ssbMaskIdx configBeamIdx tddPeriodicityIdx symbolPerSlotIdx : Nat := 0)
  /-- Set by the case of the common subcarrier spacing, and kept until the case of a slot configuration reads it. -/
  numberOfSymbolsPerSlot : Option Nat := none

def slotsperframe : List Nat := [10, 20, 40, 80, 160]

def deref {α : Type} : Option α → Except Fault α
  | some target => .ok target
  | none => .error .outOfBounds

variable (config : Option VendorCodec) (fuel : Nat) (message : List Byte) (position tag : Nat)
  (s : ConfigState)

def setField (tag : Nat) (value : Option Nat) : ConfigState :=
  { s with msg := { s.msg with fields := Function.update s.msg.fields tag (value.getD (s.msg.fields tag)) } }

def setOccasion (list : List PrachFdOccasion) (occasion : PrachFdOccasion) : ConfigState :=
  { s with msg := { s.msg with numPrachFdOccasionsList := some (list.set s.prachRootSeqIdx occasion) } }

/-- The loop over an array with a value for each numerology; the result is that of the last value. -/
def unpackGrid (message : List Byte) : List Nat → List Nat → Bool → Nat → Except Fault (Bool × List Nat × Nat)
  | [], array, result, position => .ok (result, array, position)
  | i :: rest, array, _, position => do
      let old ← readAt array i
      let (value, position) ← pull16 message position
      unpackGrid message rest (array.set i (value.getD old)) value.isSome position

def unpackConfigTlv : ConfigTlv → Except Fault (Bool × ConfigState)
  | .field kind => do
      let (value, position) ← pull kind.width message s.position
      return (value.isSome, { setField s tag value with position })
  | .grid array => do
      let (result, values, position) ← unpackGrid message [0, 1, 2, 3, 4] (s.msg.grids array) false s.position
      return (result, { s with position, msg := { s.msg with grids := Function.update s.msg.grids array values } })
  | .numPrachFdOccasions => do
      let (value, position) ← pull8 message s.position
      let s := setField s tag value
      return (value.isSome, { s with
        position
        msg := { s.msg with numPrachFdOccasionsList := some (replicate (s.msg.fields tag) {}) }
        prachRootSeqIdx := 0 })
  | .scsCommon => do
      let (value, position) ← pull8 message s.position
      let s := setField s tag value
      let slots ← readAt slotsperframe (s.msg.fields tag)
      -- the cyclic prefix is taken to be the extended one
      let numberOfSymbolsPerSlot := 12
      return (value.isSome, { s with
        position
        msg := { s.msg with
          maxTddPeriodicityList := some (replicate slots (replicate numberOfSymbolsPerSlot 0)) }
        numberOfSymbolsPerSlot := some numberOfSymbolsPerSlot })
  | .occasion part => do
      let list ← deref s.msg.numPrachFdOccasionsList
      let occasion ← readAt list s.prachRootSeqIdx
      let (value, position) ← pull part.width message s.position
      let fields := Function.update occasion.fields part (value.getD (occasion.fields part))
      return (value.isSome, { setOccasion s list { occasion with fields } with position })
  | .numUnusedRootSequences => do
      let list ← deref s.msg.numPrachFdOccasionsList
      let occasion ← readAt list s.prachRootSeqIdx
      let (value, position) ← pull16 message s.position
      -- two bytes are stored where the field has one, which keeps the low byte
      let count := (value.map (· % 256)).getD occasion.numUnusedRootSequences
      let occasion := { occasion with
        numUnusedRootSequences := count
        unusedRootSequencesList := some (replicate count 0) }
      return (value.isSome, { setOccasion s list occasion with position, unusedRootSeqIdx := 0 })
  | .unusedRootSequences => do
      let list ← deref s.msg.numPrachFdOccasionsList
      let occasion ← readAt list s.prachRootSeqIdx
      let sequences ← deref occasion.unusedRootSequencesList
      let old ← readAt sequences s.unusedRootSeqIdx
      let (value, position) ← pull16 message s.position
      let sequences := sequences.set s.unusedRootSeqIdx ((value.map (· % 256)).getD old)
      let after := setOccasion s list { occasion with unusedRootSequencesList := some sequences }
      if s.unusedRootSeqIdx + 1 ≥ occasion.numUnusedRootSequences then
        return (value.isSome, { after with
          position, prachRootSeqIdx := s.prachRootSeqIdx + 1, unusedRootSeqIdx := 0 })
      else return (value.isSome, { after with position, unusedRootSeqIdx := s.unusedRootSeqIdx + 1 })
  | .ssbMask => do
      let old ← readAt s.msg.ssbMaskList s.ssbMaskIdx
      let (value, position) ← pull32 message s.position
      return (value.isSome, { s with
        position
        msg := { s.msg with ssbMaskList := s.msg.ssbMaskList.set s.ssbMaskIdx (value.getD old) }
        ssbMaskIdx := s.ssbMaskIdx + 1 })
  | .beamId => do
      let old ← readAt s.msg.ssbBeamIdList s.configBeamIdx
      let (value, position) ← pull8 message s.position
      return (value.isSome, { s with
        position
        msg := { s.msg with ssbBeamIdList := s.msg.ssbBeamIdList.set s.configBeamIdx (value.getD old) }
        configBeamIdx := s.configBeamIdx + 1 })
  | .slotConfig => do
      let list ← deref s.msg.maxTddPeriodicityList
      let slot ← readAt list s.tddPeriodicityIdx
      let old ← readAt slot s.symbolPerSlotIdx
      let (value, position) ← pull8 message s.position
      let slot := slot.set s.symbolPerSlotIdx (value.getD old)
      let numberOfSymbolsPerSlot ← deref s.numberOfSymbolsPerSlot
      let symbolPerSlotIdx := (s.symbolPerSlotIdx + 1) % numberOfSymbolsPerSlot
      return (value.isSome, { s with
        position
        msg := { s.msg with maxTddPeriodicityList := some (list.set s.tddPeriodicityIdx slot) }
        symbolPerSlotIdx
        tddPeriodicityIdx := if symbolPerSlotIdx = 0 then s.tddPeriodicityIdx + 1 else s.tddPeriodicityIdx })

def configTurn :
    Except Fault (Turn ConfigState (Nat × ConfigRequest)) :=
  if s.position < message.length then do
    match ← unpackTl message s.position with
    | (none, _) => return .stop (0, s.msg)
    | (some tl, position) =>
      match configUnpackFns.lookup tl.tag with
      | some row =>
        match ← unpackConfigTlv message tl.tag { s with position } row with
        | (false, s) => return .stop (0, s.msg)
        | (true, s) => return .again { s with position := s.position + getTlvPadding tl.length }
      | none =>
        match skipTlv config message tl position s.numBadTags with
        | none => return .stop (0, s.msg)
        | some (position, numBadTags) => return .again { s with position, numBadTags }
  else return .stop (1, s.msg)

def unpackNrConfigRequest :
    Except Fault (Nat × ConfigRequest) := do
  -- goes on if the number of TLVs is not there
  let (numTlv, position) ← pull8 message position
  walk (configTurn config message) fuel { position, msg := { numTlv := numTlv.getD 0 } }

def paramUnpackFns : List (Nat × ParamTlv) := [
  (0x0001, .value .uint16), -- release_capability
  (0x0002, .value .uint16), -- phy_state
  (0x0003, .value .uint8), -- skip_blank_dl_config
  (0x0004, .value .uint8), -- skip_blank_ul_config
  (0x0005, .configTlvsToReport),
  (0x0006, .value .uint8), -- cyclic_prefix
  (0x0007, .value .uint16), -- supported_subcarrier_spacings_dl
  (0x0008, .value .uint16), -- supported_bandwidth_dl
  (0x0009, .value .uint8), -- supported_subcarrier_spacings_ul
  (0x000A, .value .uint16), -- supported_bandwidth_ul
  (0x000B, .value .uint8), -- cce_mapping_type
  (0x000C, .value .uint8), -- coreset_outside_first_3_of_ofdm_syms_of_slot
  (0x000D, .value .uint8), -- coreset_precoder_granularity_coreset
  (0x000E, .value .uint8), -- pdcch_mu_mimo
  (0x000F, .value .uint8), -- pdcch_precoder_cycling
  (0x0010, .value .uint8), -- max_pdcch_per_slot
  (0x0011, .value .uint8), -- pucch_formats
  (0x0012, .value .uint8), -- max_pucchs_per_slot
  (0x0013, .value .uint8), -- pdsch_mapping_type
  (0x0014, .value .uint8), -- pdsch_allocation_types
  (0x0015, .value .uint8), -- pdsch_vrb_to_prb_mapping
  (0x0016, .value .uint8), -- pdsch_cbg
  (0x0017, .value .uint8), -- pdsch_dmrs_config_types
  (0x0018, .value .uint8), -- pdsch_dmrs_max_length
  (0x0019, .value .uint8), -- pdsch_dmrs_additional_pos
  (0x001A, .value .uint8), -- max_pdsch_tbs_per_slot
  (0x001B, .value .uint8), -- max_number_mimo_layers_pdsch
  (0x001C, .value .uint8), -- supported_max_modulation_order_dl
  (0x001D, .value .uint8), -- max_mu_mimo_users_dl
  (0x001E, .value .uint8), -- pdsch_data_in_dmrs_symbols
  (0x001F, .value .uint8), -- premption_support
  (0x0020, .value .uint8), -- pdsch_non_slot_support
  (0x0021, .value .uint8), -- uci_mux_ulsch_in_pusch
  (0x0022, .value .uint8), -- uci_only_pusch
  (0x0023, .value .uint8), -- pusch_frequency_hopping
  (0x0024, .value .uint8), -- pusch_dmrs_config_types
  (0x0025, .value .uint8), -- pusch_dmrs_max_len
  (0x0026, .value .uint8), -- pusch_dmrs_additional_pos
  (0x0027, .value .uint8), -- pusch_cbg
  (0x0028, .value .uint8), -- pusch_mapping_type
  (0x0029, .value .uint8), -- pusch_allocation_types
  (0x002A, .value .uint8), -- pusch_vrb_to_prb_mapping
  (0x002B, .value .uint8), -- pusch_max_ptrs_ports
  (0x002C, .value .uint8), -- max_pduschs_tbs_per_slot
  (0x002D, .value .uint8), -- max_number_mimo_layers_non_cb_pusch
  (0x002E, .value .uint8), -- supported_modulation_order_ul
  (0x002F, .value .uint8), -- max_mu_mimo_users_ul
  (0x0030, .value .uint8), -- dfts_ofdm_support
  (0x0031, .value .uint8), -- pusch_aggregation_factor
  (0x0032, .value .uint8), -- prach_long_formats
  (0x0033, .value .uint16), -- prach_short_formats
  (0x0034, .value .uint8), -- prach_restricted_sets
  (0x0035, .value .uint8), -- max_prach_fd_occasions_in_a_slot
  (0x0036, .value .uint8), -- rssi_measurement_support
  (0x0100, .value .ipv4Address), -- p7_vnf_address_ipv4
  (0x0101, .value .ipv6Address), -- p7_vnf_address_ipv6
  (0x0102, .value .uint16), -- p7_vnf_port
  (0x0103, .value .ipv4Address), -- p7_pnf_address_ipv4
  (0x0104, .value .ipv6Address), -- p7_pnf_address_ipv6
  (0x0105, .value .uint16), -- p7_pnf_port
  (0x011E, .value .uint8), -- timing_window
  (0x011F, .value .uint8), -- timing_info_mode
  (0x0120, .value .uint8)] -- timing_info_period

def pullOctets (message : List Byte) : Nat → Nat → Except Fault (List Nat × Nat)
  | 0, position => .ok ([], position)
  | count + 1, position => do
      match ← pull8 message position with
      | (none, position) => return ([], position)
      | (some value, position) =>
        let (rest, position) ← pullOctets message count position
        return (value :: rest, position)

structure ParamResponse where
  (errorCode numTlv : Nat := 0)
  tlvs : TlvList

def unpackNrParamResponse :
    Except Fault (Nat × ParamResponse) := do
  -- the message is printed first
  let _ ← readBytes message position (message.length - position)
  let (octets, position) ← pullOctets message 2 position
  let response : ParamResponse := { errorCode := octets.getD 0 0, numTlv := octets.getD 1 0, tlvs := { position } }
  if octets.length = 2 then
    let (result, tlvs) ← unpackNrTlvList config paramUnpackFns fuel message position
    return (result, { response with tlvs })
  else return (0, response)

structure ConfigResponse where
  errorCode : Nat
  (invalidTlvsList invalidTlvsConfiguredInIdleList invalidTlvsConfiguredInRunningList : List GenericTlv)
  missingTlvsList : List GenericTlv
deriving DecidableEq, Repr

def unpackNrConfigResponse :
    Except Fault (Nat × ConfigResponse) := do
  let (octets, position) ← pullOctets message 5 position
  let (invalid, position) ← unpackNrGenericTlvList (octets.getD 1 0) message position
  let (idle, position) ← unpackNrGenericTlvList (octets.getD 2 0) message position
  let (running, position) ← unpackNrGenericTlvList (octets.getD 3 0) message position
  let (missing, position) ← unpackNrGenericTlvList (octets.getD 4 0) message position
  let (result, _) ← unpackNrTlvList config [] fuel message position
  return (if octets.length = 5 then result else 0, {
    errorCode := octets.getD 0 0
    invalidTlvsList := invalid
    invalidTlvsConfiguredInIdleList := idle
    invalidTlvsConfiguredInRunningList := running
    missingTlvsList := missing })

/-- START.request, STOP.request and STOP.indication have vendor extensions only. -/
def unpackVendorExtensions :
    Except Fault Nat := do
  let (result, _) ← unpackNrTlvList config [] fuel message position
  return result

def unpackNrStartResponse :
    Except Fault (Nat × Nat) := do
  match ← pull8 message position with
  | (none, _) => return (0, 0)
  | (some errorCode, position) =>
    let (result, _) ← unpackNrTlvList config [] fuel message position
    return (result, errorCode)

structure ErrorIndication where
  (sfn slot messageId errorCode : Nat)
deriving DecidableEq, Repr

def pullResult (width : Nat) (value : Option Nat) : Nat := if value.isSome then width else 0

def unpackNrErrorIndication :
    Except Fault (Nat × ErrorIndication) := do
  let (sfn, position) ← pull16 message position
  let (slot, position) ← pull16 message position
  let (messageId, position) ← pull8 message position
  let (errorCode, position) ← pull8 message position
  let (result, _) ← unpackNrTlvList config [] fuel message position
  let pulled := pullResult 2 sfn &&& pullResult 2 slot &&& pullResult 1 messageId &&& pullResult 1 errorCode
  return (pulled &&& result, {
    sfn := sfn.getD 0
    slot := slot.getD 0
    messageId := messageId.getD 0
    errorCode := errorCode.getD 0 })

inductive Unpacked where
  | paramRequest
  | paramResponse (message : ParamResponse)
  | configRequest (message : ConfigRequest)
  | configResponse (message : ConfigResponse)
  | startRequest
  | startResponse (errorCode : Nat)
  | stopRequest
  | stopIndication
  | errorIndication (message : ErrorIndication)

inductive P5Result where
  /-- An assertion on the header fails. -/
  | aborted
  | returned (result : Int) (unpacked : Option Unpacked)

def headerLength : Nat := 8

structure MessageHeader where
  (messageId messageLength : Nat)
deriving DecidableEq, Repr

def fapiNrP5MessageHeaderUnpack : Except Fault MessageHeader := do
  let header := message.take headerLength
  let (_numMsg, position) ← pull8 header 0
  let (_handle, position) ← pull8 header position
  let (messageId, position) ← pull16 header position
  let (messageLength, _) ← pull32 header position
  return { messageId := messageId.getD 0, messageLength := messageLength.getD 0 }

/-- The structure that is unpacked to is one of the message's type; other messages have no structure. -/
def unpackBody :
    Nat → Except Fault (Int × Option Unpacked)
  | 0x00 => return (0, some .paramRequest)
  | 0x01 => do
      let (result, response) ← unpackNrParamResponse config fuel message headerLength
      return (result, some (.paramResponse response))
  | 0x02 => do
      let (result, request) ← unpackNrConfigRequest config fuel message headerLength
      return (result, some (.configRequest request))
  | 0x03 => do
      let (result, response) ← unpackNrConfigResponse config fuel message headerLength
      return (result, some (.configResponse response))
  | 0x04 => do
      let result ← unpackVendorExtensions config fuel message headerLength
      return (result, some .startRequest)
  | 0x0108 => do
      let (result, errorCode) ← unpackNrStartResponse config fuel message headerLength
      return (result, some (.startResponse errorCode))
  | 0x05 => do
      let result ← unpackVendorExtensions config fuel message headerLength
      return (result, some .stopRequest)
  | 0x06 => do
      let result ← unpackVendorExtensions config fuel message headerLength
      return (result, some .stopIndication)
  | 0x07 => do
      let (result, indication) ← unpackNrErrorIndication config fuel message headerLength
      return (result, some (.errorIndication indication))
  | _ => return (-1, none)

def fapiNrP5MessageUnpack : Except Fault P5Result :=
  if message.length < headerLength then .ok .aborted
  else do
    let header ← fapiNrP5MessageHeaderUnpack message
    if header.messageLength > 0xFFFF then return .aborted
    else
      let (result, unpacked) ← unpackBody config fuel message header.messageId
      return .returned result unpacked

/-- The message is unpacked: without an access outside the message or the unpacked structure, and to the end. -/
def Unpacks (result : P5Result) : Prop :=
  ∃ fuel, fapiNrP5MessageUnpack config fuel message = .ok result

end OranSlice.Fapi
