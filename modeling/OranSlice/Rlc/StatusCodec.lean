import OranSlice.Rlc.AmControl

/-! The wire format of status reports. -/

namespace OranSlice.Rlc

open BitCodec List

variable {cfg : AmConfig}

/-- A NACK as it stands in a report: `offsets` is its E2 bit. -/
structure WireNack where
  nack : NackEntry
  offsets : Bool
deriving DecidableEq, Repr

def NackEntry.wire (nack : NackEntry) : WireNack := ⟨nack, !nack.wholeSdus⟩

variable (wires : List WireNack) (e1 : Bool) (wire last : WireNack)

def WireNack.toEnd : WireNack :=
  { wire with nack := { wire.nack with soEnd := soEndOfSdu } }

def WireNack.encode (cfg : AmConfig) (e1 : Bool) (wire : WireNack) : List Bool :=
  bits cfg.snFieldLength wire.nack.snStart.toNat ++ [e1, wire.offsets, !wire.nack.single] ++
    bits (nackRBits cfg) 0 ++
    (if wire.offsets then bits 16 wire.nack.soStart ++ bits 16 wire.nack.soEnd else []) ++
    if wire.nack.single then [] else bits 8 wire.nack.count

def WireNack.decoded (cfg : AmConfig) (wire : WireNack) : Nack :=
  let soEnd := if wire.offsets then wire.nack.soEnd % 2 ^ 16 else soEndOfSdu
  { sn := (wire.nack.snStart.toNat % 2 ^ cfg.snFieldLength : Nat)
    soStart := (if wire.offsets then wire.nack.soStart % 2 ^ 16 else 0 : Nat)
    soEnd := if soEnd = soEndOfSdu then -1 else soEnd
    range := if wire.nack.single then 1 else wire.nack.count % 2 ^ 8 }

theorem decodeNack_encode (rest : List Bool) :
    decodeNack cfg (wire.encode cfg e1 ++ rest) = some (wire.decoded cfg, e1, rest) := by
  obtain ⟨nack, offsets⟩ := wire
  unfold decodeNack WireNack.encode WireNack.decoded
  cases offsets <;> cases one : nack.single <;> simp [take?_append]

def encodeNacks (cfg : AmConfig) : List WireNack → List Bool
  | [] => []
  | [wire] => wire.encode cfg false
  | wire :: next :: rest => wire.encode cfg true ++ encodeNacks cfg (next :: rest)

theorem encodeNacks_concat :
    encodeNacks cfg (wires ++ [last]) =
      wires.flatMap (WireNack.encode cfg true) ++ last.encode cfg false := by
  induction wires with
  | nil => rfl
  | cons wire rest ih =>
    rw [flatMap_cons, append_assoc, ← ih]
    cases rest <;> rfl

theorem decodeNacks_encodeNacks {fuel : Nat} {wires : List WireNack} (enough : wires.length ≤ fuel)
    (behind : List Bool) :
    decodeNacks cfg fuel (!wires.isEmpty) (encodeNacks cfg wires ++ behind) =
      some (wires.map (WireNack.decoded cfg)) := by
  have done (fuel : Nat) : decodeNacks cfg fuel false behind = some [] := by cases fuel <;> rfl
  induction wires generalizing fuel with
  | nil => exact done fuel
  | cons wire rest ih =>
    cases fuel with
    | zero => simp at enough
    | succ fuel =>
      have later := @ih fuel (by simpa using enough)
      cases rest with
      | nil =>
        have read := @decodeNack_encode cfg false wire behind
        simp [decodeNacks, encodeNacks, read]
      | cons next rest =>
        have read := @decodeNack_encode cfg true wire (encodeNacks cfg (next :: rest) ++ behind)
        simp only [isEmpty_cons, Bool.not_false] at later
        simp [decodeNacks, encodeNacks, read, later]

def WireNack.size (cfg : AmConfig) (wire : WireNack) : Nat :=
  nackLength cfg + (if wire.offsets then 4 else 0) + if wire.nack.single then 0 else 1

def wireSizes (cfg : AmConfig) (wires : List WireNack) : Nat := (wires.map (WireNack.size cfg)).sum

theorem encode_length (admitted : cfg.Admitted) (e1 : Bool) (wire : WireNack) :
    (wire.encode cfg e1).length = 8 * wire.size cfg := by
  unfold WireNack.encode WireNack.size nackRBits nackLength
  rcases admitted with short | long
  · cases wire.offsets <;> cases wire.nack.single <;> simp [short]
  · cases wire.offsets <;> cases wire.nack.single <;> simp [long]

theorem encodeNacks_length (admitted : cfg.Admitted) (wires : List WireNack) :
    (encodeNacks cfg wires).length = 8 * wireSizes cfg wires := by
  induction wires with
  | nil => rfl
  | cons wire rest ih =>
    cases rest with
    | nil => exact encode_length admitted false wire
    | cons next rest =>
      rw [encodeNacks, length_append, encode_length admitted, ih, ← mul_add]
      rfl

theorem length_le_wireSizes : wires.length ≤ wireSizes cfg wires := by
  induction wires with
  | nil => exact le_rfl
  | cons wire rest ih =>
    have atLeast : 2 ≤ wire.size cfg := by
      unfold WireNack.size nackLength
      omega
    unfold wireSizes at ih ⊢
    rw [length_cons, map_cons, sum_cons]
    omega

def statusHeader (cfg : AmConfig) (e1 : Bool) : List Bool :=
  bits (4 + cfg.snFieldLength) 0 ++ e1 :: bits (if cfg.snFieldLength = 18 then 1 else 7) 0

def statusStream (cfg : AmConfig) (wires : List WireNack) : List Bool :=
  statusHeader cfg (!wires.isEmpty) ++ encodeNacks cfg wires

theorem statusStream_concat :
    statusStream cfg (wires ++ [last]) =
      statusHeader cfg true ++ wires.flatMap (WireNack.encode cfg true) ++ last.encode cfg false := by
  have some_ : (wires ++ [last]).isEmpty = false := by cases wires <;> rfl
  rw [statusStream, encodeNacks_concat, append_assoc, some_]
  rfl

def cutLast : List WireNack → List WireNack
  | [] => []
  | [wire] => [wire.toEnd]
  | wire :: next :: rest => wire :: cutLast (next :: rest)

theorem cutLast_concat : cutLast (wires ++ [last]) = wires ++ [last.toEnd] := by
  induction wires with
  | nil => rfl
  | cons wire rest ih =>
    cases rest with
    | nil => rfl
    | cons next rest => exact congrArg (wire :: ·) ih

structure StatusEncoder.Wrote (cfg : AmConfig) (encoder : StatusEncoder) (wires : List WireNack) :
    Prop where
  closed : encoder.stream = statusStream cfg wires
  opened : encoder.stream.set encoder.e1 true =
    statusHeader cfg true ++ wires.flatMap (WireNack.encode cfg true)
  cut : encoder.cutAtSoEnd.stream = statusStream cfg (cutLast wires)

namespace StatusEncoder.Wrote

theorem initial (admitted : cfg.Admitted) (size : Nat) :
    Wrote cfg ⟨bits 24 0, size, if cfg.snFieldLength = 18 then 22 else 16, none⟩ [] := by
  rcases admitted with short | long
  · constructor <;> simp only [statusStream, statusHeader, encodeNacks, cutLast, cutAtSoEnd, short,
      flatMap_nil] <;> decide
  · constructor <;> simp only [statusStream, statusHeader, encodeNacks, cutLast, cutAtSoEnd, long,
      flatMap_nil] <;> decide

theorem nackBits_eq (nack : NackEntry) : nackBits cfg nack = nack.wire.encode cfg false := by
  unfold nackBits WireNack.encode NackEntry.wire
  cases nack.wholeSdus <;> rfl

theorem encode_set (wire : WireNack) :
    (wire.encode cfg false).set cfg.snFieldLength true = wire.encode cfg true := by
  simp [WireNack.encode]

theorem wire_toEnd_of_whole {nack : NackEntry} (whole : nack.wholeSdus = true) :
    nack.wire.toEnd = nack.wire := by
  have soEnd : nack.soEnd = soEndOfSdu := by
    simp only [NackEntry.wholeSdus, Bool.and_eq_true, beq_iff_eq] at whole
    exact whole.2
  unfold WireNack.toEnd NackEntry.wire
  rw [← soEnd]

theorem overwrite_soEnd {front : List Bool} {start : Nat} {nack : NackEntry}
    (length : front.length = start) (offsets : nack.wholeSdus = false) :
    (front ++ nack.wire.encode cfg false).take (start + cfg.snFieldLength + 3 + nackRBits cfg + 16) ++
        bits 16 soEndOfSdu ++
        (front ++ nack.wire.encode cfg false).drop (start + cfg.snFieldLength + 3 + nackRBits cfg + 16 + 16) =
      front ++ nack.wire.toEnd.encode cfg false := by
  let before := front ++ (bits cfg.snFieldLength nack.snStart.toNat ++ [false, true, !nack.single] ++
    bits (nackRBits cfg) 0 ++ bits 16 nack.soStart)
  let behind := if nack.single then [] else bits 8 nack.count
  have size : before.length = start + cfg.snFieldLength + 3 + nackRBits cfg + 16 := by
    simp [before]
    omega
  have old : front ++ nack.wire.encode cfg false = before ++ bits 16 nack.soEnd ++ behind := by
    simp [WireNack.encode, NackEntry.wire, offsets, before, behind]
  have new : front ++ nack.wire.toEnd.encode cfg false = before ++ bits 16 soEndOfSdu ++ behind := by
    simp [WireNack.encode, WireNack.toEnd, NackEntry.wire, NackEntry.single, offsets, before, behind]
  rw [old, new]
  exact overwrite_field size (bits_length 16 nack.soEnd)

theorem put {encoder : StatusEncoder} {wires : List WireNack} (wrote : encoder.Wrote cfg wires)
    (nack : NackEntry) : (encoder.put cfg nack).Wrote cfg (wires ++ [nack.wire]) := by
  have length : (statusHeader cfg true ++ wires.flatMap (WireNack.encode cfg true)).length =
      encoder.stream.length := by
    rw [← wrote.opened, length_set]
  have stream : (encoder.put cfg nack).stream =
      statusHeader cfg true ++ wires.flatMap (WireNack.encode cfg true) ++ nack.wire.encode cfg false := by
    rw [← wrote.opened, ← nackBits_eq]
    rfl
  refine ⟨?_, ?_, ?_⟩
  · rw [stream, statusStream_concat]
  · change (encoder.put cfg nack).stream.set (encoder.stream.length + cfg.snFieldLength) true = _
    rw [stream, set_append_right _ _ (by omega), length, Nat.add_sub_cancel_left, encode_set]
    simp
  · rw [cutLast_concat, statusStream_concat]
    cases whole : nack.wholeSdus with
    | true =>
      have address : (encoder.put cfg nack).soEndAddress = none := by simp [StatusEncoder.put, whole]
      rw [cutAtSoEnd, address, wire_toEnd_of_whole whole]
      exact stream
    | false =>
      have address : (encoder.put cfg nack).soEndAddress =
          some (encoder.stream.length + cfg.snFieldLength + 3 + nackRBits cfg + 16) := by
        simp [StatusEncoder.put, whole]
      rw [cutAtSoEnd, address]
      rw [stream]
      exact overwrite_soEnd length whole

end StatusEncoder.Wrote

theorem putAckSn_statusStream (admitted : cfg.Admitted) {ackSn : Nat}
    (fits : ackSn < 2 ^ cfg.snFieldLength) (wires : List WireNack) :
    putAckSn cfg ackSn (statusStream cfg wires) = bits 4 0 ++ bits cfg.snFieldLength ackSn ++
        ((!wires.isEmpty) :: bits (if cfg.snFieldLength = 18 then 1 else 7) 0) ++ encodeNacks cfg wires := by
  rw [← bits_zero_of_lt fits]
  rcases admitted with short | long
  · have whole : bits 16 ackSn = bits 8 (ackSn >>> 8) ++ bits 8 (ackSn &&& 255) := by
      rw [bits_add 8 8, show ackSn &&& 255 = ackSn &&& (2 ^ 8 - 1) from rfl, bits_land_ones]
    have rest : (statusStream cfg wires).drop 16 =
        (!wires.isEmpty) :: bits 7 0 ++ encodeNacks cfg wires := by
      simp only [statusStream, statusHeader, short]
      exact drop_left' (bits_length 16 0)
    rw [putAckSn, rest, short, whole]
    simp
  · have whole : bits 22 ackSn = bits 8 (ackSn >>> 14) ++ bits 8 (ackSn >>> 6 &&& 255) ++ bits 6 ackSn := by
      rw [bits_add 8 14, bits_add 8 6, show ackSn >>> 6 &&& 255 = ackSn >>> 6 &&& (2 ^ 8 - 1) from rfl,
        bits_land_ones, append_assoc]
    have low : bits 8 ((ackSn &&& 0x3f) <<< 2) = bits 6 ackSn ++ [false, false] := by
      rw [bits_add 6 2, Nat.shiftLeft_shiftRight, show ackSn &&& 0x3f = ackSn &&& (2 ^ 6 - 1) from rfl,
        bits_land_ones]
      simp [bits]
    have third : ((statusStream cfg wires).drop 16).take 8 = bits 6 0 ++ [!wires.isEmpty, false] := by
      simp only [statusStream, statusHeader, long]
      rfl
    have rest : (statusStream cfg wires).drop 24 = encodeNacks cfg wires := by
      simp only [statusStream, statusHeader, long]
      exact drop_left' (by simp)
    rw [putAckSn, rest, third, low, long, whole]
    simp [bits]

theorem statusStream_length (admitted : cfg.Admitted) (wires : List WireNack) :
    (statusStream cfg wires).length = 8 * (3 + wireSizes cfg wires) := by
  rw [statusStream, length_append, encodeNacks_length admitted]
  rcases admitted with short | long
  · simp [statusHeader, short]
    omega
  · simp [statusHeader, long]
    omega

theorem putAckSn_length {stream : List Bool} (header : 24 ≤ stream.length) (ackSn : Nat) :
    (putAckSn cfg ackSn stream).length = stream.length := by
  unfold putAckSn
  split
  · simp
    omega
  · simp
    omega

theorem report_length (admitted : cfg.Admitted) (ackSn : Nat) (wires : List WireNack) :
    (putAckSn cfg ackSn (statusStream cfg wires)).length = 8 * (3 + wireSizes cfg wires) := by
  have length := statusStream_length admitted wires
  rw [putAckSn_length (by omega), length]

section

variable (admitted : cfg.Admitted) {ackSn : Nat} (fits : ackSn < 2 ^ cfg.snFieldLength) (wires : List WireNack)

include admitted fits

theorem decodeStatusPdu_append (behind : List Byte) :
    decodeStatusPdu cfg (bitsToBytes (putAckSn cfg ackSn (statusStream cfg wires)) ++ behind) =
      some ⟨ackSn, wires.map (WireNack.decoded cfg)⟩ := by
  have length := report_length admitted ackSn wires
  have room := @length_le_wireSizes cfg wires
  have flag : ((!wires.isEmpty).toNat == 1) = !wires.isEmpty := by cases wires.isEmpty <;> rfl
  have nacks := @decodeNacks_encodeNacks cfg (8 * (3 + wireSizes cfg wires + behind.length)) wires (by omega)
  have first : ∀ rest, take? 1 (bits 4 0 ++ rest) = some (0, bits 3 0 ++ rest) := fun rest => rfl
  unfold decodeStatusPdu
  rw [bytesToBits_framed length, length_append, bitsToBytes_length _ length,
    putAckSn_statusStream admitted fits wires]
  simp only [append_assoc, cons_append, first, take?_append, take?_one, Option.bind_eq_bind,
    Option.bind_some, Nat.mod_eq_of_lt fits, flag, nacks]
  simp

theorem decodeStatusPdu_stream :
    decodeStatusPdu cfg (bitsToBytes (putAckSn cfg ackSn (statusStream cfg wires))) =
      some ⟨ackSn, wires.map (WireNack.decoded cfg)⟩ := by
  have read := decodeStatusPdu_append admitted fits wires []
  rwa [append_nil] at read

end

end OranSlice.Rlc
