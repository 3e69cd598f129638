import OranSlice.Core.BitCodec

/-! The DCI payload between the two halves of a split gNB, in either byte order. -/

namespace OranSlice.Fapi.DciPayload

open BitCodec List

def leValue : List Byte → Nat
  | [] => 0
  | byte :: bytes => byte.toNat + 256 * leValue bytes

def leBytes : Nat → Nat → List Byte
  | 0, _ => []
  | count + 1, number => BitVec.ofNat 8 number :: leBytes count (number / 256)

variable {bytes payload into dst src input : List Byte} {count width number len size room maxLen : Nat}

@[simp] theorem leBytes_length : (leBytes count number).length = count := by
  induction count generalizing number with
  | zero => rfl
  | succ count ih => rw [leBytes, length_cons, ih]

theorem leBytes_take (fits : count ≤ width) : (leBytes width number).take count = leBytes count number := by
  induction width generalizing count number with
  | zero => rw [Nat.le_zero.mp fits]; rfl
  | succ width ih =>
    cases count with
    | zero => rfl
    | succ count => rw [leBytes, take_succ_cons, ih (Nat.le_of_succ_le_succ fits), leBytes]

theorem leValue_leBytes (fits : number < 256 ^ count) : leValue (leBytes count number) = number := by
  induction count generalizing number with
  | zero => rw [Nat.lt_one_iff.mp fits]; rfl
  | succ count ih =>
    rw [leBytes, leValue, ih (Nat.div_lt_of_lt_mul (by rwa [mul_comm, ← pow_succ])), BitVec.toNat_ofNat]
    omega

theorem leBytes_leValue (length : bytes.length = count) : leBytes count (leValue bytes) = bytes := by
  subst length
  induction bytes with
  | nil => rfl
  | cons byte bytes ih =>
    have same : BitVec.ofNat 8 (byte.toNat + 256 * leValue bytes) = byte := by
      apply BitVec.eq_of_toNat_eq
      rw [BitVec.toNat_ofNat]
      omega
    rw [length_cons, leValue, leBytes, same, show (byte.toNat + 256 * leValue bytes) / 256 = leValue bytes by omega,
      ih]

theorem leValue_zeros : leValue (bytes ++ replicate count 0) = leValue bytes := by
  induction bytes with
  | nil =>
    induction count with
    | zero => rfl
    | succ count ih => simpa [replicate_succ, leValue] using ih
  | cons byte bytes ih => rw [cons_append, leValue, ih, leValue]

/-- None where the copy leaves one of the two arrays. -/
def memcpy (dst src : List Byte) (len : Nat) : Option (List Byte) :=
  if len ≤ dst.length ∧ len ≤ src.length then some (src.take len ++ dst.drop len) else none

/-- The value returned and the bytes written, with `room` bytes up to `end`. -/
def pusharray8 (src : List Byte) (maxLen len room : Nat) : Option (Nat × List Byte) :=
  if len = 0 then some (1, [])
  else if maxLen < len ∨ room < len then some (0, [])
  else (memcpy (replicate len 0) src len).map (len, ·)

/-- The value returned, the array and what is left of the input. -/
def pullarray8 (input out : List Byte) (maxLen len : Nat) : Option (Nat × List Byte × List Byte) :=
  if len = 0 then some (1, out, input)
  else if maxLen < len ∨ input.length < len then some (0, out, input)
  else (memcpy out input len).map (len, ·, input.drop len)

def zeros : List Byte := replicate 8 0

/-- The payload's bits aligned to the left; the `uint64_t` is eight bytes, lowest first. -/
def payloadInternal (payload : List Byte) (payloadSizeBits dciByteLen : Nat) : Option (List Byte) :=
  if payloadSizeBits % 8 ≠ 0 then do
    let t ← memcpy zeros payload dciByteLen
    memcpy zeros (leBytes 8 (leValue t * 2 ^ (8 - payloadSizeBits % 8))) dciByteLen
  else memcpy zeros payload dciByteLen

/-- `bigEndian` is FAPI_BYTE_ORDERING_BIG_ENDIAN. -/
def packDciPayload (bigEndian : Bool) (payload : List Byte) (payloadSizeBits room : Nat) :
    Option (Nat × List Byte) := do
  let dciByteLen := (payloadSizeBits + 7) / 8 % 256
  if bigEndian then
    let internal ← payloadInternal payload payloadSizeBits dciByteLen
    let dciBytesInverted ← memcpy zeros (internal.take dciByteLen).reverse dciByteLen
    pusharray8 dciBytesInverted 8 dciByteLen room
  else pusharray8 payload 8 dciByteLen room

def unpackDciPayload (bigEndian : Bool) (payload : List Byte) (payloadSizeBits : Nat) (input : List Byte) :
    Option (Nat × List Byte × List Byte) := do
  let dciByteLen := (payloadSizeBits + 7) / 8 % 256
  if bigEndian then
    let (pullresult, dciBytesInverted, rest) ← pullarray8 input zeros 8 dciByteLen
    let payload ← memcpy payload (dciBytesInverted.take dciByteLen).reverse dciByteLen
    let t ← memcpy zeros payload dciByteLen
    let t := if payloadSizeBits % 8 ≠ 0 then leValue t / 2 ^ (8 - payloadSizeBits % 8) else leValue t
    let payload ← memcpy payload (leBytes 8 t) dciByteLen
    some (pullresult, payload, rest)
  else pullarray8 input payload 8 dciByteLen

theorem memcpy_some (target : len ≤ dst.length) (source : len ≤ src.length) :
    memcpy dst src len = some (src.take len ++ dst.drop len) :=
  if_pos ⟨target, source⟩

theorem pusharray8_some (positive : 0 < len) (array : len ≤ maxLen) (space : len ≤ room)
    (source : len ≤ src.length) : pusharray8 src maxLen len room = some (len, src.take len) := by
  rw [pusharray8, if_neg (by omega), if_neg (by omega), memcpy_some (by simp) source]
  simp

theorem pullarray8_some (positive : 0 < len) (array : len ≤ maxLen) (target : len ≤ into.length)
    (exact : bytes.length = len) :
    pullarray8 (bytes ++ input) into maxLen len = some (len, bytes ++ into.drop len, input) := by
  have whole : len ≤ (bytes ++ input).length := by rw [length_append]; omega
  rw [pullarray8, if_neg (by omega), if_neg (by omega), memcpy_some target whole, ← exact]
  simp

variable (array : payload.length = 8) (sized : 0 < size ∧ size ≤ 64) (bytes_of : (size + 7) / 8 = len)
include array sized bytes_of

theorem payloadInternal_some : payloadInternal payload size len =
    some (leBytes len (leValue (payload.take len) * 2 ^ (8 * len - size)) ++ zeros.drop len) := by
  have zeros_length : zeros.length = 8 := rfl
  have eight : len ≤ 8 := by omega
  rw [payloadInternal, memcpy_some (by omega) (by omega)]
  split_ifs with odd
  · have rotation : 8 - size % 8 = 8 * len - size := by omega
    rw [Option.bind_eq_bind, Option.bind_some, memcpy_some (by omega) (by simpa using eight), leBytes_take eight,
      rotation, zeros, drop_replicate, leValue_zeros]
  · have rotation : 8 * len - size = 0 := by omega
    rw [rotation, pow_zero, mul_one, leBytes_leValue (length_take_of_le (by omega))]

theorem packDciPayload_sends (space : len ≤ room) :
    packDciPayload true payload size room =
      some (len, (leBytes len (leValue (payload.take len) * 2 ^ (8 * len - size))).reverse) := by
  have zeros_length : zeros.length = 8 := rfl
  simp only [packDciPayload, bytes_of, Nat.mod_eq_of_lt (show len < 256 by omega), if_true,
    payloadInternal_some array sized bytes_of, Option.bind_eq_bind, Option.bind_some]
  rw [take_left' leBytes_length, memcpy_some (by omega) (by simp), Option.bind_some,
    take_of_length_le (by simp), pusharray8_some (by omega) (by omega) space (by simp),
    take_left' (by simp)]

theorem unpackDciPayload_reads {shifted : List Byte} (length : shifted.length = len) :
    unpackDciPayload true payload size (shifted.reverse ++ input) =
      some (len, leBytes len (leValue shifted / 2 ^ (8 * len - size)) ++ payload.drop len, input) := by
  have zeros_length : zeros.length = 8 := rfl
  have eight : len ≤ 8 := by omega
  have rotated (number : Nat) : (if size % 8 ≠ 0 then number / 2 ^ (8 - size % 8) else number) =
      number / 2 ^ (8 * len - size) := by
    split_ifs with odd
    · rw [show 8 - size % 8 = 8 * len - size by omega]
    · rw [show 8 * len - size = 0 by omega, pow_zero, Nat.div_one]
  simp only [unpackDciPayload, bytes_of, Nat.mod_eq_of_lt (show len < 256 by omega), if_true,
    pullarray8_some (show 0 < len by omega) eight (show len ≤ zeros.length from eight)
      (show shifted.reverse.length = len by simpa), Option.bind_eq_bind, Option.bind_some, rotated]
  rw [take_left' (by simpa), reverse_reverse, memcpy_some (by omega) (by omega), Option.bind_some,
    take_of_length_le (by omega)]
  have copied : (shifted ++ payload.drop len).length = 8 := by simp; omega
  rw [memcpy_some (by omega) (by omega), Option.bind_some, take_left' length, zeros, drop_replicate,
    leValue_zeros, memcpy_some (by omega) (by simpa using eight), Option.bind_some, leBytes_take eight,
    drop_left' length]

omit array sized bytes_of

theorem dci_payload_round_trip (bigEndian : Bool) (payload into rest : List Byte) (size room : Nat)
    (array : payload.length = 8) (target : into.length = 8) (sized : 0 < size ∧ size ≤ 64)
    (value : leValue (payload.take ((size + 7) / 8)) < 2 ^ size) (space : (size + 7) / 8 ≤ room) :
    ∃ bytes, packDciPayload bigEndian payload size room = some (bytes.length, bytes) ∧
      bytes.length = (size + 7) / 8 ∧
      unpackDciPayload bigEndian into size (bytes ++ rest) =
        some (bytes.length, payload.take bytes.length ++ into.drop bytes.length, rest) := by
  generalize bytes_of : (size + 7) / 8 = len at value space ⊢
  have eight : len ≤ 8 := by omega
  have short : (payload.take len).length = len := length_take_of_le (by omega)
  cases bigEndian with
  | false =>
    refine ⟨payload.take len, ?_, short, ?_⟩
    · rw [packDciPayload, if_neg Bool.false_ne_true, bytes_of, Nat.mod_eq_of_lt (by omega),
        pusharray8_some (by omega) eight space (by omega), short]
    · rw [unpackDciPayload, if_neg Bool.false_ne_true, bytes_of, Nat.mod_eq_of_lt (by omega),
        pullarray8_some (by omega) eight (by omega) short, short]
  | true =>
    refine ⟨(leBytes len (leValue (payload.take len) * 2 ^ (8 * len - size))).reverse, ?_, by simp, ?_⟩
    · rw [packDciPayload_sends array sized bytes_of space, length_reverse, leBytes_length]
    -- the bits moved in are the ones the value leaves free
    have room_for : leValue (payload.take len) * 2 ^ (8 * len - size) < 256 ^ len := by
      rw [show 256 = 2 ^ 8 from rfl, ← Nat.pow_mul, show 8 * len = size + (8 * len - size) by omega, pow_add,
        Nat.add_sub_cancel_left]
      exact Nat.mul_lt_mul_of_pos_right value (Nat.two_pow_pos _)
    rw [unpackDciPayload_reads target sized bytes_of leBytes_length, leValue_leBytes room_for,
      Nat.mul_div_cancel _ (Nat.two_pow_pos _), length_reverse, leBytes_length, leBytes_leValue short]

theorem dci_payload_round_trip_nine :
    leValue ([0xA5, 0x01, 7, 7, 7, 7, 7, 7].take 2) < 2 ^ 9 ∧
    ∃ bytes, packDciPayload true [0xA5, 0x01, 7, 7, 7, 7, 7, 7] 9 2 = some (bytes.length, bytes) ∧
      bytes.length = 2 ∧
      unpackDciPayload true zeros 9 (bytes ++ [3]) =
        some (bytes.length, [0xA5, 0x01, 7, 7, 7, 7, 7, 7].take bytes.length ++ zeros.drop bytes.length, [3]) :=
  ⟨by decide, dci_payload_round_trip true _ _ _ 9 2 rfl rfl (by decide) (by decide) (by decide)⟩

end OranSlice.Fapi.DciPayload
