import Mathlib.Tactic

/-! Fixed-width fields in a stream of bits, most significant bit first, and the bytes
that carry it. -/

namespace OranSlice.BitCodec

open List

abbrev Byte := BitVec 8

def bits : Nat → Nat → List Bool
  | 0, _ => []
  | count + 1, value => value.testBit count :: bits count value

def value (field : List Bool) : Nat :=
  field.foldl (fun acc bit => 2 * acc + bit.toNat) 0

def take? (count : Nat) (stream : List Bool) : Option (Nat × List Bool) :=
  if count ≤ stream.length then some (value (stream.take count), stream.drop count) else none

def byteBits (byte : Byte) : List Bool := bits 8 byte.toNat

def bytesToBits (bytes : List Byte) : List Bool := bytes.flatMap byteBits

def bitsToBytes : List Bool → List Byte
  | a :: b :: c :: d :: e :: f :: g :: h :: rest =>
    BitVec.ofNat 8 (value [a, b, c, d, e, f, g, h]) :: bitsToBytes rest
  | _ => []

@[simp] theorem bits_length (count value : Nat) : (bits count value).length = count := by
  induction count with
  | zero => rfl
  | succ count ih => simp [bits, ih]

private theorem foldl_bits (count number acc : Nat) :
    (bits count number).foldl (fun acc bit => 2 * acc + bit.toNat) acc =
      acc * 2 ^ count + number % 2 ^ count := by
  induction count generalizing acc with
  | zero => simp [bits, Nat.mod_one]
  | succ count ih =>
    have top : (number.testBit count).toNat = number / 2 ^ count % 2 := Nat.toNat_testBit number count
    rw [bits, foldl_cons, ih, top, Nat.mod_pow_succ, add_mul, pow_succ,
      mul_comm (number / 2 ^ count % 2), mul_comm 2 acc, mul_assoc, mul_comm 2 (2 ^ count)]
    omega

@[simp] theorem value_bits (count number : Nat) : value (bits count number) = number % 2 ^ count := by
  rw [value, foldl_bits, zero_mul, zero_add]

theorem take?_append (count number : Nat) (rest : List Bool) :
    take? count (bits count number ++ rest) = some (number % 2 ^ count, rest) := by
  have enough : count ≤ (bits count number ++ rest).length := by simp
  have front : (bits count number ++ rest).take count = bits count number := by
    rw [take_append_of_le_length (by simp), take_of_length_le (by simp)]
  have back : (bits count number ++ rest).drop count = rest := by
    rw [drop_append, drop_of_length_le (by simp), bits_length, Nat.sub_self]
    rfl
  rw [take?, if_pos enough, front, back, value_bits]

@[simp] theorem take?_one (bit : Bool) (rest : List Bool) : take? 1 (bit :: rest) = some (bit.toNat, rest) := by
  simp [take?, value]

@[simp] theorem take?_two (high low : Bool) (rest : List Bool) :
    take? 2 (high :: low :: rest) = some (2 * high.toNat + low.toNat, rest) := by
  simp [take?, value]

variable {count number address width a b high low : Nat} {stream rest field front back new : List Bool}

theorem take?_eq_some (read : take? count stream = some (number, rest)) :
    number < 2 ^ count ∧ stream.length = count + rest.length := by
  unfold take? at read
  split at read
  · rename_i enough
    cases read
    have bounded : ∀ (field : List Bool) acc,
        field.foldl (fun acc bit => 2 * acc + bit.toNat) acc < (acc + 1) * 2 ^ field.length := by
      intro field
      induction field with
      | nil => simp
      | cons bit rest ih =>
        intro acc
        have later := ih (2 * acc + bit.toNat)
        have one : bit.toNat ≤ 1 := Bool.toNat_le bit
        rw [length_cons]
        refine lt_of_lt_of_le later ?_
        rw [pow_succ, mul_comm (2 ^ rest.length) 2, ← mul_assoc]
        exact Nat.mul_le_mul_right _ (by omega)
    have size := bounded (stream.take count) 0
    rw [Nat.one_mul, length_take, min_eq_left enough] at size
    exact ⟨size, by rw [length_drop]; omega⟩
  · cases read

private theorem bits_value_of_length (length : field.length = count) : bits count (value field) = field := by
  induction count generalizing field with
  | zero =>
    rw [length_eq_zero_iff.mp length]
    rfl
  | succ count ih =>
    obtain ⟨front, last, rfl⟩ : ∃ front last, field = front ++ [last] := by
      rcases eq_nil_or_concat field with none | ⟨front, last, same⟩
      · rw [none] at length
        cases length
      · exact ⟨front, last, by simpa using same⟩
    have short : front.length = count := by simpa using length
    have whole : value (front ++ [last]) = 2 * value front + last.toNat := by simp [value]
    have shifted : ∀ n number, bits (n + 1) (2 * number + last.toNat) = bits n number ++ [last] := by
      intro n number
      induction n with
      | zero =>
        cases last <;> simp [bits]
      | succ n inner =>
        have up : (2 * number + last.toNat).testBit (n + 1) = number.testBit n := by
          rw [Nat.testBit_succ]
          congr 1
          cases last <;> simp only [Bool.toNat_false, Bool.toNat_true] <;> omega
        rw [bits, inner, up]
        rfl
    rw [whole, shifted, ih short]

theorem bits_value (field : List Bool) : bits field.length (value field) = field := bits_value_of_length rfl

@[simp] theorem bytesToBits_length (bytes : List Byte) : (bytesToBits bytes).length = 8 * bytes.length := by
  induction bytes with
  | nil => rfl
  | cons byte rest ih =>
    rw [bytesToBits, flatMap_cons, length_append, ← bytesToBits, byteBits, bits_length, length_cons]
    omega

theorem bytesToBits_append (front back : List Byte) :
    bytesToBits (front ++ back) = bytesToBits front ++ bytesToBits back := by
  simp [bytesToBits]

theorem overwrite_field (start : front.length = address) (size : field.length = width) :
    (front ++ field ++ back).take address ++ new ++ (front ++ field ++ back).drop (address + width) =
      front ++ new ++ back := by
  have before : (front ++ field ++ back).take address = front := by
    rw [append_assoc, take_left' start]
  have after : (front ++ field ++ back).drop (address + width) = back := by
    rw [drop_left' (by rw [length_append, start, size])]
  rw [before, after]

theorem bits_add (high low number : Nat) :
    bits (high + low) number = bits high (number >>> low) ++ bits low number := by
  induction high with
  | zero => rw [zero_add]; rfl
  | succ high ih =>
    rw [add_right_comm, bits, ih, bits, Nat.testBit_shiftRight, add_comm low high]
    rfl

theorem bits_congr (same : ∀ i < count, a.testBit i = b.testBit i) : bits count a = bits count b := by
  induction count with
  | zero => rfl
  | succ count ih =>
    rw [bits, bits, same count (Nat.lt_succ_self count), ih (fun i below => same i (Nat.lt_succ_of_lt below))]

theorem bits_land_ones (count number : Nat) : bits count (number &&& (2 ^ count - 1)) = bits count number := by
  apply bits_congr
  intro i below
  simp [below]

theorem bits_zero_of_lt (fits : number < 2 ^ low) :
    bits (high + low) number = bits high 0 ++ bits low number := by
  rw [bits_add, Nat.shiftRight_eq_div_pow, Nat.div_eq_of_lt fits]

theorem bytesToBits_bitsToBytes (count : Nat)
    (length : stream.length = 8 * count) : bytesToBits (bitsToBytes stream) = stream := by
  induction count generalizing stream with
  | zero =>
    rw [length_eq_zero_iff.mp length]
    rfl
  | succ count ih =>
    match stream, length with
    | a :: b :: c :: d :: e :: f :: g :: h :: rest, length =>
      have short : rest.length = 8 * count := by
        simp only [length_cons] at length
        omega
      have first := bits_value [a, b, c, d, e, f, g, h]
      have small : value [a, b, c, d, e, f, g, h] < 2 ^ 8 := by
        have read : take? 8 [a, b, c, d, e, f, g, h] =
            some (value [a, b, c, d, e, f, g, h], []) := rfl
        exact (take?_eq_some read).1
      rw [bitsToBytes, bytesToBits, flatMap_cons, ← bytesToBits, ih short, byteBits,
        BitVec.toNat_ofNat, Nat.mod_eq_of_lt small]
      change bits 8 (value [a, b, c, d, e, f, g, h]) = _ at first
      rw [first]
      rfl

theorem bitsToBytes_length (count : Nat) (length : stream.length = 8 * count) :
    (bitsToBytes stream).length = count := by
  have back := congrArg List.length (bytesToBits_bitsToBytes count length)
  rw [bytesToBits_length] at back
  omega

section

variable {count : Nat} (length : stream.length = 8 * count) (behind : List Byte)

include length

theorem bytesToBits_framed : bytesToBits (bitsToBytes stream ++ behind) = stream ++ bytesToBits behind := by
  rw [bytesToBits_append, bytesToBits_bitsToBytes count length]

theorem drop_framed : (bitsToBytes stream ++ behind).drop
    ((8 * (bitsToBytes stream ++ behind).length - (bytesToBits behind).length) / 8) = behind := by
  have size := bitsToBytes_length count length
  have front : (8 * (count + behind.length) - 8 * behind.length) / 8 = count := by omega
  rw [length_append, size, bytesToBits_length, front, drop_left' size]

end

end OranSlice.BitCodec
