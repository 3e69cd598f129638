import OranSlice.Rlc.AmTransmit

/-! The wire format of data PDUs. -/

namespace OranSlice.Rlc

open BitCodec List

variable {cfg : AmConfig}

structure DataPdu.WellFormed (cfg : AmConfig) (pdu : DataPdu) : Prop where
  snLow : 0 ≤ pdu.sn
  snHigh : pdu.sn < 2 ^ cfg.snFieldLength
  first : pdu.isFirst = true ↔ pdu.so = 0
  soHigh : pdu.so < 2 ^ 16
  data : pdu.data ≠ []

variable {buffer : List Byte} {pdu : DataPdu} {status : StatusPdu} {segment : SduSegment}

theorem so_zero_iff {isFirst : Bool} {so : Nat} (bound : so < 2 ^ (if isFirst then 0 else 16))
    (fits : ¬ (!isFirst && so == 0) = true) : isFirst = true ↔ so = 0 := by
  cases isFirst with
  | true => simpa using bound
  | false => simpa using fits

theorem decodeDataPdu_wellFormed (read : decodeDataPdu cfg buffer = some pdu) : pdu.WellFormed cfg := by
  simp only [decodeDataPdu, Option.bind_eq_bind, Option.bind_eq_some_iff, Prod.exists] at read
  obtain ⟨dc, stream, -, p, stream, -, si, stream, -, r, stream, -, sn, stream, snRead, so, stream,
    soRead, rest⟩ := read
  have snBound := (take?_eq_some snRead).1
  have soBound := (take?_eq_some soRead).1
  split at rest
  · cases rest
  rename_i soFits
  split_ifs at rest with nonempty
  cases rest
  have snHigh : (sn : Int) < 2 ^ cfg.snFieldLength := by exact_mod_cast snBound
  refine ⟨Int.natCast_nonneg sn, snHigh, so_zero_iff soBound soFits, ?_, ?_⟩
  · refine lt_of_lt_of_le soBound (Nat.pow_le_pow_right (by decide) ?_)
    split <;> omega
  · intro empty
    exact nonempty (by simpa using congrArg length empty)

theorem decodeStatusPdu_spec (read : decodeStatusPdu cfg buffer = some status) :
    (0 ≤ status.ackSn ∧ status.ackSn < 2 ^ cfg.snFieldLength) ∧
      ∃ fuel e1 stream, decodeNacks cfg fuel e1 stream = some status.nacks := by
  simp only [decodeStatusPdu, Option.bind_eq_bind, Option.bind_eq_some_iff, Prod.exists] at read
  obtain ⟨dc, stream, -, cpt, stream, -, rest⟩ := read
  split at rest
  · cases rest
  simp only [Option.bind_eq_some_iff, Prod.exists] at rest
  obtain ⟨ackSn, stream, ackRead, e1, stream, -, r, stream, -, nacks, nacksRead, made⟩ := rest
  cases made
  have bound : (ackSn : Int) < 2 ^ cfg.snFieldLength := by
    exact_mod_cast (take?_eq_some ackRead).1
  exact ⟨⟨Int.natCast_nonneg ackSn, bound⟩, _, _, _, nacksRead⟩

theorem SduSegment.so_field (first : segment.isFirst = true ↔ segment.so = 0)
    (high : segment.so < 2 ^ 16) : segment.so < 2 ^ (if segment.isFirst then 0 else 16) ∧
      (!segment.isFirst && segment.so == 0) = false := by
  cases same : segment.isFirst with
  | true => simp [first.mp same]
  | false => exact ⟨high, by simpa [same] using first⟩

theorem SduSegment.si_field (segment : SduSegment) :
    (2 * (!segment.isFirst).toNat + (!segment.isLast).toNat &&& 2 == 0) = segment.isFirst ∧
      (2 * (!segment.isFirst).toNat + (!segment.isLast).toNat &&& 1 == 0) = segment.isLast := by
  cases segment.isFirst <;> cases segment.isLast <;> exact ⟨rfl, rfl⟩

structure SduSegment.Encodable (cfg : AmConfig) (segment : SduSegment) : Prop where
  snLow : 0 ≤ segment.sn
  snHigh : segment.sn < 2 ^ cfg.snFieldLength
  first : segment.isFirst = true ↔ segment.so = 0
  soHigh : segment.so < 2 ^ 16

theorem pduHeader_length (admitted : cfg.Admitted) (segment : SduSegment) (p : Bool) :
    (pduHeader cfg segment p).length = 8 * computePduHeaderSize cfg segment := by
  unfold pduHeader computePduHeaderSize
  rcases admitted with short | long
  · cases segment.isFirst <;> simp [short]
  · cases segment.isFirst <;> simp [long]

end OranSlice.Rlc
