import OranSlice.Rlc.StatusCodec

/-! Which bytes the NACKs of a report are about. -/

namespace OranSlice.Rlc

open Window List

variable {cfg : AmConfig} {sn : Int} {k : Nat}

def NackedPart.Covers (part : NackedPart) (sn : Int) (k : Nat) : Prop :=
  part.sn = sn ∧ part.soStart ≤ k ∧ (part.soEnd = -1 ∨ (k : Int) ≤ part.soEnd)

def Nacked (cfg : AmConfig) (nacks : List Nack) (sn : Int) (k : Nat) : Prop :=
  ∃ part ∈ nacks.flatMap (Nack.expand cfg), part.Covers sn k

theorem nacked_append (front back : List Nack) :
    Nacked cfg (front ++ back) sn k ↔ Nacked cfg front sn k ∨ Nacked cfg back sn k := by
  simp [Nacked, or_and_right, exists_or]

theorem nacked_single (nack : Nack) : Nacked cfg [nack] sn k ↔
    ∃ i < nack.range, (nack.sn + i) % cfg.snModulus = sn ∧ (i = 0 → nack.soStart ≤ k) ∧
      (i + 1 = nack.range → nack.soEnd = -1 ∨ (k : Int) ≤ nack.soEnd) := by
  unfold Nacked Nack.expand NackedPart.Covers
  simp only [flatMap_cons, flatMap_nil, append_nil, mem_map, mem_range, exists_exists_and_eq_and]
  refine exists_congr (fun i => and_congr_right (fun below => and_congr_right (fun same => ?_)))
  refine and_congr ?_ ?_
  · by_cases first : i = 0 <;> simp [first]
  · by_cases last : i + 1 = nack.range
    · simp [last]
    · simp [last]

def readNacks (cfg : AmConfig) (wires : List WireNack) : List Nack := wires.map (WireNack.decoded cfg)

theorem toEnd_decoded (wire : WireNack) : wire.toEnd.decoded cfg = { wire.decoded cfg with soEnd := -1 } := by
  unfold WireNack.decoded WireNack.toEnd
  cases wire.offsets <;> rfl

theorem decoded_soStart_le (wire : WireNack) : (wire.decoded cfg).soStart ≤ wire.nack.soStart := by
  unfold WireNack.decoded
  cases wire.offsets <;> simp only [if_pos, Bool.false_eq_true, if_false] <;> omega

theorem decoded_soEnd (wire : WireNack) (fits : wire.nack.soEnd ≤ soEndOfSdu) :
    (wire.decoded cfg).soEnd = -1 ∨
      (wire.nack.soEnd ≠ soEndOfSdu ∧ (wire.decoded cfg).soEnd = wire.nack.soEnd) := by
  have same : wire.nack.soEnd % 2 ^ 16 = wire.nack.soEnd := Nat.mod_eq_of_lt (Nat.lt_succ_of_le fits)
  unfold WireNack.decoded
  cases wire.offsets with
  | false => exact .inl rfl
  | true =>
    simp only [same]
    by_cases whole : wire.nack.soEnd = soEndOfSdu
    · exact .inl (if_pos whole)
    · exact .inr ⟨whole, if_neg whole⟩

theorem nacked_toEnd (nack : Nack) (nacked : Nacked cfg [nack] sn k) :
    Nacked cfg [{ nack with soEnd := -1 }] sn k := by
  rw [nacked_single] at nacked ⊢
  obtain ⟨i, below, same, first, _⟩ := nacked
  exact ⟨i, below, same, first, fun _ => .inl rfl⟩

theorem nacked_cutLast {wires : List WireNack} (nacked : Nacked cfg (readNacks cfg wires) sn k) :
    Nacked cfg (readNacks cfg (cutLast wires)) sn k := by
  rcases eq_nil_or_concat wires with none | ⟨front, last, same⟩
  · rw [none] at nacked ⊢
    exact nacked
  rw [same, concat_eq_append] at nacked ⊢
  rw [cutLast_concat]
  simp only [readNacks, map_append, map_cons, nacked_append] at nacked ⊢
  refine nacked.imp_right (fun nacked => ?_)
  rw [toEnd_decoded]
  exact nacked_toEnd _ nacked

theorem nacked_cutLast_append (wires : List WireNack) {added : List WireNack}
    (nacked : Nacked cfg (readNacks cfg (cutLast added)) sn k) :
    Nacked cfg (readNacks cfg (cutLast (wires ++ added))) sn k := by
  rcases eq_nil_or_concat added with none | ⟨front, last, same⟩
  · obtain ⟨part, member, _⟩ := nacked
    simp [none, cutLast, readNacks] at member
  rw [same, concat_eq_append] at nacked ⊢
  rw [cutLast_concat] at nacked
  rw [← append_assoc, cutLast_concat, append_assoc, readNacks, map_append, nacked_append]
  exact .inr nacked

namespace MissingData

def snAt (cfg : AmConfig) (m : MissingData) (i : Nat) : Int := (m.snStart + i) % cfg.snModulus

structure Encodable (cfg : AmConfig) (m : MissingData) : Prop where
  start : Within cfg.snModulus m.snStart
  stop : Within cfg.snModulus m.snEnd
  soEnd : m.soEnd ≤ soEndOfSdu

variable {m : MissingData}

theorem snCount_bounds (positive : 0 < cfg.snModulus) : 0 < m.snCount cfg ∧ (m.snCount cfg : Int) ≤ cfg.snModulus := by
  have low := Int.emod_nonneg (m.snEnd - m.snStart + cfg.snModulus) (by omega : cfg.snModulus ≠ 0)
  have high := Int.emod_lt_of_pos (m.snEnd - m.snStart + cfg.snModulus) positive
  unfold snCount
  omega

variable {i j left stop : Nat} {nack : Nack} {encoder : StatusEncoder} {wires added : List WireNack}
  {truncated : Bool} {wire : WireNack} {lastNack first : Option Int} {result : Generated}

theorem snAt_last (encodable : m.Encodable cfg)
    (last : i + 1 = m.snCount cfg) : m.snAt cfg i = m.snEnd := by
  have index : (i : Int) = (m.snEnd - m.snStart + cfg.snModulus) % cfg.snModulus := by
    unfold snCount at last
    omega
  rw [snAt, index, Int.add_emod_emod]
  have sum : m.snStart + (m.snEnd - m.snStart + cfg.snModulus) = m.snEnd + cfg.snModulus := by omega
  rw [sum, Int.add_emod_right, Int.emod_eq_of_lt encodable.stop.1 encodable.stop.2]

theorem snAt_add (m : MissingData) (i count : Nat) :
    (m.snAt cfg i + count) % cfg.snModulus = m.snAt cfg (i + count) := by
  rw [snAt, snAt, Int.emod_add_emod, Int.natCast_add, add_assoc]

theorem snAt_inj (less : i < j) (close : (j : Int) < i + cfg.snModulus) : m.snAt cfg i ≠ m.snAt cfg j := by
  intro same
  have zero : ((m.snStart + j) - (m.snStart + i)) % cfg.snModulus = 0 := by
    exact Int.emod_eq_emod_iff_emod_sub_eq_zero.mp same.symm
  rw [ Int.emod_eq_of_lt (by omega) (by omega)] at zero
  omega

theorem rangeOf_single (large : 255 < cfg.snModulus) (encodable : m.Encodable cfg)
    (here : i + left = m.snCount cfg) (some_ : 0 < left) :
    (rangeOf cfg m (m.snAt cfg i) left).single = true ↔ min left 255 = 1 := by
  unfold NackEntry.single rangeOf
  rw [beq_iff_eq]
  dsimp only
  by_cases all : min left 255 = left
  · have last := snAt_last encodable (i := i + left - 1) (by omega)
    rw [if_pos all, ← last]
    constructor
    · intro same
      by_contra several
      exact snAt_inj (by omega) (by omega) same
    · intro one
      rw [show i + left - 1 = i by omega]
  · have ahead : (m.snAt cfg i + 254) % cfg.snModulus = m.snAt cfg (i + 254) := snAt_add m i 254
    rw [if_neg all, ahead]
    have different : m.snAt cfg i ≠ m.snAt cfg (i + 254) := snAt_inj (by omega) (by omega)
    exact iff_of_false different (by omega)

theorem snAt_eq_start (encodable : m.Encodable cfg) (below : (i : Int) < cfg.snModulus) :
    m.snAt cfg i = m.snStart ↔ i = 0 := by
  have first : m.snAt cfg 0 = m.snStart := by
    rw [snAt, Int.natCast_zero, add_zero, Int.emod_eq_of_lt encodable.start.1 encodable.start.2]
  constructor
  · intro same
    by_contra later
    exact snAt_inj (by omega) (by omega) (first.trans same.symm)
  · intro zero
    rw [zero, first]

structure ReadsAs (cfg : AmConfig) (m : MissingData) (i left : Nat) (nack : Nack) : Prop where
  sn : nack.sn = m.snAt cfg i
  range : nack.range = min left 255
  soStart : nack.soStart ≤ if i = 0 then m.soStart else 0
  soEnd : nack.soEnd = -1 ∨ (left ≤ 255 ∧ m.soEnd ≠ soEndOfSdu ∧ nack.soEnd = m.soEnd)

theorem rangeOf_readsAs (sound : cfg.Sound) (large : 255 < cfg.snModulus) (encodable : m.Encodable cfg)
    (here : i + left = m.snCount cfg) (some_ : 0 < left) :
    m.ReadsAs cfg i left ((rangeOf cfg m (m.snAt cfg i) left).wire.decoded cfg) := by
  have bounds := @snCount_bounds cfg m (by omega)
  have single := rangeOf_single large encodable here some_
  refine ⟨?_, ?_, ?_, ?_⟩
  · have space : Within cfg.snModulus (m.snAt cfg i) := within_mod (by omega) _
    change (((m.snAt cfg i).toNat % 2 ^ cfg.snFieldLength : Nat) : Int) = m.snAt cfg i
    rw [Nat.mod_eq_of_lt (sound.toNat_lt space.1 space.2)]
    exact Int.toNat_of_nonneg space.1
  · change (if (rangeOf cfg m (m.snAt cfg i) left).single then 1 else min left 255 % 2 ^ 8) = min left 255
    split_ifs with one
    · exact (single.mp one).symm
    · exact Nat.mod_eq_of_lt (by omega)
  · have start : (rangeOf cfg m (m.snAt cfg i) left).soStart = if i = 0 then m.soStart else 0 := by
      simp [rangeOf, snAt_eq_start encodable (show (i : Int) < cfg.snModulus by omega)]
    have less := @decoded_soStart_le cfg (rangeOf cfg m (m.snAt cfg i) left).wire
    change _ ≤ ((rangeOf cfg m (m.snAt cfg i) left).soStart : Int) at less
    rw [start] at less
    exact less
  · have soEnd : (rangeOf cfg m (m.snAt cfg i) left).soEnd =
        if min left 255 = left then m.soEnd else soEndOfSdu := rfl
    have fits : (rangeOf cfg m (m.snAt cfg i) left).soEnd ≤ soEndOfSdu := by
      have := encodable.soEnd
      rw [soEnd]
      split <;> omega
    rcases @decoded_soEnd cfg (rangeOf cfg m (m.snAt cfg i) left).wire fits with toEnd | ⟨inside, same⟩
    · exact .inl toEnd
    change (rangeOf cfg m (m.snAt cfg i) left).soEnd ≠ soEndOfSdu at inside
    change _ = ((rangeOf cfg m (m.snAt cfg i) left).soEnd : Int) at same
    rw [soEnd] at inside same
    by_cases all : min left 255 = left
    · rw [if_pos all] at inside same
      exact .inr ⟨by omega, inside, same⟩
    · rw [if_neg all] at inside
      exact absurd rfl inside

theorem ReadsAs.nacked (reads : m.ReadsAs cfg i left nack)
    (here : i + left = m.snCount cfg) {j k : Nat} (low : i ≤ j) (high : j < i + min left 255)
    (first : j = 0 → m.soStart ≤ k) (last : j + 1 = m.snCount cfg → nack.soEnd = -1 ∨
      m.soEnd = soEndOfSdu ∨ k ≤ m.soEnd) : Nacked cfg [nack] (m.snAt cfg j) k := by
  rw [nacked_single]
  refine ⟨j - i, ?_, ?_, ?_, ?_⟩
  · rw [reads.range]
    omega
  · rw [reads.sn, snAt_add, Nat.add_sub_cancel' low]
  · have start := reads.soStart
    split at start <;> omega
  · intro final
    rw [reads.range] at final
    rcases reads.soEnd with toEnd | ⟨short, inside, same⟩
    · exact .inl toEnd
    rcases last (by omega) with toEnd | whole | below
    · exact .inl toEnd
    · exact absurd whole inside
    · rw [same]
      exact .inr (by exact_mod_cast below)

structure Written (cfg : AmConfig) (m : MissingData) (wires added : List WireNack) (i stop : Nat)
    (lastNack : Option Int) (result : Generated) : Prop where
  wrote : result.encoder.Wrote cfg (wires ++ added)
  low : i ≤ stop
  high : stop ≤ m.snCount cfg
  truncated : result.truncated = decide (stop < m.snCount cfg)
  nothing : stop = i → added = [] ∧ result.lastNack = lastNack
  last : i < stop → ∃ sn, result.lastNack = some sn ∧ (sn + 1) % cfg.snModulus = m.snAt cfg stop
  nacked : ∀ j k, i ≤ j → j < stop → (j = 0 → m.soStart ≤ k) →
    (j + 1 = m.snCount cfg → m.soEnd = soEndOfSdu ∨ k ≤ m.soEnd) →
    Nacked cfg (readNacks cfg added) (m.snAt cfg j) k
  cut : ∀ j k, i ≤ j → j + 1 = stop → (j = 0 → m.soStart ≤ k) →
    Nacked cfg (readNacks cfg (cutLast added)) (m.snAt cfg j) k

theorem Written.empty (wrote : encoder.Wrote cfg wires) (lastNack : Option Int) (inside : i ≤ m.snCount cfg)
    (same : truncated = decide (i < m.snCount cfg)) :
    m.Written cfg wires [] i i lastNack ⟨encoder, lastNack, truncated⟩ where
  wrote := by simpa using wrote
  low := le_refl i
  high := inside
  truncated := same
  nothing := fun _ => ⟨rfl, rfl⟩
  last := fun more => absurd more (by omega)
  nacked := fun j k low high => absurd high (by omega)
  cut := fun j k low high => absurd high (by omega)

theorem Written.cons (here : i + left = m.snCount cfg) (some_ : 0 < left)
    (reads : m.ReadsAs cfg i left (wire.decoded cfg))
    (last : ∃ sn, first = some sn ∧ (sn + 1) % cfg.snModulus = m.snAt cfg (i + min left 255))
    (later : m.Written cfg (wires ++ [wire]) added (i + min left 255) stop first result) :
    m.Written cfg wires (wire :: added) i stop lastNack result := by
  have low := later.low
  refine ⟨?_, by omega, later.high, later.truncated, fun none => absurd none (by omega), ?_, ?_, ?_⟩
  · have wrote := later.wrote
    rwa [append_assoc] at wrote
  · intro _
    rcases Nat.eq_or_lt_of_le low with only | more
    · rw [(later.nothing only.symm).2, ← only]
      exact last
    · exact later.last more
  · intro j k jLow jHigh start stops
    rw [readNacks, map_cons, ← singleton_append, nacked_append]
    by_cases inFirst : j < i + min left 255
    · exact .inl (reads.nacked here jLow inFirst start (fun final => .inr (stops final)))
    · exact .inr (later.nacked j k (by omega) jHigh start stops)
  · intro j k jLow jLast start
    cases added with
    | nil =>
      have only : j < i + min left 255 := by
        by_contra beyond
        obtain ⟨part, member, _⟩ := later.cut j k (by omega) jLast start
        simp [readNacks, cutLast] at member
      rw [readNacks, cutLast, map_cons, toEnd_decoded]
      have toEnd : m.ReadsAs cfg i left { wire.decoded cfg with soEnd := -1 } :=
        ⟨reads.sn, reads.range, reads.soStart, .inl rfl⟩
      exact toEnd.nacked here jLow only start (fun _ => .inl rfl)
    | cons next rest =>
      have more : i + min left 255 < stop := by
        rcases Nat.eq_or_lt_of_le low with only | more
        · exact absurd (later.nothing only.symm).1 (by simp)
        · exact more
      rw [readNacks, cutLast, map_cons, ← singleton_append, nacked_append]
      exact .inr (later.cut j k (by omega) jLast start)

theorem generateRanges_written (sound : cfg.Sound) (large : 255 < cfg.snModulus)
    (encodable : m.Encodable cfg) {fuel i left : Nat} (here : i + left = m.snCount cfg)
    (enough : left ≤ fuel) {encoder : StatusEncoder} {wires : List WireNack}
    (wrote : encoder.Wrote cfg wires) (lastNack : Option Int) :
    ∃ added stop, m.Written cfg wires added i stop lastNack
      (generateRanges cfg m fuel left (m.snAt cfg i) encoder lastNack) := by
  induction fuel generalizing i left encoder wires lastNack with
  | zero =>
    exact ⟨[], i, Written.empty wrote lastNack (by omega) (by simp; omega)⟩
  | succ fuel ih =>
    cases left with
    | zero => exact ⟨[], i, Written.empty wrote lastNack (by omega) (by simp; omega)⟩
    | succ left =>
      unfold generateRanges
      dsimp only
      split
      · exact ⟨[], i, Written.empty wrote lastNack (by omega) (by simp; omega)⟩
      let nack := rangeOf cfg m (m.snAt cfg i) (left + 1)
      have reads := rangeOf_readsAs sound large encodable here (by omega)
      have single := rangeOf_single large encodable here (by omega)
      have count : nack.count = min (left + 1) 255 := rfl
      have ahead : (m.snAt cfg i + nack.count) % cfg.snModulus = m.snAt cfg (i + min (left + 1) 255) :=
        snAt_add m i nack.count
      obtain ⟨added, stop, later⟩ := @ih (i + min (left + 1) 255) (left + 1 - nack.count)
        (by rw [count]; omega) (by rw [count]; omega) _ _ (wrote.put nack)
        (some (if nack.single then m.snAt cfg i else m.snAt cfg i + nack.count - 1))
      rw [← ahead] at later
      refine ⟨nack.wire :: added, stop, Written.cons here (by omega) reads ⟨_, rfl, ?_⟩ later⟩
      rw [← ahead]
      split_ifs with one
      · rw [count, single.mp one]
        rfl
      · rw [sub_add_cancel]

theorem generateMissing_written (sound : cfg.Sound) (encodable : m.Encodable cfg)
    (wrote : encoder.Wrote cfg wires) :
    ∃ added stop, m.Written cfg wires added 0 stop none (generateMissing cfg m encoder) := by
  have large := sound.modulus_large
  have start := (snAt_eq_start encodable (show ((0 : Nat) : Int) < cfg.snModulus by omega)).mpr rfl
  have written := generateRanges_written sound large encodable (zero_add (m.snCount cfg)) (le_refl _) wrote none
  rwa [start] at written

end MissingData

end OranSlice.Rlc
