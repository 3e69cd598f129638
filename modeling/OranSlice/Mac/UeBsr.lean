import OranSlice.Mac.UlPdu

/-! The buffer status report (BSR): the level of each logical channel group, the format that the UE
chooses, and the bytes that the gNB takes each group to have. -/

namespace OranSlice.Mac.UeBsr

open UlPdu List

def bsrSearch (table : List Nat) (ascend : Bool) (value : Nat) : Nat → Nat → Nat → Nat
  | 0, jl, _ => jl
  | fuel + 1, jl, ju =>
      if 1 < ju - jl then
        let jm := (ju + jl) / 2
        if decide (table.getD jm 0 ≤ value) == ascend then bsrSearch table ascend value fuel jm ju
        else bsrSearch table ascend value fuel jl jm
      else jl

def nrLocateBsrIndexByBufferSize (table : List Nat) (value : Nat) : Nat :=
  if value = 0 then 0
  else
    let ju := table.length - 1
    let ascend := decide (table.getD 0 0 ≤ table.getD ju 0)
    let jl := bsrSearch table ascend value table.length 0 ju
    if value = table.getD jl 0 then jl else jl + 1

abbrev Lcg := Fin 8

instance lcgs : NeZero 8 := ⟨by decide⟩

/-- No BSR, one with a header and a content of one byte, or one with a header of two bytes and a level for
each group with data. -/
inductive BsrFormat where
  | none
  | short
  | long
deriving DecidableEq, Repr

structure UeGrant where
  /-- The regular or periodic BSR that room was kept for. -/
  room : BsrFormat
  bsrBytes : Lcg → BitVec 32
  lcgid : Nat → Option Lcg
  (buflen sduLengthTotal totalMacPduHeaderLen : Nat)

/-- A BSR as it is written: a group and a level of 5 bits, or a bit for each group and the levels of those
groups whose bit is set. -/
inductive BsrCe where
  | short (truncated : Bool) (lcgId : Lcg) (bufferSize : Nat)
  | long (active : Lcg → Bool) (payload : List Nat)

def writeLongBsr (bsr : Lcg → Nat) : BsrCe :=
  .long (fun lcgId => bsr lcgId != 0) (((finRange 8).filter (fun lcgId => bsr lcgId != 0)).map bsr)

namespace UeGrant

variable (ue : UeGrant)

def occupancy (lcgId : Lcg) : Nat := (ue.bsrBytes lcgId).toNat

def numLcgIdWithData : Nat := (finRange 8).countP (fun lcgId => ue.bsrBytes lcgId != 0)

/-- What is left behind the SDUs, as an unsigned integer; without SDUs nothing is said to be left. -/
def paddingLen : Nat :=
  if ue.sduLengthTotal = 0 then 0
  else (((ue.buflen : Int) - (ue.totalMacPduHeaderLen + ue.sduLengthTotal : Nat)) % 2 ^ 32).toNat

def sent : BsrFormat :=
  if ue.room ≠ .none then ue.room
  else if ue.numLcgIdWithData + 1 + 2 ≤ ue.paddingLen then .long
  else if 1 + 1 ≤ ue.paddingLen then .short
  else .none

def truncates : Bool := ue.room = .none && 1 < ue.numLcgIdWithData

/-- The group of a BSR of one byte: the last with data or, for a truncated one, that of the last logical
channel that is in a group with data. -/
def lcgIdBsrTrunc : Lcg :=
  let last := (finRange 8).foldl (fun last lcgId => if ue.bsrBytes lcgId ≠ 0 then lcgId else last) 0
  if ue.truncates then
    (range 32).foldl (fun last i =>
      match ue.lcgid (i + 1) with
      | some lcgId => if ue.bsrBytes lcgId ≠ 0 then lcgId else last
      | none => last) last
  else last

/-- The levels are looked up before a padding BSR is decided on. -/
def nrUeGetSduMacCePost : Option BsrCe :=
  let table := if ue.room = .short then shortBsrTable else longBsrTable
  let bsr := fun lcgId => nrLocateBsrIndexByBufferSize table (ue.occupancy lcgId)
  match ue.sent with
  | .none => none
  | .long => some (writeLongBsr bsr)
  | .short => some (.short ue.truncates ue.lcgIdBsrTrunc (bsr ue.lcgIdBsrTrunc % 32))

end UeGrant

def longBsrGroups (active : Lcg → Bool) : List Lcg → List Nat → List (Lcg × Int)
  | [], _ => []
  | n :: rest, payload =>
      if active n then
        (n, toInt (estimate longBsrTable (payload.headD 0))) :: longBsrGroups active rest payload.tail
      else longBsrGroups active rest payload

def BsrCe.estimates : BsrCe → List (Lcg × Int)
  | .short _ lcgId bufferSize => [(lcgId, toInt (estimate shortBsrTable bufferSize))]
  | .long active payload => longBsrGroups active (finRange 8) payload

def BsrCe.largest : BsrCe → Nat
  | .short .. => 300000
  | .long .. => 162676736

/-- An estimate covers what a group has, up to the largest value of the table, and is zero only if the
group is empty. -/
def Covers (largest occupancy : Nat) (estim : Int) : Prop :=
  (occupancy ≤ largest → occupancy ≤ estim) ∧ (estim = 0 → occupancy = 0)

def UeGrant.Reads (ue : UeGrant) (ce : BsrCe) : Prop :=
  ∀ report ∈ ce.estimates, Covers ce.largest (ue.occupancy report.1) report.2

variable (table : List Nat) (reading : Reading) (occupancy i : Nat)

def Ascending : Prop :=
  table.getD 0 0 = 0 ∧ 1 < table.length ∧ ∀ j < table.length - 1, table.getD j 0 < table.getD (j + 1) 0

def levelFirst : Nat := if i = 0 then 0 else table.getD (i - 1) 0 + 1

def levelLast : Nat :=
  if i + 1 = table.length then 2 ^ 32 - 1 else table.getD i 0

theorem bsrSearch_between (value fuel jl ju : Nat) (enough : ju - jl ≤ fuel)
    (between : jl < ju) (low : table.getD jl 0 ≤ value)
    (high : value < table.getD ju 0 ∨ ju + 1 = table.length) :
    ∃ j, bsrSearch table true value fuel jl ju = j ∧ j < ju ∧ table.getD j 0 ≤ value ∧
      (value < table.getD (j + 1) 0 ∨ j + 1 + 1 = table.length) := by
  induction fuel generalizing jl ju with
  | zero => omega
  | succ fuel ih =>
    simp only [bsrSearch, beq_true, decide_eq_true_eq]
    split
    · split
      · exact ih _ ju (by omega) (by omega) ‹_› high
      · obtain ⟨j, found, inside, rest⟩ := ih jl ((ju + jl) / 2) (by omega) (by omega) low (.inl (by omega))
        exact ⟨j, found, by omega, rest⟩
    · obtain rfl : ju = jl + 1 := by omega
      exact ⟨jl, rfl, between, low, high⟩

theorem nrLocateBsrIndexByBufferSize_level {table : List Nat} (ascending : Ascending table)
    (value : BitVec 32) : ∃ i, nrLocateBsrIndexByBufferSize table value.toNat = i ∧ i < table.length ∧
      levelFirst table i ≤ value.toNat ∧ value.toNat ≤ levelLast table i := by
  obtain ⟨zero, long, strict⟩ := ascending
  obtain ⟨j, found, inside, low, high⟩ :=
    bsrSearch_between table value.toNat table.length 0 (table.length - 1) (by omega) (by omega) (by omega)
      (.inr (by omega))
  have bound := value.isLt
  simp only [nrLocateBsrIndexByBufferSize, zero]
  unfold levelFirst levelLast
  split
  · grind
  split
  · -- The value is an entry, and the one before it is smaller.
    grind
  · grind

/-- All sizes from `first` to `last` are in a misread range and not covered by the estimate, or none is. -/
def Uniform (largest : Nat) (misread : List (Nat × Nat)) (estim : Int) (first last : Nat) : Prop :=
  first ≤ last → (∃ range ∈ misread, range.1 ≤ first ∧ last ≤ range.2) ∧
        (estim = 0 ∧ 0 < first ∨ estim < first ∧ last ≤ largest) ∨
      (∀ range ∈ misread, range.2 < first ∨ last < range.1) ∧
        (last ≤ estim ∨ largest < first) ∧ (estim = 0 → last = 0)

instance : Decidable (Uniform largest misread estim first last) := inferInstanceAs (Decidable (_ → _))

structure Reading where
  table : List Nat
  estim : Nat → Int
  largest : Nat
  misread : List (Nat × Nat)
  ascending : Ascending table
  uniform : ∀ i < table.length,
    Uniform largest misread (estim i) (levelFirst table i) (min (levelLast table i) largest) ∧
      Uniform largest misread (estim i) (max (levelFirst table i) (largest + 1)) (levelLast table i)

def Reading.Misread : Prop :=
  ∃ range ∈ reading.misread, range.1 ≤ occupancy ∧ occupancy ≤ range.2

theorem Uniform.covers_iff {reading : Reading} {first last occupancy : Nat} {estim : Int}
    (uniform : Uniform reading.largest reading.misread estim first last) (above : first ≤ occupancy)
    (below : occupancy ≤ last) : Covers reading.largest occupancy estim ↔ ¬ reading.Misread occupancy := by
  rcases uniform (above.trans below) with ⟨⟨range, member, _, _⟩, wrong⟩ | ⟨outside, right⟩
  · refine iff_of_false (fun ⟨most, zero⟩ => ?_) (not_not_intro ⟨range, member, by omega, by omega⟩)
    omega
  refine iff_of_true ⟨by omega, by omega⟩ ?_
  rintro ⟨range, member, _, _⟩
  have := outside range member
  omega

theorem Reading.covers_iff (bytes : BitVec 32) :
    Covers reading.largest bytes.toNat
        (reading.estim (nrLocateBsrIndexByBufferSize reading.table bytes.toNat)) ↔
      ¬ reading.Misread bytes.toNat := by
  obtain ⟨i, found, inside, above, below⟩ := nrLocateBsrIndexByBufferSize_level reading.ascending bytes
  rw [found]
  have ⟨lower, upper⟩ := reading.uniform i inside
  rcases Nat.lt_or_ge reading.largest bytes.toNat with large | small
  · exact upper.covers_iff (by omega) below
  · exact lower.covers_iff above (by omega)

/-- A regular short BSR is read with the table that it was written with. -/
def regularShort : Reading where
  table := shortBsrTable
  estim i := toInt (estimate shortBsrTable (i % 32))
  largest := 300000
  misread := []
  ascending := by unfold Ascending; decide +kernel
  uniform := by decide +kernel

/-- A padding BSR of one byte has the low five bits of a level of the long table. -/
def paddingShort : Reading where
  table := longBsrTable
  estim i := toInt (estimate shortBsrTable (i % 32))
  largest := 300000
  misread := [(72, 117), (527, 1351), (3935, 16711), (29432, 194182), (220210, 300000), (1647645, 1754595),
    (12328007, 13128233)]
  ascending := by unfold Ascending; decide +kernel
  uniform := by decide +kernel

/-- The last level but one is overestimated by the last, which is -1 as an `int`. -/
def longLevels : Reading where
  table := longBsrTable
  estim i := toInt (estimate longBsrTable i)
  largest := 162676736
  misread := [(81338369, 162676736)]
  ascending := paddingShort.ascending
  uniform := by decide +kernel

theorem longBsrGroups_written (bsr : Lcg → Nat) (groups : List Lcg) :
    longBsrGroups (fun lcgId => bsr lcgId != 0) groups ((groups.filter (fun lcgId => bsr lcgId != 0)).map bsr) =
      (groups.filter (fun lcgId => bsr lcgId != 0)).map
        (fun lcgId => (lcgId, toInt (estimate longBsrTable (bsr lcgId)))) := by
  induction groups with
  | nil => rfl
  | cons n rest ih => by_cases reported : bsr n = 0 <;> simp [longBsrGroups, reported, ih]

theorem reads_long_iff (ue : UeGrant) :
    ue.Reads (writeLongBsr (fun lcgId => nrLocateBsrIndexByBufferSize longBsrTable (ue.occupancy lcgId))) ↔
      ∀ lcgId, ¬ longLevels.Misread (ue.occupancy lcgId) := by
  unfold UeGrant.Reads
  simp only [writeLongBsr, BsrCe.estimates, BsrCe.largest, longBsrGroups_written, forall_mem_map,
    mem_filter, mem_finRange, true_and, bne_iff_ne]
  refine forall_congr' (fun lcgId => ?_)
  refine Iff.trans ⟨fun covers => ?_, fun covered _ => covered⟩ (longLevels.covers_iff (ue.bsrBytes lcgId))
  by_cases reported : nrLocateBsrIndexByBufferSize longBsrTable (ue.occupancy lcgId) = 0
  · obtain ⟨i, found, -, -, below⟩ :=
      nrLocateBsrIndexByBufferSize_level longLevels.ascending (ue.bsrBytes lcgId)
    obtain rfl : i = 0 := found.symm.trans reported
    have none : levelLast longLevels.table 0 = 0 := by decide +kernel
    have empty : ue.occupancy lcgId = 0 := Nat.le_zero.mp (none ▸ below)
    rw [empty]
    unfold Covers
    decide +kernel
  · exact covers reported

theorem reads_short_iff (ue : UeGrant) (reading : Reading) (truncated : Bool) (lcgId : Lcg)
    (same : reading.estim = fun i => toInt (estimate shortBsrTable (i % 32))) (most : reading.largest = 300000) :
    ue.Reads (.short truncated lcgId (nrLocateBsrIndexByBufferSize reading.table (ue.occupancy lcgId) % 32)) ↔
      ¬ reading.Misread (ue.occupancy lcgId) := by
  have covers := reading.covers_iff (ue.bsrBytes lcgId)
  rw [same, most] at covers
  exact Iff.trans (by simp [UeGrant.Reads, BsrCe.estimates, BsrCe.largest, UeGrant.occupancy]) covers

/-- The gNB reads every BSR of the UE as it was meant, except for a padding BSR of one byte whose level
means something else in the short table, and for a long BSR of a group above the last finite level. -/
theorem bsr_estimates_cover_iff (ue : UeGrant) :
    (∀ ce, ue.nrUeGetSduMacCePost = some ce → ue.Reads ce) ↔
      (ue.room = .none ∧ 2 ≤ ue.paddingLen ∧ ue.paddingLen < ue.numLcgIdWithData + 3 →
          ¬ paddingShort.Misread (ue.occupancy ue.lcgIdBsrTrunc)) ∧
        (ue.room = .long ∨ ue.room = .none ∧ ue.numLcgIdWithData + 3 ≤ ue.paddingLen →
          ∀ lcgId, ¬ longLevels.Misread (ue.occupancy lcgId)) := by
  have long := reads_long_iff ue
  have padded := reads_short_iff ue paddingShort ue.truncates ue.lcgIdBsrTrunc rfl rfl
  have regular := reads_short_iff ue regularShort ue.truncates ue.lcgIdBsrTrunc rfl rfl
  unfold UeGrant.nrUeGetSduMacCePost UeGrant.sent
  cases kept : ue.room with
  | none =>
    rcases Nat.lt_or_ge ue.paddingLen (ue.numLcgIdWithData + 1 + 2) with few | enough
    · rcases Nat.lt_or_ge ue.paddingLen (1 + 1) with none | one
      · simp [few.not_ge, none.not_ge]
      · simpa [few, one, few.not_ge, show paddingShort.table = longBsrTable from rfl] using padded
    · simpa [enough] using long
  | short => simpa [regularShort, Reading.Misread] using regular
  | long => simpa using long

/-- The group 3 has 72 bytes left, and two bytes of the grant: the level 32 is sent as 0, for no data. -/
def paddedGrant : UeGrant where
  room := .none
  bsrBytes lcgId := if lcgId = 3 then 72 else 0
  lcgid _ := none
  buflen := 100
  sduLengthTotal := 95
  totalMacPduHeaderLen := 3

theorem bsr_estimate_of_waiting_data_zero :
    paddedGrant.nrUeGetSduMacCePost.map BsrCe.estimates = some [(3, 0)] ∧ paddedGrant.occupancy 3 = 72 := by
  decide +kernel

end OranSlice.Mac.UeBsr
