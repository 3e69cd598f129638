import Mathlib.Tactic

/-! Parallel encoding of a PDSCH: where the jobs of `ldpc8blocks` put the coded bits of the segments,
and where `nr_ulsch_decoding` looks for them. -/

namespace OranSlice.Phy

open List

/-- The coded bits of segment `r`, with `C` and `r` cut to 8 bits; `none` is a division by zero. -/
def nrGetE (g c qm nl r : Nat) : Option Nat :=
  let cPrime := c % 256
  if nl = 0 ∨ qm = 0 ∨ cPrime = 0 then none
  else if r % 256 ≤ cPrime - g / (nl * qm) % cPrime - 1 then some (nl * qm * (g / (nl * qm * cPrime)))
  else some (nl * qm * (g / (nl * qm * cPrime) + 1))

structure Region where
  (segment rOffset e : Nat)
deriving DecidableEq, Repr

def Region.bits (region : Region) : List Nat := range' region.rOffset region.e

/-- Why no job is started: a write behind a buffer of the HARQ process, the assertion on the size, too
many segments, or a division by zero in `nr_get_E`. -/
inductive Stop where
  | outOfBounds | assertion | tooManySegments | divisionByZero
deriving DecidableEq, Repr

def nrMaxPdschTbs : Nat := 3824

/-- The number of code segments that `nr_segmentation` returns in `C`. -/
def nrSegmentation (b baseGraph : Nat) : Nat :=
  let kcb := if baseGraph = 1 then 8448 else 3840
  if b ≤ kcb then 1
  else
    let c := b / (kcb - 24)
    if (kcb - 24) * c < b then c + 1 else c

/-- The number of segments that is allocated, in 16 bits, for a full carrier or in proportion to the RBs. -/
def scaledSegments (segments nRb : Nat) : Nat :=
  if nRb = 273 then segments else segments * nRb % 2 ^ 16 / 273 + 1

/-- A PDSCH with the buffers of its HARQ process: they were allocated for `nRb` and `nbAntennasTx`. -/
structure Encoding where
  (tbSize ldpcBaseGraph g qm nl rbSize nRb nbAntennasTx : Nat)
  unit_pos : 0 < nl * qm
  multiple : nl * qm ∣ g
  g_lt : g < 2 ^ 32

namespace Encoding

section Source

variable (enc : Encoding)

def a : Nat := enc.tbSize * 8 % 2 ^ 32

def aSegments : Nat := scaledSegments (36 * min enc.nbAntennasTx 4) enc.nRb

def dlschBytes : Nat := enc.aSegments * 1056

def crcBytes : Nat := if nrMaxPdschTbs < enc.a then 3 else 2

def nSegments : Nat := nrSegmentation (enc.a + 8 * enc.crcBytes) enc.ldpcBaseGraph

def size (c r : Nat) : Option Nat := nrGetE enc.g c enc.qm enc.nl r

/-- The loop over segments that transmitter and receiver have, with `r_offset` in 32 bits. -/
def place (c : Nat) : Nat → List Nat → Option (List Region)
  | _, [] => some []
  | rOffset, r :: rest => do
    let e ← enc.size c r
    let placed ← place c ((rOffset + e) % 2 ^ 32) rest
    return ⟨r, rOffset, e⟩ :: placed

def ldpc8blocks (c macroNum : Nat) : Option (List Region) := do
  let rOffset ← (range (8 * macroNum)).foldlM
    (fun rOffset i => (enc.size c i).map (fun e => (rOffset + e) % 2 ^ 32)) 0
  enc.place c rOffset (range' (8 * macroNum) (min (c - 8 * macroNum) 8))

def nbJobs (c : Nat) : Nat := c / 8 + if c % 8 = 0 then 0 else 1

/-- The CRC is put behind the payload, both are copied, one byte more than they have, and divided into
segments, before the number of the segments is checked. -/
def nrDlschEncoding : Except Stop (List (List Region)) :=
  if enc.dlschBytes < enc.a / 8 + enc.crcBytes then .error .outOfBounds
  else if 36 * enc.nl * 1056 < enc.a / 8 + enc.crcBytes + 1 then .error .assertion
  else if enc.dlschBytes < enc.a / 8 + enc.crcBytes + 1 ∨ enc.aSegments < enc.nSegments then .error .outOfBounds
  else if 36 * enc.nl < enc.nSegments then .error .tooManySegments
  else
    match (range (nbJobs enc.nSegments)).mapM (enc.ldpc8blocks enc.nSegments) with
    | none => .error .divisionByZero
    | some jobs => .ok jobs

/-- The length with the CRC of a single segment; the number of bits is an `int` here. -/
def lenWithCrc : Nat :=
  let len := (BitVec.ofNat 32 enc.a).toInt
  ((len + if (nrMaxPdschTbs : Int) < len then 24 else 16) % 2 ^ 32).toNat

def nrUlschDecoding : Except Stop (List Region) :=
  let c := nrSegmentation enc.lenWithCrc enc.ldpcBaseGraph
  if 34 * enc.nl < c ∨ scaledSegments (34 * enc.nl) enc.rbSize < c then .error .tooManySegments
  else
    match enc.place c 0 (range c) with
    | none => .error .divisionByZero
    | some regions => .ok regions

def Checked : Prop :=
  enc.a / 8 + enc.crcBytes + 1 ≤ min (36 * enc.nl * 1056) enc.dlschBytes ∧
    enc.nSegments ≤ min (36 * enc.nl) enc.aSegments

instance : Decidable enc.Checked := inferInstanceAs (Decidable (_ ∧ _))

def WrittenOnce (jobs : List (List Region)) : Prop :=
  (∀ order : List Region, order.Perm jobs.flatten → (order.flatMap Region.bits).Perm (range enc.g)) ∧
    (enc.nSegments ≤ min (34 * enc.nl) (scaledSegments (34 * enc.nl) enc.rbSize) →
      enc.nrUlschDecoding = .ok jobs.flatten)

end Source

section Placing

variable (e : Nat → Nat)

def rOffsetAfter (rOffset : Nat) (segments : List Nat) : Nat :=
  segments.foldl (fun rOffset r => (rOffset + e r) % 2 ^ 32) rOffset

def regions : Nat → List Nat → List Region
  | _, [] => []
  | rOffset, r :: rest => ⟨r, rOffset, e r⟩ :: regions ((rOffset + e r) % 2 ^ 32) rest

theorem regions_append (rOffset : Nat) (front back : List Nat) :
    regions e rOffset (front ++ back) = regions e rOffset front ++ regions e (rOffsetAfter e rOffset front) back := by
  induction front generalizing rOffset with
  | nil => rfl
  | cons r rest ih =>
    rw [cons_append, regions, ih]
    rfl

theorem bits_regions {rOffset : Nat} {segments : List Nat} (fits : rOffset + (segments.map e).sum < 2 ^ 32) :
    (regions e rOffset segments).flatMap Region.bits = range' rOffset (segments.map e).sum := by
  induction segments generalizing rOffset with
  | nil => rfl
  | cons r rest ih =>
    rw [map_cons, sum_cons] at fits ⊢
    have next : (rOffset + e r) % 2 ^ 32 = rOffset + e r := Nat.mod_eq_of_lt (by omega)
    rw [regions, flatMap_cons, next, ih (by omega), Region.bits, range'_append_1]

theorem flatten_jobs (c n : Nat) :
    ((range n).map (fun macroNum => regions e (rOffsetAfter e 0 (range (8 * macroNum)))
      (range' (8 * macroNum) (min (c - 8 * macroNum) 8)))).flatten = regions e 0 (range (min c (8 * n))) := by
  induction n with
  | zero => rw [Nat.min_zero]; rfl
  | succ n ih =>
    rw [range_succ, map_append, flatten_append, ih]
    by_cases more : 8 * n ≤ c
    · have grown : min c (8 * (n + 1)) = 8 * n + min (c - 8 * n) 8 := by omega
      have longer : range (8 * n + min (c - 8 * n) 8) =
          range (8 * n) ++ range' (8 * n) (min (c - 8 * n) 8) := by
        rw [range_eq_range', range_eq_range', ← range'_append_1, zero_add]
      rw [grown, longer, regions_append, min_eq_right more, map_singleton, flatten_singleton]
    · have last : c - 8 * n = 0 := by omega
      have same : min c (8 * (n + 1)) = min c (8 * n) := by omega
      rw [same, map_singleton, last]
      exact append_nil _

end Placing

variable {enc : Encoding} {c : Nat}

def units (enc : Encoding) (c r : Nat) : Nat :=
  enc.g / (enc.nl * enc.qm) / c + if r % 256 ≤ c - enc.g / (enc.nl * enc.qm) % c - 1 then 0 else 1

theorem size_eq (positive : 0 < c) (few : c < 256) (r : Nat) :
    enc.size c r = some (enc.nl * enc.qm * enc.units c r) := by
  have layers := Nat.pos_of_mul_pos_right enc.unit_pos
  have order := Nat.pos_of_mul_pos_left enc.unit_pos
  unfold size nrGetE units
  rw [Nat.mod_eq_of_lt few, if_neg (by omega), ← Nat.div_div_eq_div_mul enc.g (enc.nl * enc.qm)]
  split <;> rfl

theorem place_eq {e : Nat → Nat} (sizes : ∀ r, enc.size c r = some (e r)) (rOffset : Nat) (segments : List Nat) :
    enc.place c rOffset segments = some (regions e rOffset segments) := by
  induction segments generalizing rOffset with
  | nil => rfl
  | cons r rest ih =>
    rw [place, sizes, Option.bind_eq_bind, Option.bind_some, ih]
    rfl

theorem jobs_eq {e : Nat → Nat} (sizes : ∀ r, enc.size c r = some (e r)) :
    ∃ jobs, (range (nbJobs c)).mapM (enc.ldpc8blocks c) = some jobs ∧ jobs.flatten = regions e 0 (range c) := by
  have job (macroNum : Nat) : enc.ldpc8blocks c macroNum = pure (regions e (rOffsetAfter e 0 (range (8 * macroNum)))
      (range' (8 * macroNum) (min (c - 8 * macroNum) 8))) := by
    unfold ldpc8blocks
    simp only [sizes, place_eq sizes]
    exact congrArg (Option.bind · _) foldlM_pure
  have all : min c (8 * nbJobs c) = c := by
    unfold nbJobs
    split <;> omega
  refine ⟨_, ?_, (flatten_jobs e c (nbJobs c)).trans (by rw [all])⟩
  rw [funext job, mapM_pure]
  rfl

theorem sum_units (few : c < 256) {n : Nat} (inside : n ≤ c) :
    ((range n).map (enc.units c)).sum = enc.g / (enc.nl * enc.qm) / c * n +
      (n - (c - enc.g / (enc.nl * enc.qm) % c)) := by
  induction n with
  | zero => simp
  | succ n ih =>
    have rest := Nat.mod_lt (enc.g / (enc.nl * enc.qm)) (Nat.zero_lt_of_lt inside)
    have small : n % 256 = n := Nat.mod_eq_of_lt (by omega)
    rw [range_succ, map_append, sum_append, map_singleton, sum_singleton, ih (by omega), units, Nat.mul_succ]
    split <;> omega

theorem sum_sizes (positive : 0 < c) (few : c < 256) :
    ((range c).map (fun r => enc.nl * enc.qm * enc.units c r)).sum = enc.g := by
  have rest := Nat.mod_lt (enc.g / (enc.nl * enc.qm)) positive
  have parts := Nat.div_add_mod' (enc.g / (enc.nl * enc.qm)) c
  rw [sum_map_mul_left, sum_units few le_rfl, Nat.sub_sub_self rest.le, parts, Nat.mul_div_cancel' enc.multiple]

theorem nrSegmentation_pos (b baseGraph : Nat) : 0 < nrSegmentation b baseGraph := by
  unfold nrSegmentation
  dsimp only
  generalize (if baseGraph = 1 then 8448 else 3840) = kcb
  split_ifs with one rounded
  · exact Nat.zero_lt_one
  · exact Nat.succ_pos _
  · -- the last case has no rest, so the quotient is not zero
    rcases Nat.eq_zero_or_pos (b / (kcb - 24)) with none | some
    · rw [none] at rounded
      omega
    · exact some

theorem aSegments_lt (enc : Encoding) : enc.aSegments < 256 := by
  unfold aSegments scaledSegments
  split <;> omega

theorem lenWithCrc_eq (small : enc.a < 2 ^ 31) : enc.lenWithCrc = enc.a + 8 * enc.crcBytes := by
  have len : (BitVec.ofNat 32 enc.a).toInt = enc.a := by
    rw [BitVec.toInt_ofNat', Int.bmod_eq_of_le] <;> omega
  unfold lenWithCrc crcBytes
  dsimp only
  rw [len]
  split <;> split <;> omega

theorem nrDlschEncoding_refuses (wrong : ¬ enc.Checked) (jobs : List (List Region)) :
    enc.nrDlschEncoding ≠ .ok jobs := by
  unfold Checked at wrong
  unfold nrDlschEncoding
  split_ifs
  case neg => exfalso; omega
  all_goals exact fun made => by cases made

theorem nrDlschEncoding_eq (checked : enc.Checked) {jobs : List (List Region)}
    (made : (range (nbJobs enc.nSegments)).mapM (enc.ldpc8blocks enc.nSegments) = some jobs) :
    enc.nrDlschEncoding = .ok jobs := by
  unfold Checked at checked
  unfold nrDlschEncoding
  rw [if_neg (by omega), if_neg (by omega), if_neg (by omega), if_neg (by omega), made]

/-- Jobs are started exactly for the sizes that were checked, and they write each coded bit once. -/
theorem dlsch_jobs_write_once (enc : Encoding) :
    ((∃ jobs, enc.nrDlschEncoding = .ok jobs) ↔ enc.Checked) ∧
      ∀ jobs, enc.nrDlschEncoding = .ok jobs → enc.WrittenOnce jobs := by
  by_cases checked : enc.Checked
  · have positive : 0 < enc.nSegments := nrSegmentation_pos _ _
    have few : enc.nSegments < 256 := by
      have allocated := enc.aSegments_lt
      have inside := checked.2
      omega
    have sizes := @size_eq enc _ positive few
    have total := @sum_sizes enc _ positive few
    obtain ⟨jobs, made, flat⟩ := jobs_eq sizes
    have encoded := nrDlschEncoding_eq checked made
    refine ⟨⟨fun _ => checked, fun _ => ⟨jobs, encoded⟩⟩, fun other same => ?_⟩
    cases encoded.symm.trans same
    refine ⟨fun order mixed => ?_, fun accepted => ?_⟩
    · have bits := mixed.flatMap_right Region.bits
      rw [flat, bits_regions _ (by rw [total, zero_add]; exact enc.g_lt), total, ← range_eq_range'] at bits
      exact bits
    · -- the size is checked, so the receiver's `int` holds it and it counts the same segments
      have length := @lenWithCrc_eq enc (by
        have bound : enc.dlschBytes < 256 * 1056 := Nat.mul_lt_mul_of_pos_right enc.aSegments_lt (by decide)
        have inside := checked.1
        omega)
      have same : nrSegmentation enc.lenWithCrc enc.ldpcBaseGraph = enc.nSegments := by rw [length, nSegments]
      unfold nrUlschDecoding
      dsimp only
      rw [same, if_neg (by omega), place_eq sizes, flat]
  · have refused := nrDlschEncoding_refuses checked
    exact ⟨⟨fun ⟨jobs, made⟩ => absurd made (refused jobs), fun now => absurd now checked⟩,
      fun jobs made => absurd made (refused jobs)⟩

def tenSegments : Encoding := ⟨10000, 1, 105600, 4, 2, 100, 106, 2, by decide, by decide, by decide⟩

theorem dlsch_jobs_ten_segments : tenSegments.nSegments = 10 ∧
    ∃ jobs, tenSegments.nrDlschEncoding = .ok jobs ∧ tenSegments.WrittenOnce jobs := by
  obtain ⟨started, once⟩ := dlsch_jobs_write_once tenSegments
  obtain ⟨jobs, made⟩ := started.mpr (by decide)
  exact ⟨by decide, jobs, made, once jobs made⟩

end Encoding

end OranSlice.Phy
