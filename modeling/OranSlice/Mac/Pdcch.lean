import OranSlice.Mac.DlCell

/-! The search for PDCCH candidates in a CORESET and the RBs that granted candidates take. -/

namespace OranSlice.Mac.Pdcch

open Function Runs List

inductive RegSize where
  | n2
  | n3
  | n6
deriving DecidableEq, Repr

def RegSize.toNat : RegSize → Nat
  | .n2 => 2
  | .n3 => 3
  | .n6 => 6

structure Interleaved where
  (regBundleSize interleaverSize : RegSize)
  shiftIndex : Option Nat

/-- Each bit of `frequencyDomainResources` stands for six RBs, from the start of the BWP on. -/
structure ControlResourceSet where
  controlResourceSetId : Nat
  frequencyDomainResources : Fin 45 → Bool
  duration : Nat
  interleaved : Option Interleaved
  duration_range : 1 ≤ duration ∧ duration ≤ 3

structure SearchSpace where
  controlResourceSetId : Nat
  common : Bool
  monitoringSymbolsWithinSlot : Nat → Bool
  /-- The enumerator for the aggregation level `2 ^ i`, which is 7 for eight candidates. -/
  nrofCandidates : Fin 5 → Fin 8

structure PdcchCell extends ControlResourceSet where
  (physCellId bwpStart : Nat)
  extendedCp : Bool

structure SchedPdcch where
  (bwpStart startSymbolIndex durationSymbols regBundleSize interleaverSize shiftIndex nRb : Nat)

namespace ControlResourceSet

variable (coreset : ControlResourceSet)

def groups : Nat := (finRange 45).countP coreset.frequencyDomainResources

def regBundleSize : Nat := coreset.interleaved.elim 6 (·.regBundleSize.toNat)

def interleaverSize : Nat := coreset.interleaved.elim 0 (·.interleaverSize.toNat)

def nRegs : Nat := 6 * coreset.groups * coreset.duration

def nCces : Nat := coreset.nRegs / 6

def bundles : Nat := coreset.nRegs / coreset.regBundleSize

def cceBundles : Nat := 6 / coreset.regBundleSize

def bundleRbs : Nat := coreset.regBundleSize / coreset.duration

end ControlResourceSet

def PdcchCell.pdcch (cell : PdcchCell) (startSymbolIndex : Nat) : SchedPdcch where
  bwpStart := cell.bwpStart
  startSymbolIndex := startSymbolIndex
  durationSymbols := cell.duration
  regBundleSize := cell.regBundleSize
  interleaverSize := cell.interleaverSize
  shiftIndex := cell.interleaved.elim 0 (·.shiftIndex.getD cell.physCellId)
  nRb := 6 * cell.groups

/-- Another CORESET's search space ends the program, and without a symbol to monitor `StartSymbolIndex` is
not set. -/
def setPdcchStructure (cell : PdcchCell) (ss : SearchSpace) : Option SchedPdcch :=
  if ss.controlResourceSetId ≠ cell.controlResourceSetId then none
  else ((range (if cell.extendedCp then 12 else 14)).find? ss.monitoringSymbolsWithinSlot).map cell.pdcch

def cceToRegInterleaving (R k nShift C L nRegs : Nat) : Nat :=
  if R = 0 then k else (k % R * C + k / R + nShift) % (nRegs / L)

def SchedPdcch.candidateRbs (pdcch : SchedPdcch) (nSymb firstCce aggregation : Nat) : List Nat :=
  let nRegs := pdcch.nRb * nSymb
  let L := pdcch.regBundleSize
  let R := pdcch.interleaverSize
  let C := if 0 < R then nRegs / (L * R) else 0
  let bRb := L / nSymb
  (range' firstCce aggregation).flatMap (fun j =>
    (range' (6 * j / L) (6 / L)).flatMap (fun k =>
      range' (pdcch.bwpStart + cceToRegInterleaving R k pdcch.shiftIndex C L nRegs * bRb) bRb))

def findPdcchCandidate (vrbMap : Nat → BitVec 16) (aggregation nrOfCandidates : Nat) (pdcch : SchedPdcch)
    (coreset : ControlResourceSet) (Y : Nat) : Option Nat :=
  let nCces := pdcch.nRb * coreset.duration / 6
  ((range nrOfCandidates).map (fun m =>
    aggregation * ((Y + m * nCces / (aggregation * nrOfCandidates)) % (nCces / aggregation)))).find? (fun firstCce =>
      (pdcch.candidateRbs coreset.duration firstCce aggregation).all (fun rb =>
        vrbMap rb &&& slToBitmap pdcch.startSymbolIndex coreset.duration == 0))

def getY (ss : SearchSpace) (slot : Nat) (rnti : BitVec 16) : Nat :=
  if ss.common then 0
  else
    let A := [39827, 39829, 39839].getD (ss.controlResourceSetId % 3) 0
    (range slot).foldl (fun Y _ => A * Y % 65537) (A * rnti.toNat % 65537)

def findAggregationCandidates (ss : SearchSpace) : Option (Fin 5) :=
  (finRange 5).find? (fun i => ss.nrofCandidates i ≠ 0)

structure Dci where
  ss : SearchSpace
  rnti : BitVec 16
  isCommon : Bool

def fillPdcchVrbMap (vrbMap : Nat → BitVec 16) (pdcch : SchedPdcch) (firstCce aggregation : Nat) :
    Nat → BitVec 16 :=
  (pdcch.candidateRbs pdcch.durationSymbols firstCce aggregation).foldl (fun map rb =>
    update map rb (map rb ||| slToBitmap pdcch.startSymbolIndex pdcch.durationSymbols)) vrbMap

structure Candidate where
  pdcch : SchedPdcch
  (aggregation firstCce : Nat)

namespace Candidate

def rbs (candidate : Candidate) : List Nat :=
  candidate.pdcch.candidateRbs candidate.pdcch.durationSymbols candidate.firstCce candidate.aggregation

def symbols (candidate : Candidate) : BitVec 16 :=
  slToBitmap candidate.pdcch.startSymbolIndex candidate.pdcch.durationSymbols

end Candidate

structure PdcchState where
  vrbMap : Nat → BitVec 16
  granted : List Candidate := []

/-- `get_cce_index` and, for a candidate, `fill_pdcch_vrb_map`. A level that is larger than the CORESET is a
division by zero. -/
def pdcchStep (cell : PdcchCell) (slot : Nat) (s : PdcchState) (dci : Dci) : Option PdcchState :=
  (setPdcchStructure cell dci.ss).bind (fun pdcch =>
    match findAggregationCandidates dci.ss with
    | none => some s
    | some i =>
      if cell.nCces / 2 ^ i.val = 0 then none
      else
        match findPdcchCandidate s.vrbMap (2 ^ i.val) (dci.ss.nrofCandidates i).val pdcch cell.toControlResourceSet
            (if dci.isCommon then 0 else getY dci.ss slot dci.rnti) with
        | none => some s
        | some firstCce => some
            ⟨fillPdcchVrbMap s.vrbMap pdcch firstCce (2 ^ i.val), ⟨pdcch, 2 ^ i.val, firstCce⟩ :: s.granted⟩)

namespace PdcchCell

def InCoreset (cell : PdcchCell) (rb : Nat) : Prop :=
  ∃ i, cell.frequencyDomainResources i = true ∧ cell.bwpStart + 6 * i.val ≤ rb ∧
    rb < cell.bwpStart + 6 * i.val + 6

instance (cell : PdcchCell) (rb : Nat) : Decidable (cell.InCoreset rb) :=
  inferInstanceAs (Decidable (∃ _, _))

structure Whole (cell : PdcchCell) (candidate : Candidate) : Prop where
  distinct : candidate.rbs.Nodup
  size : candidate.rbs.length = candidate.aggregation * 6 / cell.duration
  inside : ∀ rb ∈ candidate.rbs, cell.InCoreset rb

structure Exclusive (cell : PdcchCell) (s : PdcchState) : Prop where
  whole : ∀ candidate ∈ s.granted, cell.Whole candidate
  apart : s.granted.Pairwise (fun a b => ∀ rb ∈ a.rbs, rb ∈ b.rbs → a.symbols &&& b.symbols = 0)

def Regular (cell : PdcchCell) : Prop :=
  cell.interleaverSize ≠ 0 → cell.regBundleSize * cell.interleaverSize ∣ cell.nRegs

def Leading (cell : PdcchCell) : Prop :=
  ∀ i : Fin 45, i.val < cell.groups → cell.frequencyDomainResources i = true

end PdcchCell

section Interleaver

variable {R s C L nRegs k : Nat}

theorem cceToRegInterleaving_lt (inside : k < nRegs / L) : cceToRegInterleaving R k s C L nRegs < nRegs / L := by
  unfold cceToRegInterleaving
  split
  · exact inside
  · exact Nat.mod_lt _ (Nat.zero_lt_of_lt inside)

theorem cceToRegInterleaving_injOn (shape : R ≠ 0 → nRegs / L = R * C) :
    Set.InjOn (fun k => cceToRegInterleaving R k s C L nRegs) (Finset.range (nRegs / L)) := by
  intro k inside k' inside' same
  simp only [Finset.coe_range] at inside inside'
  dsimp only [cceToRegInterleaving] at same
  split at same
  · exact same
  rename_i rows
  rw [shape rows] at inside inside' same
  have column {k : Nat} (inside : k < R * C) : k / R < C := Nat.div_lt_of_lt_mul inside
  have front {k : Nat} (inside : k < R * C) : k % R * C + k / R < R * C :=
    calc
      k % R * C + k / R < k % R * C + C := Nat.add_lt_add_left (column inside) _
      _ = (k % R + 1) * C := (Nat.succ_mul _ _).symm
      _ ≤ R * C := Nat.mul_le_mul_right C (Nat.mod_lt k (Nat.pos_of_ne_zero rows))
  have read : k % R * C + k / R = k' % R * C + k' / R :=
    Nat.ModEq.eq_of_lt_of_lt (Nat.ModEq.add_right_cancel' s same) (front inside) (front inside')
  have columns : k / R = k' / R := by
    have := congrArg (· % C) read
    simpa [Nat.mod_eq_of_lt, column inside, column inside'] using this
  have positive : 0 < C := Nat.zero_lt_of_lt (column inside)
  rw [columns] at read
  have rest : k % R = k' % R := Nat.eq_of_mul_eq_mul_right positive (Nat.add_right_cancel read)
  rw [← Nat.div_add_mod k R, columns, rest, Nat.div_add_mod]

end Interleaver

namespace ControlResourceSet

variable (coreset : ControlResourceSet)

theorem regBundleSize_cases :
    coreset.regBundleSize = 2 ∨ coreset.regBundleSize = 3 ∨ coreset.regBundleSize = 6 := by
  unfold regBundleSize
  cases coreset.interleaved with
  | none => exact .inr (.inr rfl)
  | some interleaved => cases size : interleaved.regBundleSize <;> simp [size, RegSize.toNat]

theorem duration_cases : coreset.duration = 1 ∨ coreset.duration = 2 ∨ coreset.duration = 3 := by
  have := coreset.duration_range
  omega

theorem nCces_eq : coreset.nCces = coreset.groups * coreset.duration := by
  unfold nCces nRegs
  rw [mul_assoc, Nat.mul_div_cancel_left _ (by decide)]

theorem nRegs_eq : coreset.nRegs = 6 * coreset.nCces := by
  rw [nCces_eq, ← mul_assoc]
  rfl

theorem nCces_pos : 0 < coreset.nCces ↔ 0 < coreset.groups := by
  rw [nCces_eq]
  exact Nat.mul_pos_iff_of_pos_right coreset.duration_range.1

theorem bundles_eq : coreset.bundles = coreset.cceBundles * coreset.nCces := by
  unfold bundles cceBundles
  rw [nRegs_eq]
  rcases coreset.regBundleSize_cases with size | size | size <;> rw [size] <;> omega

theorem bundle_start (j : Nat) : 6 * j / coreset.regBundleSize = coreset.cceBundles * j := by
  unfold cceBundles
  rcases coreset.regBundleSize_cases with size | size | size <;> rw [size] <;> omega

theorem bundleRbs_iff :
    coreset.cceBundles * coreset.bundleRbs = 6 / coreset.duration ↔
      coreset.duration ∣ coreset.regBundleSize := by
  unfold cceBundles bundleRbs
  rcases coreset.regBundleSize_cases with size | size | size <;>
    rcases coreset.duration_cases with time | time | time <;> rw [size, time] <;> decide

theorem rbs_eq (divides : coreset.duration ∣ coreset.regBundleSize) :
    coreset.bundles * coreset.bundleRbs = 6 * coreset.groups := by
  have whole := coreset.bundleRbs_iff.mpr divides
  rw [bundles_eq, Nat.mul_right_comm, whole, nCces_eq]
  rcases coreset.duration_cases with time | time | time <;> rw [time] <;> omega

end ControlResourceSet

theorem flatMap_range'_mul (q first count : Nat) :
    (range' first count).flatMap (fun j => range' (q * j) q) = range' (q * first) (q * count) := by
  induction count generalizing first with
  | zero => rfl
  | succ count ih =>
    rw [range'_succ, flatMap_cons, ih, Nat.mul_succ q first, range'_append_1, Nat.mul_succ, add_comm]

namespace PdcchCell

variable {cell : PdcchCell} {start first aggregation : Nat}

def bundle (cell : PdcchCell) (k : Nat) : Nat :=
  cceToRegInterleaving cell.interleaverSize k (cell.pdcch 0).shiftIndex
    (if 0 < cell.interleaverSize then cell.nRegs / (cell.regBundleSize * cell.interleaverSize) else 0)
    cell.regBundleSize cell.nRegs

theorem bundle_injOn (regular : cell.Regular) : Set.InjOn cell.bundle (Finset.range cell.bundles) := by
  apply cceToRegInterleaving_injOn
  intro rows
  obtain ⟨columns, whole⟩ := regular rows
  have size : 0 < cell.regBundleSize := by
    rcases cell.regBundleSize_cases with size | size | size <;> rw [size] <;> decide
  have positive : 0 < cell.interleaverSize := Nat.pos_of_ne_zero rows
  rw [if_pos positive, whole, Nat.mul_div_cancel_left _ (Nat.mul_pos size positive), mul_assoc,
    Nat.mul_div_cancel_left _ size]

theorem candidateRbs_eq :
    (cell.pdcch start).candidateRbs cell.duration first aggregation =
      (range' (cell.cceBundles * first) (cell.cceBundles * aggregation)).flatMap (fun k => range'
          (cell.bwpStart + cell.bundle k * cell.bundleRbs)
          cell.bundleRbs) := by
  rw [← flatMap_range'_mul, flatMap_assoc]
  unfold SchedPdcch.candidateRbs
  dsimp only [pdcch]
  simp only [cell.bundle_start]
  rfl

theorem length_candidateRbs :
    ((cell.pdcch start).candidateRbs cell.duration first aggregation).length =
      aggregation * (cell.cceBundles * cell.bundleRbs) := by
  rw [candidateRbs_eq]
  simp [mul_comm, mul_left_comm]

theorem mem_candidateRbs {rb : Nat} :
    rb ∈ (cell.pdcch start).candidateRbs cell.duration first aggregation ↔
      ∃ k, cell.cceBundles * first ≤ k ∧ k < cell.cceBundles * (first + aggregation) ∧
        cell.bwpStart + cell.bundle k * cell.bundleRbs ≤ rb ∧
        rb < cell.bwpStart + cell.bundle k * cell.bundleRbs + cell.bundleRbs := by
  rw [candidateRbs_eq, mul_add]
  simp [and_assoc]

theorem whole (regular : cell.Regular) (leading : cell.Leading)
    (divides : cell.duration ∣ cell.regBundleSize) (fits : first + aggregation ≤ cell.nCces) :
    cell.Whole ⟨cell.pdcch start, aggregation, first⟩ := by
  have bundles := cell.bundles_eq
  have within {k : Nat} (below : k < cell.cceBundles * (first + aggregation)) :
      k < cell.bundles :=
    bundles ▸ lt_of_lt_of_le below (Nat.mul_le_mul_left _ fits)
  have total := cell.rbs_eq divides
  refine ⟨?_, ?_, ?_⟩
  · change ((cell.pdcch start).candidateRbs cell.duration first aggregation).Nodup
    rw [candidateRbs_eq]
    refine nodup_flatMap.mpr ⟨fun k _ => nodup_range', ?_⟩
    refine List.Nodup.pairwise_of_forall_ne nodup_range' (fun k member k' member' other => ?_)
    rw [mem_range'_1, ← mul_add] at member member'
    -- two bundles with an RB in common are at one place
    intro rb here there
    rw [mem_range'_1] at here there
    apply other
    apply bundle_injOn regular (Finset.mem_coe.mpr (Finset.mem_range.mpr (within member.2)))
      (Finset.mem_coe.mpr (Finset.mem_range.mpr (within member'.2)))
    have place {n : Nat} (low : cell.bwpStart + n * cell.bundleRbs ≤ rb)
        (high : rb < cell.bwpStart + n * cell.bundleRbs + cell.bundleRbs) :
        (rb - cell.bwpStart) / cell.bundleRbs = n := by
      apply Nat.div_eq_of_lt_le
      · omega
      · rw [Nat.succ_mul]
        omega
    exact (place here.1 here.2).symm.trans (place there.1 there.2)
  · change ((cell.pdcch start).candidateRbs cell.duration first aggregation).length =
      aggregation * 6 / cell.duration
    rw [length_candidateRbs, cell.bundleRbs_iff.mpr divides]
    rcases cell.duration_cases with time | time | time <;> rw [time] <;> omega
  · intro rb member
    obtain ⟨k, -, below, low, high⟩ := mem_candidateRbs.mp member
    have place : cell.bundle k < cell.bundles := cceToRegInterleaving_lt (within below)
    have last := Nat.mul_le_mul_right cell.bundleRbs place
    rw [Nat.succ_mul] at last
    have small : cell.groups ≤ 45 := countP_le_length.trans_eq length_finRange
    have group : (rb - cell.bwpStart) / 6 < cell.groups := by omega
    exact ⟨⟨(rb - cell.bwpStart) / 6, by omega⟩, leading _ group, by dsimp only; omega, by dsimp only; omega⟩

end PdcchCell

theorem getLsbD_fill (symbols : BitVec 16) (rbs : List Nat) (vrbMap : Nat → BitVec 16) (rb k : Nat) :
    (rbs.foldl (fun map rb => update map rb (map rb ||| symbols)) vrbMap rb).getLsbD k =
      ((vrbMap rb).getLsbD k || (decide (rb ∈ rbs) && symbols.getLsbD k)) := by
  induction rbs generalizing vrbMap with
  | nil => simp
  | cons head rest ih =>
    rw [foldl_cons, ih]
    by_cases same : rb = head
    · subst same
      rw [update_self, BitVec.getLsbD_or]
      cases symbols.getLsbD k <;> simp
    · simp [same]

namespace PdcchCell

variable {cell : PdcchCell} {slot : Nat} {s next : PdcchState} {dci : Dci}

theorem pdcchStep_cases (taken : pdcchStep cell slot s dci = some next) :
    next = s ∨ ∃ start aggregation first, 0 < aggregation ∧ first + aggregation ≤ cell.nCces ∧
      (∀ rb ∈ Candidate.rbs ⟨cell.pdcch start, aggregation, first⟩,
        s.vrbMap rb &&& Candidate.symbols ⟨cell.pdcch start, aggregation, first⟩ = 0) ∧
      next = ⟨fillPdcchVrbMap s.vrbMap (cell.pdcch start) first aggregation,
        ⟨cell.pdcch start, aggregation, first⟩ :: s.granted⟩ := by
  obtain ⟨pdcch, set, taken⟩ := Option.bind_eq_some_iff.mp taken
  unfold setPdcchStructure at set
  split at set
  · cases set
  obtain ⟨start, -, rfl⟩ := Option.map_eq_some_iff.mp set
  split at taken
  · exact .inl (Option.some.inj taken).symm
  rename_i i level
  split at taken
  · cases taken
  rename_i large
  split at taken
  · exact .inl (Option.some.inj taken).symm
  rename_i first found
  have free := find?_some found
  obtain ⟨m, -, rfl⟩ := mem_map.mp (mem_of_find?_eq_some found)
  refine .inr ⟨start, 2 ^ i.val, _, Nat.two_pow_pos _, ?_, ?_, (Option.some.inj taken).symm⟩
  · have room := Nat.mod_lt (((if dci.isCommon then 0 else getY dci.ss slot dci.rnti) +
      m * cell.nCces / (2 ^ i.val * (dci.ss.nrofCandidates i).val))) (Nat.pos_of_ne_zero large)
    calc
      _ = 2 ^ i.val * (_ + 1) := (Nat.mul_succ _ _).symm
      _ ≤ 2 ^ i.val * (cell.nCces / 2 ^ i.val) := Nat.mul_le_mul_left _ room
      _ ≤ cell.nCces := Nat.mul_div_le _ _
  · intro rb member
    exact eq_of_beq (all_eq_true.mp free rb member)

structure Booked (cell : PdcchCell) (s : PdcchState) : Prop extends cell.Exclusive s where
  marked : ∀ candidate ∈ s.granted, ∀ rb ∈ candidate.rbs, ∀ k, candidate.symbols.getLsbD k = true →
    (s.vrbMap rb).getLsbD k = true

theorem Booked.step (booked : cell.Booked s) (regular : cell.Regular) (leading : cell.Leading)
    (divides : 0 < cell.groups → cell.duration ∣ cell.regBundleSize)
    (taken : pdcchStep cell slot s dci = some next) : cell.Booked next := by
  rcases pdcchStep_cases taken with rfl | ⟨start, aggregation, first, positive, fits, free, rfl⟩
  · exact booked
  have divides := divides (cell.nCces_pos.mp (by omega))
  refine ⟨⟨?_, pairwise_cons.mpr ⟨?_, booked.apart⟩⟩, ?_⟩
  · intro candidate member
    rcases mem_cons.mp member with rfl | old
    · exact whole regular leading divides fits
    · exact booked.whole candidate old
  · intro old granted rb here there
    have unused := free rb here
    ext k
    have bit := congrArg (·.getLsbD k) unused
    have mark := booked.marked old granted rb there k
    simp only [BitVec.getLsbD_and] at bit ⊢
    cases shared : old.symbols.getLsbD k <;> simp_all
  · intro candidate member rb here k bit
    unfold fillPdcchVrbMap
    rw [getLsbD_fill]
    rcases mem_cons.mp member with rfl | old
    · exact Bool.or_eq_true_iff.mpr (.inr (Bool.and_eq_true_iff.mpr ⟨decide_eq_true here, bit⟩))
    · rw [booked.marked candidate old rb here k bit, Bool.true_or]

theorem exists_rnti (ss : SearchSpace) (dedicated : ss.common = false) {Y : Nat} (small : Y < 25000) :
    ∃ rnti, getY ss 0 rnti = Y := by
  have inverse {A B : Nat} (one : A * B % 65537 = 1) (minus : 25000 ≤ A * 65536 % 65537) :
      ∃ rnti : BitVec 16, A * rnti.toNat % 65537 = Y := by
    have same : A * (B * Y % 65537) % 65537 = Y := by
      rw [Nat.mul_mod_mod, ← mul_assoc, Nat.mul_mod, one, one_mul, Nat.mod_mod,
        Nat.mod_eq_of_lt (by omega)]
    have other : B * Y % 65537 ≠ 65536 := by
      intro last
      rw [last] at same
      omega
    have below : B * Y % 65537 < 2 ^ 16 := by omega
    refine ⟨BitVec.ofNat 16 (B * Y % 65537), ?_⟩
    rw [BitVec.toNat_ofNat, Nat.mod_eq_of_lt below, same]
  have value (rnti : BitVec 16) : getY ss 0 rnti =
      [39827, 39829, 39839].getD (ss.controlResourceSetId % 3) 0 * rnti.toNat % 65537 := by
    unfold getY
    rw [if_neg (by simp [dedicated])]
    rfl
  simp only [value]
  have cases : ss.controlResourceSetId % 3 = 0 ∨ ss.controlResourceSetId % 3 = 1 ∨
    ss.controlResourceSetId % 3 = 2 := by omega
  rcases cases with id | id | id <;> rw [id]
  · exact @inverse 39827 61772 (by decide) (by decide)
  · exact @inverse 39829 6233 (by decide) (by decide)
  · exact @inverse 39839 2308 (by decide) (by decide)

theorem grants_cce (cell : PdcchCell) {cce : Nat} (inside : cce < cell.nCces) :
    ∃ dci next, pdcchStep cell 0 ⟨fun _ => 0, []⟩ dci = some next ∧ next.granted = [⟨cell.pdcch 0, 1, cce⟩] := by
  have small : cell.nCces ≤ 135 := by
    rw [cell.nCces_eq]
    exact Nat.mul_le_mul (countP_le_length.trans_eq length_finRange) cell.duration_range.2
  let ss : SearchSpace := ⟨cell.controlResourceSetId, false, fun _ => true, fun _ => 1⟩
  obtain ⟨rnti, hash⟩ := exists_rnti ss rfl (show cce + cell.nCces < 25000 by omega)
  have set : setPdcchStructure cell ss = some (cell.pdcch 0) := by
    unfold setPdcchStructure
    rw [if_neg (fun other => other rfl)]
    cases cell.extendedCp <;> rfl
  have found : findPdcchCandidate (fun _ => 0) 1 1 (cell.pdcch 0) cell.toControlResourceSet (cce + cell.nCces) =
      some cce := by
    have regs : (cell.pdcch 0).nRb * cell.duration / 6 = cell.nCces := rfl
    unfold findPdcchCandidate
    simp [regs, Nat.mod_eq_of_lt inside]
  refine ⟨⟨ss, rnti, false⟩,
    ⟨fillPdcchVrbMap (fun _ => 0) (cell.pdcch 0) cce 1, [⟨cell.pdcch 0, 1, cce⟩]⟩, ?_, rfl⟩
  unfold pdcchStep
  rw [set]
  change (if cell.nCces / 1 = 0 then none else
    match findPdcchCandidate (fun _ => 0) 1 1 (cell.pdcch 0) cell.toControlResourceSet (getY ss 0 rnti) with
    | none => _
    | some firstCce => some _) = _
  rw [if_neg (by omega), hash, found]
  rfl

/-- PDCCH candidates have all the RBs of their CCEs, from the CORESET and for themselves, exactly if a
REG bundle has whole RBs and the CORESET the first RBs of the BWP. -/
theorem pdcch_candidates_exclusive_iff (cell : PdcchCell) (regular : cell.Regular) :
    (∀ slot vrbMap dcis, Along (pdcchStep cell slot) cell.Exclusive ⟨vrbMap, []⟩ dcis) ↔
      (0 < cell.groups → cell.duration ∣ cell.regBundleSize) ∧ cell.Leading := by
  constructor
  · intro always
    have alone {cce : Nat} (inside : cce < cell.nCces) : cell.Whole ⟨cell.pdcch 0, 1, cce⟩ := by
      obtain ⟨dci, next, taken, granted⟩ := grants_cce cell inside
      have exclusive := (along_cons.mp (always 0 (fun _ => 0) [dci])).2 next taken
      refine (along_nil.mp exclusive).whole _ ?_
      rw [granted]
      exact mem_cons_self
    have divides (some : 0 < cell.groups) : cell.duration ∣ cell.regBundleSize := by
      have size : ((cell.pdcch 0).candidateRbs cell.duration 0 1).length = 1 * 6 / cell.duration :=
        (alone (cell.nCces_pos.mpr some)).size
      rw [length_candidateRbs, one_mul] at size
      exact cell.bundleRbs_iff.mp size
    refine ⟨divides, fun i below => ?_⟩
    have divides := divides (Nat.zero_lt_of_lt below)
    have total := cell.rbs_eq divides
    -- the bundle that the interleaver takes to the first RB of the group
    have place : 6 * i.val / cell.bundleRbs < cell.bundles := by
      apply Nat.div_lt_of_lt_mul
      rw [mul_comm cell.bundleRbs]
      omega
    obtain ⟨k, inside, reached⟩ := Finset.surjOn_of_injOn_of_card_le cell.bundle
      (fun k inside => Finset.mem_coe.mpr (Finset.mem_range.mpr
        (cceToRegInterleaving_lt (Finset.mem_range.mp (Finset.mem_coe.mp inside)))))
      (bundle_injOn regular) le_rfl (Finset.mem_coe.mpr (Finset.mem_range.mpr place))
    have below : k < cell.cceBundles * cell.nCces := by
      rw [← cell.bundles_eq]
      exact Finset.mem_range.mp (Finset.mem_coe.mp inside)
    have perCce : 0 < cell.cceBundles := Nat.pos_of_mul_pos_right (Nat.zero_lt_of_lt below)
    have rbs : 0 < cell.bundleRbs := by
      refine Nat.pos_of_ne_zero (fun none => ?_)
      rw [none] at total
      omega
    have member : cell.bwpStart + 6 * i.val ∈ (cell.pdcch 0).candidateRbs cell.duration
        (k / cell.cceBundles) 1 := by
      refine mem_candidateRbs.mpr ⟨k, Nat.mul_div_le _ _, Nat.lt_mul_div_succ k perCce, ?_, ?_⟩ <;> rw [reached]
      · exact Nat.add_le_add_left (Nat.div_mul_le_self _ _) _
      · rw [add_assoc]
        exact Nat.add_lt_add_left (Nat.lt_div_mul_add rbs) _
    obtain ⟨group, listed, low, high⟩ := (alone (Nat.div_lt_of_lt_mul below)).inside _ member
    obtain rfl : group = i := Fin.ext (by omega)
    exact listed
  · rintro ⟨divides, leading⟩ slot vrbMap dcis front inside s reached
    have start : cell.Booked ⟨vrbMap, []⟩ := ⟨⟨by simp, .nil⟩, by simp⟩
    have booked := invariant_along (fun s dci next booked _ taken => Booked.step booked regular leading divides taken)
      _ dcis start (fun _ _ _ _ _ _ _ => trivial) front inside s reached
    exact booked.toExclusive

def wideCell : PdcchCell :=
  ⟨⟨1, fun i => i.val < 8, 2, some ⟨.n6, .n2, none⟩, by decide⟩, 5, 0, false⟩

theorem wideCell_regular : wideCell.Regular := fun _ => by decide

theorem pdcch_candidates_exclusive_wide :
    wideCell.Regular ∧
      ∀ slot vrbMap dcis, Along (pdcchStep wideCell slot) wideCell.Exclusive ⟨vrbMap, []⟩ dcis := by
  refine ⟨wideCell_regular, (pdcch_candidates_exclusive_iff wideCell wideCell_regular).mpr ⟨fun _ => ?_, ?_⟩⟩
  · decide
  · unfold Leading
    decide +kernel

def offsetCell : PdcchCell := ⟨⟨1, fun i => i = 1, 1, none, by decide⟩, 5, 0, false⟩

def commonDci : Dci := ⟨⟨1, true, fun symbol => symbol = 0, fun _ => 1⟩, 0x1234#16, true⟩

/-- The RBs 0 to 5 are granted. -/
theorem pdcch_candidate_outside_coreset :
    offsetCell.Regular ∧
      ∃ next, pdcchStep offsetCell 0 ⟨fun _ => 0, []⟩ commonDci = some next ∧ ¬ offsetCell.Exclusive next := by
  refine ⟨fun rows => absurd rfl rows, _, rfl, fun exclusive => ?_⟩
  have inside := (exclusive.whole _ mem_cons_self).inside 0 (by decide)
  revert inside
  decide

end PdcchCell

end OranSlice.Mac.Pdcch
