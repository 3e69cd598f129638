import OranSlice.Mac.DlCell
import OranSlice.Mac.Pucch

/-! The reservation of PUCCH resources for CSI reports, RB by RB. -/

namespace OranSlice.Mac

open Function Runs List

inductive PucchFormat where
  | format0
  | format1
  | format2 (nrofPrbs startingSymbolIndex nrofSymbols : Nat)
  | format3 (nrofPrbs startingSymbolIndex nrofSymbols : Nat)
  | format4 (startingSymbolIndex nrofSymbols : Nat)

structure PucchResource where
  (pucchResourceId startingPrb : Nat)
  format : PucchFormat

/-- The second resource set and the resources, with their settings by format. -/
structure PucchConfig where
  resourceList : List Nat
  resourceToAddModList : List PucchResource
  (simultaneousHarqcsi2 simultaneousHarqcsi3 simultaneousHarqcsi4 : Bool)
  distinct : (resourceToAddModList.map PucchResource.pucchResourceId).Nodup

/-- The number of RBs, the symbols and whether HARQ acknowledgements may join; the program ends for the
short formats. -/
def PucchConfig.span (config : PucchConfig) : PucchFormat → Option (Nat × BitVec 16 × Bool)
  | .format0 | .format1 => none
  | .format2 len start symbols => some (len, slToBitmap start symbols, config.simultaneousHarqcsi2)
  | .format3 len start symbols => some (len, slToBitmap start symbols, config.simultaneousHarqcsi3)
  | .format4 start symbols => some (1, slToBitmap start symbols, config.simultaneousHarqcsi4)

structure CsiReportConfig where
  (uplinkBandwidthPartId period offset pucchResource csiBitlen : Nat)

structure CsiUe where
  grid : SlotGrid
  rrcProcessingTimer : Nat
  ulFailure : Bool
  (bwpId bwpStart maxFbTime schedPucchSize : Nat)
  pucchConfig : PucchConfig
  csiMeasConfig : Option (List CsiReportConfig)

def CsiUe.resources (config : CsiUe) (report : CsiReportConfig) : List PucchResource :=
  config.pucchConfig.resourceToAddModList.filter (·.pucchResourceId == report.pucchResource)

structure CsiCell where
  (frame slot : Nat)
  phyTest : Bool
  vrbMapUlSize : Nat

structure CsiState where
  schedPucch : Nat → Nat → SchedPucch
  vrbMapUl : Nat → BitVec 16

/-- A UE of the list with one of its reports, or with `none` where it has no report at all. -/
structure CsiWork where
  ue : Nat
  config : CsiUe
  report : Option CsiReportConfig

def maxBwpSize : Nat := 275

def reserveRb (mask : BitVec 16) (s : SchedPucch × (Nat → BitVec 16)) (rb : Nat) :
    SchedPucch × (Nat → BitVec 16) :=
  if s.2 rb &&& mask = 0#16 then (s.1, update s.2 rb (s.2 rb ||| mask)) else ({}, s.2)

namespace CsiCell

variable (cell : CsiCell)

variable (config : CsiUe) (ues : List CsiUe) (report : CsiReportConfig)

def schedSlot : Nat :=
  (cell.slot + config.maxFbTime + config.grid.koffset) % config.grid.slotsFrame

def schedFrame : Nat :=
  (cell.frame + (cell.slot + config.maxFbTime + config.grid.koffset) / config.grid.slotsFrame) % maxFrameNumber

def schedTime : Nat :=
  cell.schedFrame config * config.grid.slotsFrame + cell.schedSlot config

def pucchIndex : Nat :=
  config.grid.getPucchIndex (cell.schedFrame config) (cell.schedSlot config) config.schedPucchSize

def due : Bool :=
  report.uplinkBandwidthPartId = config.bwpId ∧
    ((cell.schedTime config : Int) - report.offset) % report.period = 0

def rbs (resource : PucchResource) (len : Nat) : List Nat :=
  range' (cell.schedTime config % cell.vrbMapUlSize * maxBwpSize + config.bwpStart + resource.startingPrb) len

def reserveResource (s : SchedPucch × (Nat → BitVec 16)) (resource : PucchResource) :
    Option (SchedPucch × (Nat → BitVec 16)) :=
  (config.pucchConfig.span resource.format).map (fun (len, mask, simultaneous) =>
    (cell.rbs config resource len).foldl (reserveRb mask) ({ s.1 with simultaneousHarqcsi := simultaneous }, s.2))

def csiStep (s : CsiState) (work : CsiWork) : Option CsiState :=
  match work.report with
  | none => none
  | some report =>
    if !cell.due work.config report then some s
    else if !work.config.grid.isUl (cell.schedSlot work.config) then none
    else (work.config.pucchConfig.resourceList.findIdx? (· == report.pucchResource)).bind (fun resIndex =>
      let curr := s.schedPucch work.ue (cell.pucchIndex work.config)
      if curr.active then none
      else
        let opened := { curr with
          active := true, frame := cell.schedFrame work.config, ulSlot := cell.schedSlot work.config, rPucch := -1
          resourceIndicator := resIndex, csiBits := curr.csiBits + report.csiBitlen }
        ((work.config.resources report).foldlM (cell.reserveResource work.config) (opened, s.vrbMapUl)).map
          (fun (curr, vrbMapUl) =>
            ⟨update s.schedPucch work.ue (update (s.schedPucch work.ue) (cell.pucchIndex work.config) curr),
              vrbMapUl⟩))

def works : List CsiWork :=
  ues.zipIdx.flatMap (fun (config, ue) =>
    if 0 < config.rrcProcessingTimer ∨ config.ulFailure ∧ !cell.phyTest then []
    else match config.csiMeasConfig with
      | none => []
      | some [] => [⟨ue, config, none⟩]
      | some reports => reports.map (fun report => ⟨ue, config, some report⟩))

def nrCsiMeasReporting (s : CsiState) : Option CsiState := run cell.csiStep s (cell.works ues)

def wanted : List Nat × BitVec 16 :=
  match config.resources report with
  | [] => ([], 0#16)
  | resource :: _ =>
    match config.pucchConfig.span resource.format with
    | none => ([], 0#16)
    | some (len, mask, _) => (cell.rbs config resource len, mask)

end CsiCell

def AllOrNothing (rbs : List Nat) (mask : BitVec 16) (before after : Nat → BitVec 16) (occasion : SchedPucch) :
    Prop :=
  if ∀ rb ∈ rbs, before rb &&& mask = 0#16 then
    occasion.active = true ∧ after = fun rb => if rb ∈ rbs then before rb ||| mask else before rb
  else occasion.active = false ∧ occasion.csiBits = 0 ∧ after = before

def Uniform (rbs : List Nat) (mask : BitVec 16) (map : Nat → BitVec 16) : Prop :=
  (∀ rb ∈ rbs, map rb &&& mask = 0#16) ∨ ∀ rb ∈ rbs, map rb &&& mask ≠ 0#16

theorem foldl_reserveRb {mask : BitVec 16} {rbs : List Nat} (distinct : rbs.Nodup) (p : SchedPucch)
    (map : Nat → BitVec 16) :
    rbs.foldl (reserveRb mask) (p, map) = (if ∀ rb ∈ rbs, map rb &&& mask = 0#16 then p else {},
      fun rb => if rb ∈ rbs ∧ map rb &&& mask = 0#16 then map rb ||| mask else map rb) := by
  induction rbs generalizing p map with
  | nil => simp
  | cons rb rest ih =>
    obtain ⟨fresh, distinct⟩ := nodup_cons.mp distinct
    rw [foldl_cons, reserveRb]
    by_cases free : map rb &&& mask = 0#16
    · rw [if_pos free, ih distinct]
      have others : ∀ other ∈ rest, update map rb (map rb ||| mask) other = map other :=
        fun other inRest => update_of_ne (fun same : other = rb => fresh (same ▸ inRest)) _ _
      congr 1
      · simp +contextual [free, others]
      · funext other
        by_cases same : other = rb
        · subst same
          simp [fresh, free]
        · simp [same]
    · rw [if_neg free, ih distinct]
      congr 1
      · simp [free]
      · funext other
        by_cases same : other = rb
        · subst same
          simp [free]
        · simp [same]

theorem allOrNothing_iff {mask : BitVec 16} {rbs : List Nat} (distinct : rbs.Nodup) {p : SchedPucch}
    (active : p.active = true) (map : Nat → BitVec 16) :
    AllOrNothing rbs mask map (rbs.foldl (reserveRb mask) (p, map)).2 (rbs.foldl (reserveRb mask) (p, map)).1 ↔
      Uniform rbs mask map := by
  rw [foldl_reserveRb distinct, AllOrNothing]
  by_cases free : ∀ rb ∈ rbs, map rb &&& mask = 0#16
  · rw [if_pos free]
    refine ⟨fun _ => .inl free, fun _ => ⟨by rwa [if_pos free], ?_⟩⟩
    funext rb
    by_cases inside : rb ∈ rbs <;> simp [inside, free]
  · rw [if_neg free, if_neg free]
    constructor
    · rintro ⟨-, -, same⟩
      right
      intro rb inside unused
      -- a free RB was marked, although the symbols are not empty
      have kept : map rb ||| mask = map rb := (if_pos ⟨inside, unused⟩).symm.trans (congrFun same rb)
      have empty : mask = 0#16 := by
        rw [← unused, ← kept]
        ext i
        simp +contextual
      exact free (fun rb _ => by rw [empty, BitVec.and_zero])
    · rintro (unused | busy)
      · exact absurd unused free
      · refine ⟨rfl, rfl, funext fun rb => if_neg (fun both => busy rb both.1 both.2)⟩

theorem CsiUe.resources_single (config : CsiUe) (report : CsiReportConfig) :
    config.resources report = [] ∨ ∃ resource, config.resources report = [resource] := by
  have named : ∀ resource ∈ config.resources report, resource.pucchResourceId = report.pucchResource :=
    fun resource inside => eq_of_beq (mem_filter.mp inside).2
  have distinct : ((config.resources report).map PucchResource.pucchResourceId).Nodup :=
    config.pucchConfig.distinct.sublist (filter_sublist.map _)
  match known : config.resources report with
  | [] => exact .inl rfl
  | [resource] => exact .inr ⟨resource, rfl⟩
  | first :: second :: rest =>
    rw [known] at named distinct
    have same := (named first (by simp)).trans (named second (by simp)).symm
    simp [same] at distinct

namespace CsiCell

variable (cell : CsiCell)

def Atomic (s next : CsiState) (work : CsiWork) : Prop :=
  ∀ report, work.report = some report → cell.due work.config report = true →
    AllOrNothing (cell.wanted work.config report).1 (cell.wanted work.config report).2 s.vrbMapUl next.vrbMapUl
      (next.schedPucch work.ue (cell.pucchIndex work.config))

def Clean (s : CsiState) (work : CsiWork) : Prop :=
  ∀ report, work.report = some report → cell.due work.config report = true →
    Uniform (cell.wanted work.config report).1 (cell.wanted work.config report).2 s.vrbMapUl

variable {cell} {s next : CsiState} {work : CsiWork}

theorem csiStep_due {report : CsiReportConfig} (known : work.report = some report)
    (due : cell.due work.config report = true) (done : cell.csiStep s work = some next) :
    ∃ p : SchedPucch, p.active = true ∧ (next.schedPucch work.ue (cell.pucchIndex work.config), next.vrbMapUl) =
        (cell.wanted work.config report).1.foldl (reserveRb (cell.wanted work.config report).2) (p, s.vrbMapUl) := by
  simp only [csiStep, known, due, Bool.not_true, Bool.false_eq_true, if_false] at done
  split at done
  · cases done
  obtain ⟨resIndex, -, done⟩ := Option.bind_eq_some_iff.mp done
  split_ifs at done
  obtain ⟨left, reserved, rfl⟩ := Option.map_eq_some_iff.mp done
  simp only [update_self, wanted]
  rcases work.config.resources_single report with none | ⟨resource, one⟩
  · rw [none] at reserved ⊢
    cases reserved
    exact ⟨_, rfl, rfl⟩
  rw [one] at reserved
  obtain ⟨after, reserved, final⟩ := Option.bind_eq_some_iff.mp reserved
  cases final
  obtain ⟨⟨len, mask, simultaneous⟩, spans, rfl⟩ := Option.map_eq_some_iff.mp reserved
  rw [one]
  simp only [spans]
  exact ⟨_, rfl, rfl⟩

theorem wanted_nodup (config : CsiUe) (report : CsiReportConfig) : (cell.wanted config report).1.Nodup := by
  unfold wanted
  split
  · exact nodup_nil
  · split
    · exact nodup_nil
    · exact nodup_range'

theorem atomic_iff_clean (done : cell.csiStep s work = some next) : cell.Atomic s next work ↔ cell.Clean s work := by
  refine forall_congr' fun report => forall_congr' fun known => forall_congr' fun due => ?_
  obtain ⟨p, active, left⟩ := csiStep_due known due done
  rw [← allOrNothing_iff (wanted_nodup work.config report) active, ← left]

/-- Every report of a slot is booked as a whole or not at all exactly when no report finds a part of its RBs
in use. -/
theorem csi_reservation_all_or_nothing (cell : CsiCell) (ues : List CsiUe) (s : CsiState) :
    (∀ front work, front ++ [work] <+: cell.works ues → ∀ middle next, run cell.csiStep s front = some middle →
      cell.csiStep middle work = some next → cell.Atomic middle next work) ↔
    Steps cell.csiStep cell.Clean s (cell.works ues) := by
  constructor
  · intro atomic front work reached middle next ran done
    exact (atomic_iff_clean done).mp (atomic front work reached middle next ran done)
  · intro clean front work reached middle next ran done
    exact (atomic_iff_clean done).mpr (clean front work reached middle next ran done)

end CsiCell

def exampleUe : CsiUe where
  grid := ⟨0, none, 0, by decide, SlotGrid.zero_koffset_le, nofun⟩
  rrcProcessingTimer := 0
  ulFailure := false
  bwpId := 1
  bwpStart := 0
  maxFbTime := 4
  schedPucchSize := 8
  pucchConfig := ⟨[5], [⟨5, 0, .format2 2 0 1⟩], true, true, true, by decide⟩
  csiMeasConfig := some [⟨1, 4, 0, 5, 4⟩]

/-- The second RB is in use: the report is not booked, but the first RB stays taken. -/
theorem csi_reservation_half :
    let cell : CsiCell := ⟨0, 0, false, 10⟩
    let busy (rb : Nat) : BitVec 16 := if rb = 4 * 275 + 1 then 1#16 else 0#16
    let next := cell.nrCsiMeasReporting [exampleUe] ⟨fun _ _ => {}, busy⟩
    next.map (fun next => (next.schedPucch 0 4).active) = some false ∧ busy (4 * 275) = 0#16 ∧
      next.map (fun next => next.vrbMapUl (4 * 275)) = some 1#16 := by
  decide

end OranSlice.Mac
