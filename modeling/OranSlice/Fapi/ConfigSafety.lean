import OranSlice.Fapi.ConfigPlacement

/-! The loop over the TLVs of a CONFIG.request, and with it the unpacking of P5 messages. -/

namespace OranSlice.Fapi

open BitCodec Walk List Function

variable {message : List Byte} {history : List ReadTlv} {s : ConfigState} {tag after : Nat} {row : ConfigTlv}
  {value : Option Nat}

theorem lookup_scsCommon (found : configUnpackFns.lookup tag = some row) : row = .scsCommon ↔ tag = scsCommonTag := by
  obtain ⟨before, behind, table, _⟩ := lookup_eq_some_iff.mp found
  have all : ∀ entry ∈ configUnpackFns, entry.2 = .scsCommon ↔ entry.1 = scsCommonTag := by decide
  exact all (tag, row) (table ▸ mem_append_right before mem_cons_self)

theorem unpackGrid_ok (message : List Byte) {array : List Nat} {indices : List Nat}
    (inside : ∀ i ∈ indices, i < array.length) (result : Bool) (position : Nat) :
    ∃ values, unpackGrid message indices array result position =
      .ok (if indices = [] then result else decide (position + 2 * indices.length ≤ message.length), values) ∧
      values.1.length = array.length ∧
      (position + 2 * indices.length ≤ message.length → values.2 = position + 2 * indices.length) := by
  induction indices generalizing array result position with
  | nil => exact ⟨(array, position), rfl, rfl, fun _ => rfl⟩
  | cons i rest ih =>
    have here := readAt_inside (inside i mem_cons_self) 0
    have others : ∀ value, ∀ j ∈ rest, j < (array.set i value).length := by
      intro value j member
      rw [length_set]
      exact inside j (mem_cons_of_mem i member)
    by_cases there : position + 2 ≤ message.length
    · obtain ⟨values, unpacked, size, moved⟩ := ih (others (valueAt 2 message position)) true (position + 2)
      refine ⟨values, ?_, size.trans length_set, ?_⟩
      · simp only [unpackGrid, here, pull16, pull_there there, bind, Except.bind, Option.getD_some,
          Option.isSome_some, unpacked]
        cases rest with
        | nil => simp [there]
        | cons j rest => simp [mul_add, add_assoc, add_comm]
      · intro all
        rw [length_cons] at all ⊢
        omega
    · obtain ⟨values, unpacked, size, moved⟩ := ih (others (array.getD i 0)) false position
      refine ⟨values, ?_, size.trans length_set, ?_⟩
      · simp only [unpackGrid, here, pull16, pull_missing (not_le.mp there), bind, Except.bind,
          Option.getD_none, Option.isSome_none, unpacked]
        have short : ¬ position + 2 * (rest.length + 1) ≤ message.length := by omega
        have short' : ¬ position + 2 * rest.length ≤ message.length ∨ rest = [] := by
          cases rest with
          | nil => exact .inr rfl
          | cons j rest =>
            rw [length_cons]
            omega
        rcases short' with short' | empty
        · simp [short, short']
        · subst empty
          simp [there]
      · intro all
        rw [length_cons] at all
        omega

def Stored (message : List Byte) (history : List ReadTlv) (s : ConfigState) (tag : Nat) (row : ConfigTlv)
    (value : Option Nat) (after : Nat) : Prop :=
  ∃ next, unpackConfigTlv message tag s row = .ok (value.isSome, next) ∧ (value.isSome = true →
    Represents (⟨row, value⟩ :: history) next ∧ next.position = after ∧ next.numBadTags = s.numBadTags)

section

variable (rep : Represents history s)

include rep

theorem Represents.tdd_setField (other : tag ≠ scsCommonTag) (value : Nat) :
    TddPart (scsCommonOf history) (met .slotConfig history)
      (update s.msg.fields tag value scsCommonTag) s.msg.maxTddPeriodicityList s.tddPeriodicityIdx
      s.symbolPerSlotIdx s.numberOfSymbolsPerSlot := by
  rw [update_of_ne (Ne.symm other)]
  exact rep.tdd

theorem field_stored (other : tag ≠ scsCommonTag) {kind : ValueKind}
    (pulled : pull kind.width message s.position = .ok (value, after)) :
    Stored message history s tag (.field kind) value after := by
  have kept := rep.tdd_setField other (value.getD (s.msg.fields tag))
  simp only [Stored, unpackConfigTlv, pulled]
  exact ⟨_, rfl, fun _ => ⟨⟨rep.arrays, kept, rep.prach⟩, rfl, rfl⟩⟩

theorem grid_stored {array : GridArray} (pulled : pull 10 message s.position = .ok (value, after)) :
    Stored message history s tag (.grid array) value after := by
  obtain ⟨values, unpacked, size, moved⟩ := unpackGrid_ok message
    (show ∀ i ∈ [0, 1, 2, 3, 4], i < (s.msg.grids array).length by
      rw [rep.arrays.grids array]
      decide) false s.position
  have grids : ∀ other, (update s.msg.grids array values.1 other).length = 5 := by
    intro other
    by_cases same : other = array
    · subst same
      rw [update_self, size, rep.arrays.grids]
    · rw [update_of_ne same, rep.arrays.grids]
  simp only [Stored, unpackConfigTlv, unpacked]
  by_cases there : s.position + 10 ≤ message.length
  · rw [pull_there there] at pulled
    cases pulled
    simp only [length_cons, length_nil, there]
    exact ⟨_, rfl, fun _ => ⟨⟨{ rep.arrays with grids }, rep.tdd, rep.prach⟩, moved there, rfl⟩⟩
  · rw [pull_missing (not_le.mp there)] at pulled
    cases pulled
    simp only [length_cons, length_nil, there]
    exact ⟨_, rfl, fun absent => nomatch absent⟩

theorem numPrachFdOccasions_stored (other : tag ≠ scsCommonTag)
    (pulled : pull8 message s.position = .ok (value, after)) :
    Stored message history s tag .numPrachFdOccasions value after := by
  have kept := rep.tdd_setField other (value.getD (s.msg.fields tag))
  simp only [Stored, unpackConfigTlv, pulled]
  refine ⟨_, rfl, fun present => ?_⟩
  obtain ⟨count, rfl⟩ := Option.isSome_iff_exists.mp present
  refine ⟨⟨rep.arrays, kept, ?_⟩, rfl, rfl⟩
  simp only [setField, update_self]
  exact PrachPart.fresh count s.unusedRootSeqIdx

theorem scsCommon_stored (pulled : pull8 message s.position = .ok (value, after)) (known : value.getD 0 < 5) :
    Stored message history s scsCommonTag .scsCommon value after := by
  have inside : value.getD (s.msg.fields scsCommonTag) < slotsperframe.length := by
    cases value with
    | none => exact rep.tdd.field ▸ rep.tdd.known
    | some scs => exact known
  simp only [Stored, unpackConfigTlv, pulled, bind, Except.bind, setField, update_self]
  rw [readAt_inside inside 0]
  refine ⟨_, rfl, fun present => ?_⟩
  obtain ⟨scs, rfl⟩ := Option.isSome_iff_exists.mp present
  have fresh : TddPart (some scs) (met .slotConfig history) scs
      (some (replicate (slotsperframe.getD scs 0) (replicate 12 0))) s.tddPeriodicityIdx
      s.symbolPerSlotIdx (some 12) := by
    rw [rep.tdd.slotIdx, rep.tdd.symbolIdx]
    exact TddPart.fresh known
  refine ⟨⟨rep.arrays, ?_, rep.prach⟩, rfl, rfl⟩
  exact fresh

theorem occasion_stored {part : OccasionField} (pulled : pull part.width message s.position = .ok (value, after))
    (placed : occasionsDone history < (occasionsOf history).getD 0) :
    Stored message history s tag (.occasion part) value after := by
  obtain ⟨occasions, occasion, list, current⟩ := rep.prach.inside placed
  have prach := rep.prach
  rw [list] at prach
  simp only [Stored, unpackConfigTlv, list, deref, readAt_of_some current, pulled, bind, Except.bind]
  refine ⟨_, rfl, fun _ => ⟨⟨rep.arrays, rep.tdd, ?_⟩, rfl, rfl⟩⟩
  have kept := @PrachPart.set _ _ _ _ { occasion with
    fields := update occasion.fields part (value.getD (occasion.fields part)) } _ _ prach
    (List.getElem?_eq_some_iff.mp current).1 (prach.counted occasions rfl occasion current) s.unusedRootSeqIdx
  rw [← prach.unused_eq current] at kept
  exact kept

theorem numUnusedRootSequences_stored (pulled : pull16 message s.position = .ok (value, after))
    (placed : occasionsDone history < (occasionsOf history).getD 0) :
    Stored message history s tag .numUnusedRootSequences value after := by
  obtain ⟨occasions, occasion, list, current⟩ := rep.prach.inside placed
  have prach := rep.prach
  rw [list] at prach
  simp only [Stored, unpackConfigTlv, list, deref, readAt_of_some current, pulled, bind, Except.bind]
  refine ⟨_, rfl, fun present => ⟨⟨rep.arrays, rep.tdd, ?_⟩, rfl, rfl⟩⟩
  obtain ⟨count, rfl⟩ := Option.isSome_iff_exists.mp present
  have started := @PrachPart.set _ _ _ _ { occasion with
    numUnusedRootSequences := count % 256
    unusedRootSequencesList := some (List.replicate (count % 256) 0) } _ _ prach
    (List.getElem?_eq_some_iff.mp current).1 (by simp) 0
  rw [Option.map_some, List.length_replicate] at started
  exact started

theorem unusedRootSequences_stored (pulled : pull16 message s.position = .ok (value, after))
    (placed : Placed history ⟨.unusedRootSequences, value⟩) :
    Stored message history s tag .unusedRootSequences value after := by
  obtain ⟨occasions, occasion, sequences, list, current, has, unused, here⟩ := rep.prach.unused_inside placed
  have prach := rep.prach
  rw [list] at prach
  have inside := (List.getElem?_eq_some_iff.mp current).1
  have count := prach.counted occasions rfl occasion current sequences has
  have stored := fun sequence next => @PrachPart.set _ _ _ _ { occasion with
    unusedRootSequencesList := some (sequences.set s.unusedRootSeqIdx sequence) } _ _ prach inside
    (by simp [count]) next
  simp only [Stored, unpackConfigTlv, list, deref, readAt_of_some current, has, readAt_inside here 0, pulled,
    bind, Except.bind]
  split
  · refine ⟨_, rfl, fun _ => ⟨⟨rep.arrays, rep.tdd, ?_⟩, rfl, rfl⟩⟩
    have full : unusedListOf (⟨.unusedRootSequences, value⟩ :: history) = none := by
      rw [unusedListOf, unused, Option.bind_some, if_neg (by omega)]
    rw [occasionsDone, full]
    exact (stored _ 0).advance
  · refine ⟨_, rfl, fun _ => ⟨⟨rep.arrays, rep.tdd, ?_⟩, rfl, rfl⟩⟩
    have grown : unusedListOf (⟨.unusedRootSequences, value⟩ :: history) =
        some (sequences.length, s.unusedRootSeqIdx + 1) := by
      rw [unusedListOf, unused, Option.bind_some, if_pos (by omega)]
    have kept := stored ((value.map (· % 256)).getD (sequences.getD s.unusedRootSeqIdx 0)) (s.unusedRootSeqIdx + 1)
    rw [Option.map_some, List.length_set] at kept
    rw [occasionsDone, grown]
    exact kept

theorem ssbMask_stored (pulled : pull32 message s.position = .ok (value, after))
    (placed : met .ssbMask history < 2) : Stored message history s tag .ssbMask value after := by
  have here : s.ssbMaskIdx < s.msg.ssbMaskList.length := by
    rw [rep.arrays.maskIdx, rep.arrays.maskList]
    exact placed
  simp only [Stored, unpackConfigTlv, readAt_inside here 0, pulled]
  refine ⟨_, rfl, fun _ => ⟨⟨?_, rep.tdd, rep.prach⟩, rfl, rfl⟩⟩
  exact { rep.arrays with
    maskIdx := congrArg (· + 1) rep.arrays.maskIdx
    maskList := length_set.trans rep.arrays.maskList }

theorem beamId_stored (pulled : pull8 message s.position = .ok (value, after))
    (placed : met .beamId history < 64) : Stored message history s tag .beamId value after := by
  have here : s.configBeamIdx < s.msg.ssbBeamIdList.length := by
    rw [rep.arrays.beamIdx, rep.arrays.beamList]
    exact placed
  simp only [Stored, unpackConfigTlv, readAt_inside here 0, pulled]
  refine ⟨_, rfl, fun _ => ⟨⟨?_, rep.tdd, rep.prach⟩, rfl, rfl⟩⟩
  exact { rep.arrays with
    beamIdx := congrArg (· + 1) rep.arrays.beamIdx
    beamList := length_set.trans rep.arrays.beamList }

theorem slotConfig_stored (pulled : pull8 message s.position = .ok (value, after))
    (placed : met .slotConfig history < 12 * slotsOf history) :
    Stored message history s tag .slotConfig value after := by
  obtain ⟨slots, slot, old, list, current, symbol, symbols⟩ := rep.tdd.inside placed
  have tdd := rep.tdd
  rw [list] at tdd
  simp only [Stored, unpackConfigTlv, list, deref, readAt_of_some current, readAt_of_some symbol, pulled, symbols,
    bind, Except.bind]
  refine ⟨_, rfl, fun _ => ⟨⟨rep.arrays, ?_, rep.prach⟩, rfl, rfl⟩⟩
  have stored := tdd.store current (value.getD old)
  rw [symbols] at stored
  exact stored

section

variable (found : configUnpackFns.lookup tag = some row)
  (pulled : pull row.width message s.position = .ok (value, after))

include found pulled

theorem unpackConfigTlv_placed (placed : Placed history ⟨row, value⟩) :
    Stored message history s tag row value after := by
  have common := lookup_scsCommon found
  cases row with
  | field kind => exact field_stored rep (fun same => nomatch common.mpr same) pulled
  | grid array => exact grid_stored rep pulled
  | numPrachFdOccasions => exact numPrachFdOccasions_stored rep (fun same => nomatch common.mpr same) pulled
  | scsCommon =>
    have same := common.mp rfl
    subst same
    exact scsCommon_stored rep pulled placed
  | occasion part => exact occasion_stored rep pulled placed
  | numUnusedRootSequences => exact numUnusedRootSequences_stored rep pulled placed
  | unusedRootSequences => exact unusedRootSequences_stored rep pulled placed
  | ssbMask => exact ssbMask_stored rep pulled placed
  | beamId => exact beamId_stored rep pulled placed
  | slotConfig => exact slotConfig_stored rep pulled placed

theorem unpackConfigTlv_unplaced (unplaced : ¬ Placed history ⟨row, value⟩) :
    unpackConfigTlv message tag s row = .error .outOfBounds := by
  cases row with
  | field kind | grid array | numPrachFdOccasions => exact absurd trivial unplaced
  | scsCommon =>
    have pulled' : pull8 message s.position = .ok (value, after) := pulled
    cases value with
    | none => exact absurd (show 0 < 5 by decide) unplaced
    | some scs =>
      have unknown : slotsperframe.length ≤ scs := not_lt.mp unplaced
      simp only [unpackConfigTlv, pulled', bind, Except.bind, setField, update_self, Option.getD_some]
      rw [readAt_outside unknown]
  | occasion part | numUnusedRootSequences =>
    rcases rep.prach.outside unplaced with none | ⟨occasions, list, short⟩
    · simp [unpackConfigTlv, none, deref, bind, Except.bind]
    · simp [unpackConfigTlv, list, deref, readAt_outside short, bind, Except.bind]
  | unusedRootSequences =>
    cases list : s.msg.numPrachFdOccasionsList with
    | none => simp only [unpackConfigTlv, list, deref, bind, Except.bind]
    | some occasions =>
      have prach := rep.prach
      rw [list] at prach
      cases current : occasions[s.prachRootSeqIdx]? with
      | none =>
        have outside := readAt_outside (getElem?_eq_none_iff.mp current)
        simp [unpackConfigTlv, list, deref, outside, bind, Except.bind]
      | some occasion =>
        cases has : occasion.unusedRootSequencesList with
        | none => simp only [unpackConfigTlv, list, deref, readAt_of_some current, has, bind, Except.bind]
        | some sequences =>
          have outside := readAt_outside (prach.unused_outside unplaced current has)
          simp [unpackConfigTlv, list, deref, readAt_of_some current, has, outside, bind, Except.bind]
  | ssbMask =>
    have outside : s.msg.ssbMaskList.length ≤ s.ssbMaskIdx := by
      rw [rep.arrays.maskIdx, rep.arrays.maskList]
      exact not_lt.mp unplaced
    simp [unpackConfigTlv, readAt_outside outside, bind, Except.bind]
  | beamId =>
    have outside : s.msg.ssbBeamIdList.length ≤ s.configBeamIdx := by
      rw [rep.arrays.beamIdx, rep.arrays.beamList]
      exact not_lt.mp unplaced
    simp [unpackConfigTlv, readAt_outside outside, bind, Except.bind]
  | slotConfig =>
    rcases rep.tdd.outside unplaced with none | ⟨slots, list, short⟩
    · simp [unpackConfigTlv, none, deref, bind, Except.bind]
    · simp [unpackConfigTlv, list, deref, readAt_outside short, bind, Except.bind]

end

end

theorem Represents.move (rep : Represents history s) (position numBadTags : Nat) :
    Represents history { s with position, numBadTags } :=
  { rep with }

section

variable (config : Option VendorCodec)

include config

theorem configTurn_known (inside : s.position + 4 ≤ message.length)
    (found : configUnpackFns.lookup (tlAt message s.position).tag = some row) :
    configTurn config message s =
      (unpackConfigTlv message (tlAt message s.position).tag { s with position := s.position + 4 } row).bind
        (fun unpacked => match unpacked with
          | (false, s) => .ok (.stop (0, s.msg))
          | (true, next) => .ok (.again { next with
              position := next.position + getTlvPadding (tlAt message s.position).length })) := by
  rw [configTurn, if_pos (by omega), unpackTl_there inside]
  simp only [bind, Except.bind, found]
  rfl

theorem configTurn_unknown (inside : s.position + 4 ≤ message.length)
    (unknown : configUnpackFns.lookup (tlAt message s.position).tag = none) :
    configTurn config message s =
      match skipTlv config message (tlAt message s.position) (s.position + 4) s.numBadTags with
      | none => .ok (.stop (0, s.msg))
      | some (position, numBadTags) => .ok (.again { s with position, numBadTags }) := by
  rw [configTurn, if_pos (by omega), unpackTl_there inside]
  simp only [bind, Except.bind, unknown]
  cases skipTlv config message (tlAt message s.position) (s.position + 4) s.numBadTags with
  | none => rfl
  | some behind => rfl

theorem configTurn_short (short : message.length < s.position + 4) :
    ∃ result, configTurn config message s = .ok (.stop result) := by
  rw [configTurn]
  by_cases more : s.position < message.length
  · obtain ⟨position, missing⟩ := unpackTl_missing short
    rw [if_pos more, missing]
    exact ⟨_, rfl⟩
  · rw [if_neg more]
    exact ⟨_, rfl⟩

theorem configTurn_unplaced (rep : Represents history s) (inside : s.position + 4 ≤ message.length)
    (found : configUnpackFns.lookup (tlAt message s.position).tag = some row)
    (pulled : pull row.width message (s.position + 4) = .ok (value, after))
    (unplaced : ¬ Placed history ⟨row, value⟩) : ¬ ∃ result, Returns (configTurn config message) s result := by
  have turn := configTurn_known config inside found
  rw [unpackConfigTlv_unplaced (rep.move (s.position + 4) s.numBadTags) found pulled unplaced] at turn
  intro ⟨result, returns⟩
  exact not_returns_of_error turn returns

theorem configTurn_returns_iff {fuel : Nat} (enough : message.length ≤ s.position + fuel)
    (rep : Represents history s) :
    (∃ result, Returns (configTurn config message) s result) ↔
      AllPlaced history (configTlvs config message fuel s.position s.numBadTags) := by
  induction fuel generalizing s history with
  | zero =>
    have ended : configTurn config message s = .ok (.stop (1, s.msg)) := if_neg (by omega)
    exact ⟨fun _ => trivial, fun _ => ⟨_, returns_of_stop ended⟩⟩
  | succ fuel ih =>
    rw [configTlvs]
    by_cases inside : s.position + 4 ≤ message.length
    · rw [if_pos inside]
      dsimp only
      cases found : configUnpackFns.lookup (tlAt message s.position).tag with
      | none =>
        have turn := configTurn_unknown config inside found
        cases skipped : skipTlv config message (tlAt message s.position) (s.position + 4) s.numBadTags with
        | none =>
          rw [skipped] at turn
          exact ⟨fun _ => trivial, fun _ => ⟨_, returns_of_stop turn⟩⟩
        | some behind =>
          rw [skipped] at turn
          have forward := skipTlv_forward skipped
          simp only [returns_iff_again turn]
          apply ih
          · dsimp only
            omega
          · exact rep.move behind.1 behind.2
      | some row =>
        have start := rep.move (s.position + 4) s.numBadTags
        have turn := configTurn_known config inside found
        dsimp only
        by_cases there : s.position + 4 + row.width ≤ message.length
        · rw [if_pos there, AllPlaced]
          have pulled := pull_there there
          by_cases placed : Placed history ⟨row, some (valueAt row.width message (s.position + 4))⟩
          · obtain ⟨next, unpacked, kept⟩ := unpackConfigTlv_placed start found pulled placed
            obtain ⟨represents, position, numBadTags⟩ := kept rfl
            rw [unpacked] at turn
            simp only [returns_iff_again turn, placed, true_and]
            have moved := represents.move (next.position + getTlvPadding (tlAt message s.position).length)
              next.numBadTags
            have left : message.length ≤
                next.position + getTlvPadding (tlAt message s.position).length + fuel := by
              omega
            have later := ih left moved
            rw [position, numBadTags] at later
            rw [position, numBadTags]
            exact later
          · have never := configTurn_unplaced config rep inside found pulled placed
            exact ⟨fun returns => absurd returns never, fun all => absurd all.1 placed⟩
        · rw [if_neg there]
          have pulled := pull_missing (not_le.mp there)
          by_cases placed : Placed history ⟨row, none⟩
          · obtain ⟨next, unpacked, _⟩ := unpackConfigTlv_placed start found pulled placed
            rw [unpacked] at turn
            exact ⟨fun _ => ⟨placed, trivial⟩, fun _ => ⟨_, returns_of_stop turn⟩⟩
          · have never := configTurn_unplaced config rep inside found pulled placed
            exact ⟨fun returns => absurd returns never, fun all => absurd all.1 placed⟩
    · rw [if_neg inside]
      obtain ⟨result, ended⟩ := configTurn_short config (not_le.mp inside)
      exact ⟨fun _ => trivial, fun _ => ⟨_, returns_of_stop ended⟩⟩

end

def headerAt (message : List Byte) : MessageHeader where
  messageId := valueAt 2 (message.take headerLength) 2
  messageLength := valueAt 4 (message.take headerLength) 4

theorem fapiNrP5MessageHeaderUnpack_eq (inside : headerLength ≤ message.length) :
    fapiNrP5MessageHeaderUnpack message = .ok (headerAt message) := by
  have size : (message.take headerLength).length = 8 := length_take_of_le inside
  have first := @pull_there (message.take headerLength) 0 1 (by omega)
  have second := @pull_there (message.take headerLength) 1 1 (by omega)
  have third := @pull_there (message.take headerLength) 2 2 (by omega)
  have fourth := @pull_there (message.take headerLength) 4 4 (by omega)
  simp only [fapiNrP5MessageHeaderUnpack, pull8, pull16, pull32, first, second, third, fourth, bind, Except.bind]
  rfl

structure IsConfigRequest (message : List Byte) : Prop where
  header : headerLength ≤ message.length
  length : (headerAt message).messageLength ≤ 0xFFFF
  id : (headerAt message).messageId = configRequestId

theorem unpacks_iff_body (config : Option VendorCodec) (inside : headerLength ≤ message.length)
    (length : (headerAt message).messageLength ≤ 0xFFFF) :
    (∃ result, Unpacks config message result) ↔
      ∃ fuel body, unpackBody config fuel message (headerAt message).messageId = .ok body := by
  have whole : ∀ fuel, fapiNrP5MessageUnpack config fuel message =
      (unpackBody config fuel message (headerAt message).messageId).bind
        (fun body => .ok (.returned body.1 body.2)) := by
    intro fuel
    rw [fapiNrP5MessageUnpack, if_neg (not_lt.mpr inside), fapiNrP5MessageHeaderUnpack_eq inside]
    simp only [bind, Except.bind]
    rw [if_neg (not_lt.mpr length)]
    rfl
  simp only [Unpacks, whole]
  rw [exists_comm]
  exact exists_congr fun fuel => ok_bind_iff _

theorem unpacks_configRequest_iff (config : Option VendorCodec) (request : IsConfigRequest message) :
    (∃ result, Unpacks config message result) ↔ AllPlaced [] (tlvsOf config message) := by
  rw [unpacks_iff_body config request.header request.length, request.id]
  have loop : ∃ position numTlv, (∀ fuel, unpackNrConfigRequest config fuel message headerLength =
        walk (configTurn config message) fuel { position, msg := { numTlv } }) ∧
      ((∃ result, Returns (configTurn config message) { position, msg := { numTlv } } result) ↔
        AllPlaced [] (tlvsOf config message)) := by
    by_cases there : headerLength + 1 ≤ message.length
    · refine ⟨headerLength + 1, valueAt 1 message headerLength, fun fuel => ?_, ?_⟩
      · simp [unpackNrConfigRequest, pull8, pull_there there, bind, Except.bind]
      · exact configTurn_returns_iff config (by dsimp only; omega) (represents_start _ _)
    refine ⟨headerLength, 0, fun fuel => ?_, ?_⟩
    · simp [unpackNrConfigRequest, pull8, pull_missing (not_le.mp there), bind, Except.bind]
    · have short : message.length = headerLength := le_antisymm (not_lt.mp there) request.header
      have none : tlvsOf config message = [] := by
        rw [tlvsOf, short]
        exact if_neg (by omega)
      rw [none]
      have ended : configTurn config message { position := headerLength, msg := { numTlv := 0 } } =
          .ok (.stop (1, { numTlv := 0 })) := if_neg (by dsimp only; omega)
      exact ⟨fun _ => trivial, fun _ => ⟨_, returns_of_stop ended⟩⟩
  obtain ⟨position, numTlv, unpacks, returns⟩ := loop
  rw [← returns]
  have body : ∀ fuel, unpackBody config fuel message configRequestId =
      (walk (configTurn config message) fuel { position, msg := { numTlv } }).bind
        (fun result => .ok ((result.1 : Int), some (Unpacked.configRequest result.2))) := by
    intro fuel
    rw [← unpacks fuel]
    rfl
  simp only [Returns, body]
  rw [@exists_comm (Nat × ConfigRequest)]
  exact exists_congr fun fuel => ok_bind_iff _

/-- Unpacking a P5 message comes to its end without an access outside the message or the unpacked
structure, exactly if each TLV of a CONFIG.request has a place behind the TLVs before it. -/
theorem p5_unpack_in_bounds_iff (config : Option VendorCodec) (message : List Byte) :
    (∃ result, Unpacks config message result) ↔
      (IsConfigRequest message → AllPlaced [] (tlvsOf config message)) := by
  by_cases request : IsConfigRequest message
  · rw [unpacks_configRequest_iff config request]
    exact ⟨fun placed _ => placed, fun placed => placed request⟩
  refine ⟨fun _ is => absurd is request, fun _ => ?_⟩
  by_cases inside : headerLength ≤ message.length
  · by_cases length : (headerAt message).messageLength ≤ 0xFFFF
    · rw [unpacks_iff_body config inside length]
      exact unpackBody_returns config inside (fun id => request ⟨inside, length, id⟩)
    refine ⟨.aborted, 0, ?_⟩
    rw [fapiNrP5MessageUnpack, if_neg (not_lt.mpr inside), fapiNrP5MessageHeaderUnpack_eq inside]
    simp only [bind, Except.bind]
    rw [if_pos (not_le.mp length)]
    rfl
  · exact ⟨.aborted, 0, if_pos (not_le.mp inside)⟩

instance (history : List ReadTlv) : (tlv : ReadTlv) → Decidable (Placed history tlv)
  | ⟨.ssbMask, _⟩ | ⟨.beamId, _⟩ | ⟨.scsCommon, _⟩ | ⟨.slotConfig, _⟩ | ⟨.occasion _, _⟩
  | ⟨.numUnusedRootSequences, _⟩ | ⟨.unusedRootSequences, _⟩ => inferInstanceAs (Decidable (_ < _))
  | ⟨.field _, _⟩ | ⟨.grid _, _⟩ | ⟨.numPrachFdOccasions, _⟩ => inferInstanceAs (Decidable True)

instance decidableAllPlaced : (history tlvs : List ReadTlv) → Decidable (AllPlaced history tlvs)
  | _, [] => inferInstanceAs (Decidable True)
  | history, tlv :: rest =>
    have := decidableAllPlaced (tlv :: history) rest
    inferInstanceAs (Decidable (Placed history tlv ∧ AllPlaced (tlv :: history) rest))

def rootIndexFirst : List Byte := [1, 0, 0, 2, 0, 0, 0, 9, 1, 0x10, 0x15, 0, 2, 0, 1, 0, 0]

/-- The index is written through the list of occasions, which has not been allocated. -/
theorem root_index_first_faults : IsConfigRequest rootIndexFirst ∧ ¬ ∃ result, Unpacks none rootIndexFirst result := by
  have request : IsConfigRequest rootIndexFirst := ⟨by decide, by decide, by decide⟩
  refine ⟨request, ?_⟩
  rw [unpacks_configRequest_iff none request]
  decide

end OranSlice.Fapi
