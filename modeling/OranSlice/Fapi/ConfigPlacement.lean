import OranSlice.Fapi.TlvSafety

/-! A CONFIG.request is unpacked exactly if each TLV that goes into an array or a list has an element
there, which depends on the TLVs before it. -/

namespace OranSlice.Fapi

open BitCodec List

variable {message : List Byte}

structure ReadTlv where
  row : ConfigTlv
  value : Option Nat
deriving DecidableEq, Repr

/-- The TLVs from a position on. A value that is not complete is the last that is looked at. -/
def configTlvs (config : Option VendorCodec) (message : List Byte) : Nat → Nat → Nat → List ReadTlv
  | 0, _, _ => []
  | fuel + 1, position, numBadTags =>
    if position + 4 ≤ message.length then
      let tl := tlAt message position
      match configUnpackFns.lookup tl.tag with
      | some row =>
        if position + 4 + row.width ≤ message.length then
          { row, value := some (valueAt row.width message (position + 4)) } ::
            configTlvs config message fuel (position + 4 + row.width + getTlvPadding tl.length) numBadTags
        else [{ row, value := none }]
      | none =>
        match skipTlv config message tl (position + 4) numBadTags with
        | none => []
        | some (position, numBadTags) => configTlvs config message fuel position numBadTags
    else []

def tlvsOf (config : Option VendorCodec) (message : List Byte) : List ReadTlv :=
  configTlvs config message message.length (headerLength + 1) 0

def met (row : ConfigTlv) (history : List ReadTlv) : Nat := (history.filter (fun tlv => tlv.row = row)).length

def scsCommonOf : List ReadTlv → Option Nat
  | [] => none
  | ⟨.scsCommon, value⟩ :: _ => value
  | _ :: rest => scsCommonOf rest

def slotsOf (history : List ReadTlv) : Nat := ((scsCommonOf history).map (fun scs => slotsperframe.getD scs 0)).getD 0

def occasionsOf : List ReadTlv → Option Nat
  | [] => none
  | ⟨.numPrachFdOccasions, value⟩ :: _ => value
  | _ :: rest => occasionsOf rest

/-- The list of unused root sequences of the current occasion: its size, and how many are in it. -/
def unusedListOf : List ReadTlv → Option (Nat × Nat)
  | [] => none
  | ⟨.numPrachFdOccasions, _⟩ :: _ => none
  | ⟨.numUnusedRootSequences, value⟩ :: _ => value.map (fun count => (count % 256, 0))
  | ⟨.unusedRootSequences, _⟩ :: rest =>
    (unusedListOf rest).bind (fun list => if list.2 + 1 < list.1 then some (list.1, list.2 + 1) else none)
  | _ :: rest => unusedListOf rest

def occasionsDone : List ReadTlv → Nat
  | [] => 0
  | ⟨.numPrachFdOccasions, _⟩ :: _ => 0
  | ⟨.unusedRootSequences, value⟩ :: rest =>
    occasionsDone rest + if (unusedListOf (⟨.unusedRootSequences, value⟩ :: rest)).isSome then 0 else 1
  | _ :: rest => occasionsDone rest

def Placed (history : List ReadTlv) : ReadTlv → Prop
  | ⟨.ssbMask, _⟩ => met .ssbMask history < 2
  | ⟨.beamId, _⟩ => met .beamId history < 64
  | ⟨.scsCommon, value⟩ => value.getD 0 < 5
  | ⟨.slotConfig, _⟩ => met .slotConfig history < 12 * slotsOf history
  | ⟨.occasion _, _⟩ => occasionsDone history < (occasionsOf history).getD 0
  | ⟨.numUnusedRootSequences, _⟩ => occasionsDone history < (occasionsOf history).getD 0
  | ⟨.unusedRootSequences, _⟩ =>
    ((unusedListOf history).map Prod.snd).getD 0 < ((unusedListOf history).map Prod.fst).getD 0
  | _ => True

def AllPlaced : List ReadTlv → List ReadTlv → Prop
  | _, [] => True
  | history, tlv :: rest => Placed history tlv ∧ AllPlaced (tlv :: history) rest

structure ArrayPart (masks beams maskIdx beamIdx : Nat) (maskList beamList : List Nat)
    (grids : GridArray → List Nat) : Prop where
  maskIdx : maskIdx = masks
  maskList : maskList.length = 2
  beamIdx : beamIdx = beams
  beamList : beamList.length = 64
  grids : ∀ array, (grids array).length = 5

structure TddPart (scs : Option Nat) (configured field : Nat) (list : Option (List (List Nat)))
    (slotIdx symbolIdx : Nat) (symbols : Option Nat) : Prop where
  field : field = scs.getD 0
  known : scs.getD 0 < 5
  list : list.map (map length) = scs.map (fun scs => replicate (slotsperframe.getD scs 0) 12)
  slotIdx : slotIdx = configured / 12
  symbolIdx : symbolIdx = configured % 12
  symbols : symbols = scs.map (fun _ => 12)

structure PrachPart (announced : Option Nat) (done : Nat) (unused : Option (Nat × Nat))
    (list : Option (List PrachFdOccasion)) (idx unusedIdx : Nat) : Prop where
  size : list.map length = announced
  place : idx = done
  unused : ((list.bind (fun occasions => occasions[idx]?)).bind PrachFdOccasion.unusedRootSequencesList).map
    (fun sequences => (sequences.length, unusedIdx)) = unused
  counted : ∀ occasions ∈ list, ∀ occasion ∈ occasions[idx]?, ∀ sequences ∈ occasion.unusedRootSequencesList,
    occasion.numUnusedRootSequences = sequences.length
  later : ∀ occasions ∈ list, ∀ i, idx < i → ∀ occasion ∈ occasions[i]?, occasion.unusedRootSequencesList = none

structure Represents (history : List ReadTlv) (s : ConfigState) : Prop where
  arrays : ArrayPart (met .ssbMask history) (met .beamId history) s.ssbMaskIdx s.configBeamIdx s.msg.ssbMaskList
    s.msg.ssbBeamIdList s.msg.grids
  tdd : TddPart (scsCommonOf history) (met .slotConfig history) (s.msg.fields scsCommonTag) s.msg.maxTddPeriodicityList
    s.tddPeriodicityIdx s.symbolPerSlotIdx s.numberOfSymbolsPerSlot
  prach : PrachPart (occasionsOf history) (occasionsDone history) (unusedListOf history) s.msg.numPrachFdOccasionsList
    s.prachRootSeqIdx s.unusedRootSeqIdx

theorem represents_start (position numTlv : Nat) : Represents [] { position, msg := { numTlv } } where
  arrays := ⟨rfl, rfl, rfl, rfl, fun _ => rfl⟩
  tdd := ⟨rfl, by decide, rfl, rfl, rfl, rfl⟩
  prach := by
    refine ⟨rfl, rfl, rfl, ?_, ?_⟩
    · intro occasions member
      cases member
    · intro occasions member
      cases member

namespace PrachPart

variable {announced : Option Nat} {done : Nat} {unused : Option (Nat × Nat)} {list : Option (List PrachFdOccasion)}
  {occasions : List PrachFdOccasion} {occasion : PrachFdOccasion} {idx unusedIdx : Nat}

theorem inside (part : PrachPart announced done unused list idx unusedIdx) (placed : done < announced.getD 0) :
    ∃ occasions occasion, list = some occasions ∧ occasions[idx]? = some occasion := by
  cases list with
  | none =>
    rw [← part.size] at placed
    exact absurd placed (Nat.not_lt_zero done)
  | some occasions =>
    rw [← part.size, ← part.place] at placed
    exact ⟨occasions, _, rfl, getElem?_eq_getElem placed⟩

theorem outside (part : PrachPart announced done unused list idx unusedIdx) (unplaced : ¬ done < announced.getD 0) :
    list = none ∨ ∃ occasions, list = some occasions ∧ occasions.length ≤ idx := by
  cases list with
  | none => exact .inl rfl
  | some occasions =>
    rw [← part.size, ← part.place] at unplaced
    exact .inr ⟨occasions, rfl, not_lt.mp unplaced⟩

theorem set (part : PrachPart announced done unused (some occasions) idx unusedIdx) (here : idx < occasions.length)
    (counted : ∀ sequences ∈ occasion.unusedRootSequencesList, occasion.numUnusedRootSequences = sequences.length)
    (next : Nat) :
    PrachPart announced done (occasion.unusedRootSequencesList.map (fun sequences => (sequences.length, next)))
      (some (occasions.set idx occasion)) idx next where
  size := by
    rw [← part.size]
    simp
  place := part.place
  unused := by
    rw [Option.bind_some, getElem?_set_self here]
    rfl
  counted := by
    intro other same current found
    cases same
    rw [getElem?_set_self here] at found
    cases found
    exact counted
  later := by
    intro other same i after current found
    cases same
    rw [getElem?_set_ne (ne_of_lt after)] at found
    exact part.later occasions rfl i after current found

theorem advance (part : PrachPart announced done unused (some occasions) idx unusedIdx) :
    PrachPart announced (done + 1) none (some occasions) (idx + 1) 0 where
  size := part.size
  place := by rw [part.place]
  unused := by
    rw [Option.bind_some]
    cases found : occasions[idx + 1]? with
    | none => rfl
    | some occasion =>
      rw [Option.bind_some, part.later occasions rfl (idx + 1) (Nat.lt_succ_self idx) occasion found]
      rfl
  counted := by
    intro other same current found sequences member
    cases same
    rw [part.later occasions rfl (idx + 1) (Nat.lt_succ_self idx) current found] at member
    cases member
  later := by
    intro other same i after
    exact part.later other same i (Nat.lt_of_succ_lt after)

theorem fresh (count unusedIdx : Nat) : PrachPart (some count) 0 none (some (replicate count {})) 0 unusedIdx where
  size := by simp
  place := rfl
  unused := by
    rw [Option.bind_some, getElem?_replicate]
    split <;> rfl
  counted := by
    intro occasions same occasion found sequences member
    cases same
    have blank := eq_of_mem_replicate (mem_of_getElem? found)
    rw [blank] at member
    cases member
  later := by
    intro occasions same i _ occasion found
    cases same
    have blank := eq_of_mem_replicate (mem_of_getElem? found)
    rw [blank]

theorem unused_eq (part : PrachPart announced done unused (some occasions) idx unusedIdx)
    (found : occasions[idx]? = some occasion) :
    unused = occasion.unusedRootSequencesList.map (fun sequences => (sequences.length, unusedIdx)) := by
  rw [← part.unused, Option.bind_some, found]
  rfl

theorem unused_inside (part : PrachPart announced done unused list idx unusedIdx)
    (placed : (unused.map Prod.snd).getD 0 < (unused.map Prod.fst).getD 0) :
    ∃ occasions occasion sequences, list = some occasions ∧ occasions[idx]? = some occasion ∧
      occasion.unusedRootSequencesList = some sequences ∧ unused = some (sequences.length, unusedIdx) ∧
      unusedIdx < sequences.length := by
  cases found : unused with
  | none =>
    rw [found] at placed
    exact absurd placed (lt_irrefl 0)
  | some size =>
    rw [found] at placed
    obtain ⟨sequences, has, rfl⟩ := Option.map_eq_some_iff.mp (part.unused.trans found)
    obtain ⟨occasion, current, has⟩ := Option.bind_eq_some_iff.mp has
    obtain ⟨occasions, all, current⟩ := Option.bind_eq_some_iff.mp current
    exact ⟨occasions, occasion, sequences, all, current, has, rfl, placed⟩

theorem unused_outside (part : PrachPart announced done unused (some occasions) idx unusedIdx)
    (unplaced : ¬ (unused.map Prod.snd).getD 0 < (unused.map Prod.fst).getD 0)
    (found : occasions[idx]? = some occasion) {sequences : List Nat}
    (has : occasion.unusedRootSequencesList = some sequences) : sequences.length ≤ unusedIdx := by
  rw [part.unused_eq found, has] at unplaced
  exact not_lt.mp unplaced

end PrachPart

namespace TddPart

variable {scs : Option Nat} {configured field slotIdx symbolIdx : Nat} {list : Option (List (List Nat))}
  {symbols : Option Nat} {slots : List (List Nat)}

theorem length_eq (part : TddPart scs configured field (some slots) slotIdx symbolIdx symbols) :
    slots.length = (scs.map (fun scs => slotsperframe.getD scs 0)).getD 0 ∧ ∀ slot ∈ slots, slot.length = 12 := by
  have shape := part.list
  cases scs with
  | none => cases shape
  | some scs =>
    have widths : slots.map length = replicate (slotsperframe.getD scs 0) 12 := Option.some.inj shape
    refine ⟨?_, ?_⟩
    · calc
        slots.length = (slots.map length).length := (length_map _).symm
        _ = slotsperframe.getD scs 0 := by rw [widths, length_replicate]
    · intro slot member
      exact eq_of_mem_replicate (widths ▸ mem_map_of_mem member)

theorem inside (part : TddPart scs configured field list slotIdx symbolIdx symbols)
    (placed : configured < 12 * (scs.map (fun scs => slotsperframe.getD scs 0)).getD 0) :
    ∃ slots slot old, list = some slots ∧ slots[slotIdx]? = some slot ∧ slot[symbolIdx]? = some old ∧
      symbols = some 12 := by
  have symbol : symbolIdx < 12 := part.symbolIdx ▸ Nat.mod_lt _ (by decide)
  cases list with
  | none =>
    cases scs with
    | none => exact absurd placed (Nat.not_lt_zero configured)
    | some scs => cases part.list
  | some slots =>
    obtain ⟨count, widths⟩ := part.length_eq
    have here : slotIdx < slots.length := by
      rw [count, part.slotIdx]
      exact Nat.div_lt_of_lt_mul placed
    have width := widths _ (getElem_mem here)
    refine ⟨slots, slots[slotIdx], _, rfl, getElem?_eq_getElem here,
      getElem?_eq_getElem (width.symm ▸ symbol), ?_⟩
    cases scs with
    | none => cases part.list
    | some scs => exact part.symbols

theorem outside (part : TddPart scs configured field list slotIdx symbolIdx symbols)
    (unplaced : ¬ configured < 12 * (scs.map (fun scs => slotsperframe.getD scs 0)).getD 0) :
    list = none ∨ ∃ slots, list = some slots ∧ slots.length ≤ slotIdx := by
  cases list with
  | none => exact .inl rfl
  | some slots =>
    refine .inr ⟨slots, rfl, ?_⟩
    rw [part.length_eq.1, part.slotIdx]
    omega

theorem store {slot : List Nat} (part : TddPart scs configured field (some slots) slotIdx symbolIdx symbols)
    (found : slots[slotIdx]? = some slot) (value : Nat) :
    TddPart scs (configured + 1) field (some (slots.set slotIdx (slot.set symbolIdx value)))
      (if (symbolIdx + 1) % 12 = 0 then slotIdx + 1 else slotIdx) ((symbolIdx + 1) % 12) symbols where
  field := part.field
  known := part.known
  list := by
    rw [← part.list]
    apply congrArg some
    apply List.ext_getElem?
    intro i
    rw [List.getElem?_map, List.getElem?_map]
    by_cases same : slotIdx = i
    · subst same
      have here : slotIdx < slots.length := (List.getElem?_eq_some_iff.mp found).1
      rw [List.getElem?_set_self here, found]
      simp
    · rw [List.getElem?_set_ne same]
  slotIdx := by
    rw [part.slotIdx, part.symbolIdx]
    split <;> omega
  symbolIdx := by
    rw [part.symbolIdx]
    omega
  symbols := part.symbols

theorem fresh {scs : Nat} (known : scs < 5) :
    TddPart (some scs) configured scs
      (some (replicate (slotsperframe.getD scs 0) (replicate 12 0))) (configured / 12) (configured % 12)
      (some 12) where
  field := rfl
  known := known
  list := by simp
  slotIdx := rfl
  symbolIdx := rfl
  symbols := rfl

end TddPart

end OranSlice.Fapi
