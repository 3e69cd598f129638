import OranSlice.Core.Cover
import OranSlice.Core.Gather
import OranSlice.Rlc.RxOrder

/-! The PDUs of one SN in the list of received PDUs, and what the receivers' walks over them, in the
order of their offsets, make of them. Where these are slices of one SDU, each walk comes down to how far
the bytes are there without a gap. -/

namespace OranSlice.Rlc

open BitCodec Window Ordered Cover List

variable {m base x : Int} {list before block after : List Pdu}

structure Split (m base x : Int) (list before block after : List Pdu) : Prop where
  whole : list = before ++ (block ++ after)
  below : ∀ pdu ∈ before, distance m base pdu.sn < distance m base x
  here : ∀ pdu ∈ block, pdu.sn = x
  above : ∀ pdu ∈ after, distance m base x < distance m base pdu.sn

namespace Split

theorem of_sorted (base_ok : Within m base) (x_ok : Within m x) (inside : ListWithin m list)
    (sorted : list.Pairwise (PduBefore m base)) : ∃ before block after, Split m base x list before block after := by
  let low (pdu : Pdu) : Bool := decide (distance m base pdu.sn < distance m base x)
  let same (pdu : Pdu) : Bool := pdu.sn == x
  have restSorted := sorted.sublist (dropWhile_sublist low)
  have high : ∀ pdu ∈ list.dropWhile low, distance m base x ≤ distance m base pdu.sn := by
    intro pdu member
    have refused := not_of_mem_dropWhile (p := low) sorted (fun ordered lower => by
      have := ordered.distance_le
      simp only [low, decide_eq_true_eq] at lower ⊢
      omega) member
    simpa [low] using refused
  refine ⟨list.takeWhile low, (list.dropWhile low).takeWhile same, (list.dropWhile low).dropWhile same, ?_, ?_, ?_,
    ?_⟩
  · rw [takeWhile_append_dropWhile, takeWhile_append_dropWhile]
  · intro pdu member
    simpa [low] using mem_takeWhile_imp member
  · intro pdu member
    simpa [same] using mem_takeWhile_imp member
  · intro pdu member
    have listed := (dropWhile_sublist same).subset member
    have fits := inside pdu ((dropWhile_sublist low).subset listed)
    have other : pdu.sn ≠ x := by
      have ordered : (list.dropWhile low).Pairwise (fun a b => PduBefore m base a b ∧
          distance m base x ≤ distance m base a.sn ∧ Within m a.sn) := by
        refine restSorted.imp_of_mem (fun first _ ordered => ⟨ordered, high _ first, ?_⟩)
        exact inside _ ((dropWhile_sublist low).subset first)
      have refused := not_of_mem_dropWhile (p := same) ordered (fun ordered equal => by
        simp only [same, beq_iff_eq] at equal ⊢
        have between := ordered.1.distance_le
        rw [equal] at between
        exact (distance_inj base_ok ordered.2.2 x_ok).mp (le_antisymm between ordered.2.1)) member
      simpa [same] using refused
    apply lt_of_le_of_ne (high pdu listed)
    intro equal
    exact other ((distance_inj base_ok x_ok fits).mp equal).symm

variable (split : Split m base x list before block after)

include split

theorem before_ne {pdu : Pdu} (member : pdu ∈ before) : pdu.sn ≠ x := by
  intro same
  have lower := split.below pdu member
  rw [same] at lower
  exact lt_irrefl _ lower

theorem after_ne {pdu : Pdu} (member : pdu ∈ after) : pdu.sn ≠ x := by
  intro same
  have higher := split.above pdu member
  rw [same] at higher
  exact lt_irrefl _ higher

theorem mem_iff {pdu : Pdu} : pdu ∈ block ↔ pdu ∈ list ∧ pdu.sn = x := by
  rw [split.whole]
  constructor
  · intro member
    exact ⟨by simp [member], split.here pdu member⟩
  · rintro ⟨member, same⟩
    rcases mem_append.mp member with low | rest
    · exact absurd same (split.before_ne low)
    · rcases mem_append.mp rest with inside | high
      · exact inside
      · exact absurd same (split.after_ne high)

omit split in
theorem of_fresh (base_ok : Within m base) (x_ok : Within m x) (inside : ListWithin m list)
    (sorted : list.Pairwise (PduBefore m base)) (fresh : ∀ pdu ∈ list, pdu.sn ≠ x) :
    ∃ before after, Split m base x list before [] after := by
  obtain ⟨before, block, after, split⟩ := of_sorted base_ok x_ok inside sorted
  have none : block = [] := by
    apply eq_nil_iff_forall_not_mem.mpr
    intro pdu member
    obtain ⟨listed, same⟩ := split.mem_iff.mp member
    exact fresh pdu listed same
  exact ⟨before, after, none ▸ split⟩

theorem block_sorted (sorted : list.Pairwise (PduBefore m base)) : block.Pairwise (fun a b => a.so ≤ b.so) := by
  have part : block.Sublist list := by
    rw [split.whole]
    exact (sublist_append_left block after).trans (sublist_append_right before _)
  refine (sorted.sublist part).imp_of_mem (fun first second ordered => ?_)
  rcases ordered with lower | ⟨_, ordered⟩
  · rw [split.here _ first, split.here _ second] at lower
    exact absurd lower (lt_irrefl _)
  · exact ordered

theorem fromSn_eq : fromSn x list = if block = [] then [] else block ++ after := by
  have skipped : fromSn x list = fromSn x (block ++ after) := by
    rw [split.whole, fromSn, fromSn, dropWhile_append_of_pos]
    intro pdu member
    simpa using split.before_ne member
  rw [skipped]
  cases block with
  | nil =>
    rw [if_pos rfl, fromSn, dropWhile_eq_nil_iff]
    intro pdu member
    simpa using split.after_ne member
  | cons first rest =>
    have same := split.here first mem_cons_self
    rw [fromSn]
    simpa using same

theorem walk_eq {β : Type*} (walk : List Pdu → β) (stops : walk (block ++ after) = walk block) :
    walk (fromSn x list) = walk block := by
  rw [split.fromSn_eq]
  by_cases none : block = []
  · rw [if_pos none, none]
  · rw [if_neg none, stops]

end Split

section Walks

variable (here : ∀ pdu ∈ block, pdu.sn = x) (others : ∀ pdu ∈ after, pdu.sn ≠ x)

include here others

theorem fullFrom_append (lastByte : Int) : fullFrom x (block ++ after) lastByte = fullFrom x block lastByte := by
  induction block generalizing lastByte with
  | nil =>
    cases after with
    | nil => rfl
    | cons b rest => exact if_pos (others b mem_cons_self)
  | cons a rest ih =>
    have later := ih (forall_mem_cons.mp here).2
    simp [fullFrom, later]

theorem reassemble_append (sdu : Option (List Byte)) :
    reassemble x (block ++ after) sdu = reassemble x block sdu := by
  induction block generalizing sdu with
  | nil =>
    cases after with
    | nil => rfl
    | cons b rest => exact if_pos (others b mem_cons_self)
  | cons a rest ih =>
    have later := ih (forall_mem_cons.mp here).2
    simp [reassemble, later]

theorem consumedSize_append :
    consumedSize x (block ++ after) = (block.map (fun pdu => (pdu.size : Int))).sum := by
  induction block with
  | nil =>
    cases after with
    | nil => rfl
    | cons b rest => exact if_pos (others b mem_cons_self)
  | cons a rest ih =>
    have same := here a mem_cons_self
    have later := ih (forall_mem_cons.mp here).2
    rw [cons_append, consumedSize, if_neg (not_not.mpr same), later, map_cons, sum_cons]

theorem consume_append (free : Pdu → Pdu) : consume free x (block ++ after) = block.map free ++ after := by
  induction block with
  | nil =>
    cases after with
    | nil => rfl
    | cons b rest => exact if_pos (others b mem_cons_self)
  | cons a rest ih =>
    have same := here a mem_cons_self
    have later := ih (forall_mem_cons.mp here).2
    rw [cons_append, consume, if_neg (not_not.mpr same), later, map_cons, cons_append]

omit here in
theorem sizeLeft_skip (so size : Int) : sizeLeft x (after ++ block) so size = sizeLeft x block so size := by
  induction after with
  | nil => rfl
  | cons a rest ih =>
    have other := others a mem_cons_self
    rw [cons_append, sizeLeft, if_pos other,
      ih (fun pdu member => others pdu (mem_cons_of_mem a member)), ite_eq_right_iff]
    intro none
    cases block with
    | nil => rfl
    | cons b rest => rw [sizeLeft, if_pos none]

theorem sizeLeft_append (so size : Int) : sizeLeft x (block ++ after) so size = sizeLeft x block so size := by
  induction block generalizing so size with
  | nil => simpa using @sizeLeft_skip x [] after others so size
  | cons a rest ih =>
    have later := ih (forall_mem_cons.mp here).2
    simp [sizeLeft, later]

end Walks

namespace Split

variable (split : Split m base x list before block after)

include split

theorem isConsumed_eq : isConsumed (fromSn x list) = isConsumed block := by
  rw [split.fromSn_eq]
  cases block <;> rfl

theorem fullFrom_eq (lastByte : Int) : fullFrom x (fromSn x list) lastByte = fullFrom x block lastByte :=
  split.walk_eq (fullFrom x · lastByte) (fullFrom_append split.here (fun _ => split.after_ne) lastByte)

theorem reassemble_eq (sdu : Option (List Byte)) : reassemble x (fromSn x list) sdu = reassemble x block sdu :=
  split.walk_eq (reassemble x · sdu) (reassemble_append split.here (fun _ => split.after_ne) sdu)

theorem consumedSize_eq : consumedSize x (fromSn x list) = (block.map (fun pdu => (pdu.size : Int))).sum := by
  have alone := @consumedSize_append x block [] split.here (by simp)
  rw [append_nil] at alone
  rw [← alone]
  exact split.walk_eq (consumedSize x)
    ((consumedSize_append split.here (fun _ => split.after_ne)).trans alone.symm)

theorem sizeLeft_eq (so size : Int) : sizeLeft x list so size = sizeLeft x block so size := by
  rw [split.whole, sizeLeft_skip (fun _ => split.before_ne),
    sizeLeft_append split.here (fun _ => split.after_ne)]

theorem consume_eq (free : Pdu → Pdu) :
    list.takeWhile (fun l => l.sn != x) ++ consume free x (fromSn x list) =
      before ++ (block.map free ++ after) := by
  rw [split.fromSn_eq]
  by_cases none : block = []
  · have all : list.takeWhile (fun l => l.sn != x) = list := by
      rw [takeWhile_eq_self_iff]
      intro pdu member
      have absent : pdu ∉ block := by simp [none]
      simpa [split.mem_iff, member] using absent
    rw [all, split.whole, none]
    simp [consume]
  · have front : list.takeWhile (fun l => l.sn != x) = before := by
      obtain ⟨first, rest, rfl⟩ := exists_cons_of_ne_nil none
      have same := split.here first mem_cons_self
      rw [split.whole, takeWhile_append_of_pos, cons_append, takeWhile_cons_of_neg, append_nil]
      · simpa using same
      · intro pdu member
        simpa using split.before_ne member
    rw [if_neg none, front, consume_append split.here (fun _ => split.after_ne)]

theorem map_block {free : Pdu → Pdu} (same : ∀ pdu, (free pdu).sn = pdu.sn) :
    Split m base x (before ++ (block.map free ++ after)) before (block.map free) after := by
  refine ⟨rfl, split.below, ?_, split.above⟩
  intro pdu member
  obtain ⟨old, listed, rfl⟩ := mem_map.mp member
  exact (same old).trans (split.here old listed)

theorem add {snCompare : Int → Int → Int} {pdu : Pdu} (sn : pdu.sn = x)
    (agrees : ∀ other ∈ list, snCompare other.sn x = distance m base other.sn - distance m base x) :
    Split m base x (nrRlcPduListAdd snCompare list pdu) before
      (block.orderedInsert (fun a b => a.so < b.so) pdu) after := by
  have listed : ∀ part : List Pdu, (∀ other ∈ part, other ∈ list) → ∀ other ∈ part,
      (comesAfter snCompare other.sn other.so pdu.sn pdu.so = true ↔
        distance m base x < distance m base other.sn ∨ (other.sn = x ∧ pdu.so < other.so)) := by
    intro part sub other member
    simp only [comesAfter, sn, agrees other (sub other member), Bool.or_eq_true, decide_eq_true_eq,
      Bool.and_eq_true, beq_iff_eq]
    omega
  refine ⟨?_, split.below, ?_, split.above⟩
  · rw [nrRlcPduListAdd, split.whole, orderedInsert_append_left, orderedInsert_append_right]
    · congr 2
      have tests : ∀ other ∈ block, (comesAfter snCompare other.sn other.so pdu.sn pdu.so = true ↔
          pdu.so < other.so) := by
        intro other member
        have same := split.here other member
        rw [listed block (fun other inside => ((split.mem_iff).mp inside).1) other member, same]
        simp
      clear listed split
      induction block with
      | nil => rfl
      | cons a rest ih =>
        simp [tests a mem_cons_self,
          ih (forall_mem_cons.mp tests).2]
    · intro other member
      rw [listed after (fun other inside => by simp [split.whole, inside]) other member]
      exact .inl (split.above other member)
    · intro other member
      rw [listed before (fun other inside => by simp [split.whole, inside]) other member]
      have lower := split.below other member
      have different := split.before_ne member
      omega
  · intro other member
    rcases (mem_orderedInsert _).mp member with new | old
    · rw [new, sn]
    · exact split.here other old

end Split

structure Pdu.IsSlice (sdu : List Byte) (pdu : Pdu) : Prop where
  size : 0 < pdu.size
  inside : pdu.so + pdu.size ≤ sdu.length
  last : pdu.isLast = true ↔ pdu.so + pdu.size = sdu.length
  data : pdu.data = some ((sdu.drop pdu.so).take pdu.size)

abbrev Held (block : List Pdu) (k : Nat) : Prop := Covered Pdu.so Pdu.size block k

abbrev heldTo (block : List Pdu) (n : Nat) : Nat := reach Pdu.so Pdu.size block n

theorem heldTo_cons (a : Pdu) (rest : List Pdu) (n : Nat) :
    heldTo (a :: rest) n = if n < a.so then n else heldTo rest (max n (a.so + a.size)) := rfl

section Slices

variable {sdu : List Byte} (here : ∀ pdu ∈ block, pdu.sn = x)

include here

theorem sizeLeft_le_iff (sorted : block.Pairwise (fun a b => a.so ≤ b.so)) (so : Nat) (size : Int) :
    sizeLeft x block so size ≤ 0 ↔ so + size ≤ heldTo block so := by
  induction block generalizing so size with
  | nil =>
    rw [sizeLeft, heldTo, reach]
    omega
  | cons a rest ih =>
    obtain ⟨first, later⟩ := pairwise_cons.mp sorted
    have ih := ih (forall_mem_cons.mp here).2 later
    have further : so ≤ heldTo (a :: rest) so := le_reach (a :: rest) so
    rw [sizeLeft]
    split
    · omega
    rw [if_neg (not_not.mpr (here a mem_cons_self))]
    have behind : so < a.so → heldTo rest so = so := by
      intro gap
      apply reach_of_lt
      intro pdu member
      have := first pdu member
      omega
    split
    · -- the first byte is there: the sweep goes on behind this PDU
      have step : (so : Int) + (a.size - (so - a.so)) = (a.so + a.size : Nat) := by omega
      dsimp only
      rw [step, ih, heldTo_cons, if_neg (by omega), max_eq_right (by omega)]
      omega
    · split
      · -- the last byte is there but not the first one, which no later PDU holds
        have gap : so < a.so := by omega
        rw [ih, heldTo_cons, if_pos gap]
        omega
      · have same : heldTo (a :: rest) so = heldTo rest so := by
          rw [heldTo_cons]
          split_ifs with gap
          · exact (behind gap).symm
          · rw [max_eq_left (by omega)]
        rw [ih, same]

variable (slices : ∀ pdu ∈ block, pdu.IsSlice sdu)

include slices

theorem fullFrom_iff {n : Nat} (short : n < sdu.length) :
    fullFrom x block (n - 1) = true ↔ sdu.length ≤ heldTo block n := by
  induction block generalizing n with
  | nil =>
    rw [fullFrom, heldTo, reach]
    simp [short]
  | cons a rest ih =>
    have slice := slices a mem_cons_self
    have inside := slice.inside
    have last := slice.last
    rw [fullFrom, if_neg (not_not.mpr (here a mem_cons_self)), heldTo_cons]
    by_cases gap : n < a.so
    · rw [if_pos (by omega), if_pos gap]
      simp [short]
    rw [if_neg (by omega), if_neg gap]
    by_cases end_ : a.isLast = true
    · have further : _ ≤ heldTo rest _ := le_reach rest (max n (a.so + a.size))
      have whole := last.mp end_
      rw [if_pos end_]
      refine iff_of_true rfl (le_trans ?_ further)
      omega
    · have open_ : a.so + a.size ≠ sdu.length := fun whole => end_ (last.mpr whole)
      rw [if_neg end_, ← ih (forall_mem_cons.mp here).2
        (forall_mem_cons.mp slices).2 (by omega)]
      congr! 2
      omega

theorem reassemble_slices (fits : sdu.length ≤ nrSduMax) {n : Nat} (low : n ≤ sdu.length)
    (full : sdu.length ≤ heldTo block n) : reassemble x block (some (sdu.take n)) = some sdu := by
  induction block generalizing n with
  | nil =>
    rw [heldTo, reach] at full
    rw [reassemble, take_of_length_le full]
  | cons a rest ih =>
    have slice := slices a mem_cons_self
    have inside := slice.inside
    rw [heldTo_cons] at full
    split at full
    · omega
    have length : (sdu.take n).length = n := by simp [low]
    have room : ¬ (n : Int) + ((a.size : Int) - (n - a.so)) > nrSduMax := by omega
    have grown : sdu.take n ++ (((sdu.drop a.so).take a.size).drop (n - a.so)).take
        ((a.size : Int) - (n - a.so)).toNat = sdu.take (max n (a.so + a.size)) := by
      rw [drop_take, drop_drop, take_take, show a.so + (n - a.so) = n by omega, ← take_add]
      congr 1
      omega
    rw [reassemble, if_neg (not_not.mpr (here a mem_cons_self)), Option.bind_some]
    rw [length, if_neg room, slice.data, Option.getD_some, grown]
    exact ih (forall_mem_cons.mp here).2
      (forall_mem_cons.mp slices).2 (by omega) full

end Slices

/-- The PDU carries some bytes of the SDU under an SN. That its first flag goes with the offset 0 is
part of its decoding. -/
structure DataPdu.IsSlice (sdu : List Byte) (x : Int) (pdu : DataPdu) : Prop where
  sn : pdu.sn = x
  inside : pdu.so + pdu.data.length ≤ sdu.length
  last : pdu.isLast = true ↔ pdu.so + pdu.data.length = sdu.length
  data : pdu.data = (sdu.drop pdu.so).take pdu.data.length

abbrev Arrived (pdus : List DataPdu) (k : Nat) : Prop :=
  Covered DataPdu.so (fun pdu => pdu.data.length) pdus k

theorem arrived_concat {pdus : List DataPdu} {pdu : DataPdu} {k : Nat} :
    Arrived (pdus ++ [pdu]) k ↔ Arrived pdus k ∨ (pdu.so ≤ k ∧ k < pdu.so + pdu.data.length) := by
  rw [Arrived, covered_append, covered_singleton]

def Complete (sdu : List Byte) (pdus : List DataPdu) : Prop := ∀ k < sdu.length, Arrived pdus k

instance (sdu : List Byte) (pdus : List DataPdu) : Decidable (Complete sdu pdus) :=
  inferInstanceAs (Decidable (∀ k < sdu.length, _))

theorem Complete.of_known {sdu : List Byte} {pdus : List DataPdu} {pdu : DataPdu}
    (complete : Complete sdu (pdus ++ [pdu]))
    (known : ∀ k, pdu.so ≤ k → k < pdu.so + pdu.data.length → Arrived pdus k) : Complete sdu pdus := by
  intro k inside
  rcases arrived_concat.mp (complete k inside) with old | ⟨low, high⟩
  · exact old
  · exact known k low high

def DataPdu.stored (pdu : DataPdu) : Pdu :=
  ⟨pdu.sn, pdu.so, pdu.data.length, pdu.isFirst, pdu.isLast, some pdu.data⟩

theorem not_complete_nil {sdu : List Byte} (nonempty : sdu ≠ []) : ¬ Complete sdu [] := by
  intro complete
  obtain ⟨pdu, member, _⟩ := complete 0 (length_pos_iff.mpr nonempty)
  cases member

structure Gathered (sdu : List Byte) (pdus : List DataPdu) (block : List Pdu) : Prop where
  slices : ∀ pdu ∈ block, pdu.IsSlice sdu
  held : ∀ k, Held block k ↔ Arrived pdus k

namespace Gathered

variable {sdu : List Byte} {pdus : List DataPdu} {pdu : DataPdu}

theorem empty (sdu : List Byte) : Gathered sdu [] [] where
  slices := by simp
  held k := by simp [Covered]

section

variable (gathered : Gathered sdu pdus block)

include gathered

theorem isConsumed : isConsumed block = false := by
  cases block with
  | nil => rfl
  | cons first rest => simp [Rlc.isConsumed, (gathered.slices first mem_cons_self).data]

theorem congr {other : List Pdu} (same : ∀ pdu, pdu ∈ other ↔ pdu ∈ block) : Gathered sdu pdus other where
  slices pdu member := gathered.slices pdu ((same pdu).mp member)
  held k := by
    rw [← gathered.held]
    simp [Covered, same]

theorem skip (known : ∀ k, pdu.so ≤ k → k < pdu.so + pdu.data.length → Arrived pdus k) :
    Gathered sdu (pdus ++ [pdu]) block where
  slices := gathered.slices
  held k := by
    rw [gathered.held, arrived_concat]
    constructor
    · exact .inl
    · rintro (old | ⟨low, high⟩)
      · exact old
      · exact known k low high

theorem insert (slice : pdu.IsSlice sdu x) (data : pdu.data ≠ []) :
    Gathered sdu (pdus ++ [pdu]) (block.orderedInsert (fun a b => a.so < b.so) pdu.stored) where
  slices other member := by
    rcases (mem_orderedInsert _).mp member with new | old
    · rw [new]
      exact ⟨length_pos_iff.mpr data, slice.inside, slice.last, congrArg some slice.data⟩
    · exact gathered.slices other old
  held k := by
    rw [arrived_concat, ← gathered.held]
    constructor
    · rintro ⟨other, member, inside⟩
      rcases (mem_orderedInsert _).mp member with new | old
      · rw [new] at inside
        exact .inr inside
      · exact .inl ⟨other, old, inside⟩
    · rintro (⟨other, member, inside⟩ | inside)
      · exact ⟨other, (mem_orderedInsert _).mpr (.inr member), inside⟩
      · exact ⟨pdu.stored, (mem_orderedInsert _).mpr (.inl rfl), inside⟩

section

variable (here : ∀ pdu ∈ block, pdu.sn = x) (sorted : block.Pairwise (fun a b => a.so ≤ b.so))

include here sorted

theorem full_iff (nonempty : sdu ≠ []) : fullFrom x block (-1) = true ↔ Complete sdu pdus := by
  have walk : fullFrom x block (-1) = true ↔ sdu.length ≤ heldTo block 0 :=
    fullFrom_iff here gathered.slices (length_pos_iff.mpr nonempty)
  rw [walk, le_reach_iff sorted]
  exact ⟨fun all k inside => (gathered.held k).mp (all k k.zero_le inside),
    fun complete k _ inside => (gathered.held k).mpr (complete k inside)⟩

theorem reassembled (fits : sdu.length ≤ nrSduMax)
    (complete : Complete sdu pdus) : reassemble x block (some []) = some sdu := by
  have walk := @reassemble_slices x block sdu here gathered.slices fits 0 (Nat.zero_le _)
  apply walk
  rw [le_reach_iff sorted]
  exact fun k _ inside => (gathered.held k).mpr (complete k inside)

end

end

end Gathered

section Statement

variable {σ : Type*}

variable (recv : σ → List Byte → σ × List AmEvent) (decode : List Byte → Option DataPdu)

def FindsRoom
    (room : σ → Int) (s : σ) (arrivals : List (List Byte)) : Prop :=
  ∀ front buffer, front ++ [buffer] <+: arrivals → ∀ pdu, decode buffer = some pdu →
    (∃ k, pdu.so ≤ k ∧ k < pdu.so + pdu.data.length ∧ ¬ Arrived (front.filterMap decode) k) →
    pdu.data.length ≤ room (Gather.receive recv s front).1

def DeliveredOnce
    (sdu : List Byte) (s : σ) (arrivals : List (List Byte)) : Prop :=
  ∀ front, front <+: arrivals → (Gather.receive recv s front).2 =
    if Complete sdu (front.filterMap decode) then [.deliverSdu sdu] else []

end Statement

end OranSlice.Rlc
