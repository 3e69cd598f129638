import OranSlice.Core.Pools
import OranSlice.Mac.NrList

/-! The three lists of HARQ processes of each direction of a UE, and what the code of both directions
does with them. The lists distribute the processes like `Pools`; flags and rounds agree with that. -/

namespace OranSlice.Mac

open List Function

structure HarqProcess where
  isWaiting : Bool := false
  (ndi round : Nat := 0)
  /-- Unsigned with 16 bits: −1 is stored as 65535. -/
  feedbackSlot : Nat := 0
deriving DecidableEq, Repr

namespace HarqProcess

def noFeedbackSlot : Nat := 2 ^ 16 - 1

variable (process : HarqProcess)

def sent (slot : Nat) : HarqProcess :=
  { process with feedbackSlot := slot, isWaiting := true }

def finished : HarqProcess := { process with round := 0, ndi := process.ndi ^^^ 1 }

def retried : HarqProcess := { process with round := process.round + 1 }

def reset : HarqProcess :=
  { process with feedbackSlot := noFeedbackSlot, round := 0, isWaiting := false }

end HarqProcess

def nrMaxHarqProcesses : Nat := 16

structure HarqLists where
  (available feedback retrans : NrList)
deriving DecidableEq, Repr

/-- The process of a transmission is taken from its list: a free one when none is selected (`pid < 0`),
and otherwise from the list that its round tells. -/
def takeProcess (lists : HarqLists) (process : Nat → HarqProcess) (pid : Int) :
    Except Assertion (Nat × HarqLists) :=
  if pid < 0 then
    if lists.available.head < 0 then .error .noFreeProcess
    else do
      let available ← removeFrontNrList lists.available
      return (lists.available.head.toNat, { lists with available })
  else if (process pid.toNat).round = 0 then do
    let available ← removeNrList lists.available pid.toNat
    return (pid.toNat, { lists with available })
  else do
    let retrans ← removeNrList lists.retrans pid.toNat
    return (pid.toNat, { lists with retrans })

def drain : Nat → NrList → NrList → Except Assertion (NrList × NrList)
  | 0, _, _ => .error .endlessWalk
  | fuel + 1, source, target =>
    if source.head < 0 then .ok (source, target)
    else do
      let rest ← removeFrontNrList source
      drain fuel rest (addTailNrList target source.head.toNat)

def resetHarqLists (lists : HarqLists) : Except Assertion HarqLists := do
  let (feedback, available) ← drain (lists.feedback.len + 1) lists.feedback lists.available
  let (retrans, available) ← drain (lists.retrans.len + 1) lists.retrans available
  return ⟨available, feedback, retrans⟩

namespace HarqLists

variable {lists : HarqLists} {size : Nat} {pools : Pools}

def count (lists : HarqLists) (id : Nat) : Nat :=
  lists.available.ids.count id + lists.feedback.ids.count id + lists.retrans.ids.count id

structure Hold (lists : HarqLists) (size : Nat) (pools : Pools) : Prop where
  available : lists.available.Holds size pools.free
  feedback : lists.feedback.Holds size pools.waiting
  retrans : lists.retrans.Holds size pools.again

theorem Hold.count_eq (hold : lists.Hold size pools) (id : Nat) : lists.count id = pools.count id := by
  rw [count, hold.available.ids_eq, hold.feedback.ids_eq, hold.retrans.ids_eq]
  rfl

end HarqLists

structure HarqSound (harqRoundMax size : Nat) (lists : HarqLists) (process : Nat → HarqProcess) : Prop where
  once : ∀ id < size, lists.count id = 1
  waiting : ∀ id < size, (process id).isWaiting = true ↔ id ∈ lists.feedback.ids
  round_lt : ∀ id < size, (process id).round < harqRoundMax

structure HarqState (harqRoundMax size : Nat) (lists : HarqLists) (process : Nat → HarqProcess)
    (pools : Pools) : Prop where
  hold : lists.Hold size pools
  complete : pools.Complete size
  waiting : ∀ id, (process id).isWaiting = true ↔ id ∈ pools.waiting
  free_round : ∀ id ∈ pools.free, (process id).round = 0
  again_round : ∀ id ∈ pools.again, (process id).round ≠ 0
  unused_round : ∀ id, size ≤ id → (process id).round = 0
  round_lt : ∀ id, (process id).round < harqRoundMax

namespace HarqState

variable {harqRoundMax size id : Nat} {lists : HarqLists} {process : Nat → HarqProcess} {pools : Pools}
  {rest : List Nat}

theorem sound (state : HarqState harqRoundMax size lists process pools) :
    HarqSound harqRoundMax size lists process where
  once := by
    intro id inside
    rw [state.hold.count_eq, state.complete id, if_pos inside]
  waiting := by
    intro id _
    rw [state.waiting, state.hold.feedback.ids_eq]
  round_lt := fun id _ => state.round_lt id

variable (state : HarqState harqRoundMax size lists process pools)
include state

theorem max_pos : 0 < harqRoundMax := Nat.zero_lt_of_lt (state.round_lt 0)

theorem not_waiting_of_free (member : id ∈ pools.free) : (process id).isWaiting = false := by
  rw [Bool.eq_false_iff]
  intro waiting
  exact state.complete.not_waiting_of_free member ((state.waiting id).mp waiting)

theorem not_waiting_of_again (member : id ∈ pools.again) : (process id).isWaiting = false := by
  rw [Bool.eq_false_iff]
  intro waiting
  exact state.complete.not_again_of_waiting ((state.waiting id).mp waiting) member

theorem again_head (filled : ¬ lists.retrans.head < 0) :
    ∃ head, lists.retrans.head = (head : Nat) ∧ head ∈ pools.again := by
  obtain ⟨head, rest, head_eq, first⟩ := state.hold.retrans.exists_head filled
  exact ⟨head, head_eq, first ▸ mem_cons_self⟩

theorem mem_of_not_waiting (inside : id < size) (idle : (process id).isWaiting = false) :
    ((process id).round = 0 ∧ id ∈ pools.free) ∨ ((process id).round ≠ 0 ∧ id ∈ pools.again) := by
  rcases state.complete.mem_cases inside with free | waiting | again
  · exact .inl ⟨state.free_round id free, free⟩
  · rw [(state.waiting id).mpr waiting] at idle
    cases idle
  · exact .inr ⟨state.again_round id again, again⟩

theorem sentFrom (moved : Pools) (lists' : HarqLists) (hold : lists'.Hold size { moved with waiting := pools.waiting })
    (complete : ({ moved with waiting := pools.waiting ++ [id] } : Pools).Complete size)
    (free_sub : moved.free ⊆ pools.free) (again_sub : moved.again ⊆ pools.again) (inside : id < size)
    (left : id ∉ moved.free ∧ id ∉ moved.again) (idle : (process id).isWaiting = false) (slot : Nat) :
    HarqState harqRoundMax size { lists' with feedback := addTailNrList lists'.feedback id }
      (update process id ((process id).sent slot)) { moved with waiting := pools.waiting ++ [id] } := by
  have absent : id ∉ pools.waiting := by
    intro member
    rw [(state.waiting id).mpr member] at idle
    cases idle
  have round_eq : ∀ other, (update process id ((process id).sent slot) other).round =
      (process other).round := by
    intro other
    by_cases same : other = id
    · subst same
      rw [update_self]
      rfl
    · rw [update_of_ne same]
  refine ⟨⟨hold.available, hold.feedback.addTail absent inside, hold.retrans⟩, complete, ?_, ?_, ?_, ?_, ?_⟩
  · intro other
    by_cases same : other = id
    · subst same
      simp [HarqProcess.sent]
    · rw [update_of_ne same, state.waiting]
      simp [same]
  · intro other member
    rw [round_eq]
    exact state.free_round other (free_sub member)
  · intro other member
    rw [round_eq]
    exact state.again_round other (again_sub member)
  · intro other outside
    rw [round_eq]
    exact state.unused_round other outside
  · intro other
    rw [round_eq]
    exact state.round_lt other

theorem sendFree {removed : NrList} (member : id ∈ pools.free)
    (holds : removed.Holds size (pools.free.erase id)) (slot : Nat) :
    HarqState harqRoundMax size { lists with available := removed, feedback := addTailNrList lists.feedback id }
      (update process id ((process id).sent slot)) (pools.start id) := by
  have gone : id ∉ pools.free.erase id := fun still => state.complete.free_nodup.not_mem_erase still
  exact state.sentFrom { pools with free := pools.free.erase id } { lists with available := removed }
    ⟨holds, state.hold.feedback, state.hold.retrans⟩
    (state.complete.start member) erase_subset (List.Subset.refl _) (state.complete.free_lt member)
    ⟨gone, state.complete.not_again_of_free member⟩ (state.not_waiting_of_free member) slot

theorem sendAgain {removed : NrList} (member : id ∈ pools.again)
    (holds : removed.Holds size (pools.again.erase id)) (slot : Nat) :
    HarqState harqRoundMax size { lists with retrans := removed, feedback := addTailNrList lists.feedback id }
      (update process id ((process id).sent slot)) (pools.restart id) := by
  have gone : id ∉ pools.again.erase id := fun still => state.complete.again_nodup.not_mem_erase still
  have not_free : id ∉ pools.free := fun free => state.complete.not_again_of_free free member
  exact state.sentFrom { pools with again := pools.again.erase id } { lists with retrans := removed }
    ⟨state.hold.available, state.hold.feedback, holds⟩
    (state.complete.restart member) (List.Subset.refl _) erase_subset (state.complete.again_lt member)
    ⟨not_free, gone⟩ (state.not_waiting_of_again member) slot

variable {settled : HarqProcess}

theorem settle {lists' : HarqLists} {pools' : Pools}
    (first : pools.waiting = id :: rest) (hold : lists'.Hold size pools') (complete : pools'.Complete size)
    (shorter : pools'.waiting = rest) (idle : settled.isWaiting = false)
    (free_sub : ∀ other ∈ pools'.free, other ∈ pools.free ∨ other = id ∧ settled.round = 0)
    (again_sub : ∀ other ∈ pools'.again, other ∈ pools.again ∨ other = id ∧ settled.round ≠ 0)
    (bounded : settled.round < harqRoundMax) :
    HarqState harqRoundMax size lists' (update process id settled) pools' := by
  have member : id ∈ pools.waiting := first ▸ mem_cons_self
  have fresh : id ∉ rest := by
    have unique := state.complete.waiting_nodup
    rw [first] at unique
    exact (nodup_cons.mp unique).1
  have inside : id < size := state.complete.waiting_lt member
  refine ⟨hold, complete, ?_, ?_, ?_, ?_, ?_⟩
  · intro other
    rw [shorter]
    by_cases same : other = id
    · subst same
      simp [idle, fresh]
    · rw [update_of_ne same, state.waiting, first]
      simp [same]
  · intro other present
    rcases free_sub other present with before | ⟨rfl, zero⟩
    · have differs : other ≠ id := by
        rintro rfl
        exact state.complete.not_waiting_of_free before member
      rw [update_of_ne differs]
      exact state.free_round other before
    · rw [update_self]
      exact zero
  · intro other present
    rcases again_sub other present with before | ⟨rfl, positive⟩
    · have differs : other ≠ id := by
        rintro rfl
        exact state.complete.not_again_of_waiting member before
      rw [update_of_ne differs]
      exact state.again_round other before
    · rw [update_self]
      exact positive
  · intro other outside
    rw [update_of_ne (by omega)]
    exact state.unused_round other outside
  · intro other
    by_cases same : other = id
    · subst same
      rw [update_self]
      exact bounded
    · rw [update_of_ne same]
      exact state.round_lt other

section Settled

variable {removed : NrList} (first : pools.waiting = id :: rest) (holds : removed.Holds size rest)
  (idle : settled.isWaiting = false)

include first holds idle

theorem finish :
    HarqState harqRoundMax size { lists with feedback := removed, available := addTailNrList lists.available id }
      (update process id settled.finished) (pools.finish id) := by
  have member : id ∈ pools.waiting := first ▸ mem_cons_self
  have not_free : id ∉ pools.free := fun free => state.complete.not_waiting_of_free free member
  have shorter : (pools.finish id).waiting = rest := by
    rw [Pools.finish, first]
    rfl
  have hold : HarqLists.Hold { lists with feedback := removed, available := addTailNrList lists.available id }
      size (pools.finish id) :=
    ⟨state.hold.available.addTail not_free (state.complete.waiting_lt member), shorter ▸ holds,
      state.hold.retrans⟩
  apply state.settle first hold (state.complete.finish first) shorter
  · exact idle
  · intro other present
    rcases mem_append.mp present with before | only
    · exact .inl before
    · exact .inr ⟨mem_singleton.mp only, rfl⟩
  · exact fun other present => .inl present
  · exact state.max_pos

theorem retry (room : settled.round + 1 < harqRoundMax) :
    HarqState harqRoundMax size { lists with feedback := removed, retrans := addTailNrList lists.retrans id }
      (update process id settled.retried) (pools.fail id) := by
  have member : id ∈ pools.waiting := first ▸ mem_cons_self
  have not_again : id ∉ pools.again := state.complete.not_again_of_waiting member
  have shorter : (pools.fail id).waiting = rest := by
    rw [Pools.fail, first]
    rfl
  have hold : HarqLists.Hold { lists with feedback := removed, retrans := addTailNrList lists.retrans id }
      size (pools.fail id) :=
    ⟨state.hold.available, shorter ▸ holds,
      state.hold.retrans.addTail not_again (state.complete.waiting_lt member)⟩
  apply state.settle first hold (state.complete.fail first) shorter
  · exact idle
  · exact fun other present => .inl present
  · intro other present
    rcases mem_append.mp present with before | only
    · exact .inl before
    · exact .inr ⟨mem_singleton.mp only, Nat.succ_ne_zero _⟩
  · exact room

end Settled

structure Sent (harqRoundMax size : Nat) (lists : HarqLists) (process : Nat → HarqProcess) (pools : Pools)
    (pid : Int) (slot id : Nat) (taken : HarqLists) (after : Pools) : Prop where
  take : takeProcess lists process pid = .ok (id, taken)
  selected : 0 ≤ pid → pid = id
  idle : (process id).isWaiting = false
  waiting_eq : after.waiting = pools.waiting ++ [id]
  again_sub : after.again ⊆ pools.again
  state : HarqState harqRoundMax size { taken with feedback := addTailNrList taken.feedback id }
    (update process id ((process id).sent slot)) after

theorem takeProcess_new (free : pools.free = id :: rest) {pid : Int} (unselected : pid < 0) (slot : Nat) :
    ∃ taken after, Sent harqRoundMax size lists process pools pid slot id taken after := by
  have holds := state.hold.available
  rw [free] at holds
  have member : id ∈ pools.free := free ▸ mem_cons_self
  have left : pools.free.erase id = rest := by rw [free, erase_cons_head]
  obtain ⟨removed, front, leaves⟩ := holds.removeFront
  refine ⟨{ lists with available := removed }, pools.start id, ?_⟩
  refine ⟨?_, by omega, state.not_waiting_of_free member, rfl, List.Subset.refl _,
    state.sendFree member (left ▸ leaves) slot⟩
  · rw [takeProcess, if_pos unselected, front, holds.head_eq]
    rfl

theorem takeProcess_selected (inside : id < size) (idle : (process id).isWaiting = false) (slot : Nat) :
    ∃ taken after, Sent harqRoundMax size lists process pools id slot id taken after := by
  rcases state.mem_of_not_waiting inside idle with ⟨zero, member⟩ | ⟨positive, member⟩
  · obtain ⟨removed, erased, leaves⟩ := state.hold.available.remove member
    refine ⟨{ lists with available := removed }, pools.start id, ?_⟩
    refine ⟨?_, fun _ => rfl, idle, rfl, List.Subset.refl _, state.sendFree member leaves slot⟩
    · rw [takeProcess, Int.toNat_natCast, if_pos zero, erased]
      rfl
  · obtain ⟨removed, erased, leaves⟩ := state.hold.retrans.remove member
    refine ⟨{ lists with retrans := removed }, pools.restart id, ?_⟩
    refine ⟨?_, fun _ => rfl, idle, rfl, erase_subset, state.sendAgain member leaves slot⟩
    · rw [takeProcess, Int.toNat_natCast, if_neg positive, erased]
      rfl

theorem takeProcess_waiting (waits : (process id).isWaiting = true) :
    takeProcess lists process id = .error .idNotFound := by
  have member := (state.waiting id).mp waits
  have not_free : id ∉ pools.free := fun free => state.complete.not_waiting_of_free free member
  rw [takeProcess, if_neg (by omega), Int.toNat_natCast]
  split
  · rw [state.hold.available.remove_absent not_free]
    rfl
  · rw [state.hold.retrans.remove_absent (state.complete.not_again_of_waiting member)]
    rfl

end HarqState

theorem drain_holds {source target : NrList} {size : Nat} {moving there : List Nat}
    (holds : source.Holds size moving) (into : target.Holds size there)
    (apart : ∀ id ∈ moving, id ∉ there) {fuel : Nat} (enough : moving.length < fuel) :
    ∃ emptied filled, drain fuel source target = .ok (emptied, filled) ∧
      emptied.Holds size [] ∧ filled.Holds size (there ++ moving) := by
  induction moving generalizing source target there fuel with
  | nil =>
    obtain ⟨fuel, rfl⟩ := Nat.exists_eq_succ_of_ne_zero (ne_of_gt enough)
    refine ⟨source, target, ?_, holds, ?_⟩
    · rw [drain, if_pos (holds.head_neg_iff.mpr rfl)]
    · rw [append_nil]
      exact into
  | cons id rest ih =>
    cases fuel with
    | zero => simp at enough
    | succ fuel =>
      obtain ⟨removed, taken, left⟩ := holds.removeFront
      have fresh := (nodup_cons.mp holds.nodup).1
      have added := into.addTail (apart id mem_cons_self) (holds.bounded id mem_cons_self)
      have apart' : ∀ other ∈ rest, other ∉ there ++ [id] := by
        intro other member present
        rcases mem_append.mp present with before | only
        · exact apart other (mem_cons_of_mem id member) before
        · exact fresh (mem_singleton.mp only ▸ member)
      obtain ⟨emptied, target', drained, empty, all⟩ := ih left added apart' (by simpa using enough)
      refine ⟨emptied, target', ?_, empty, ?_⟩
      · rw [drain, taken, holds.head_eq]
        exact drained
      · rw [append_cons]
        exact all

theorem HarqState.reset {harqRoundMax size : Nat} {lists : HarqLists} {process : Nat → HarqProcess}
    {pools : Pools} (state : HarqState harqRoundMax size lists process pools) (fits : size ≤ nrMaxHarqProcesses) :
    ∃ emptied, resetHarqLists lists = .ok emptied ∧ HarqState harqRoundMax size emptied
        (fun id => if id < nrMaxHarqProcesses then (process id).reset else process id) pools.reclaim := by
  have apart : ∀ id ∈ pools.waiting, id ∉ pools.free := fun id member free =>
    state.complete.not_waiting_of_free free member
  obtain ⟨feedback, available, drained, empty, filled⟩ := drain_holds state.hold.feedback state.hold.available
    apart state.hold.feedback.length_lt
  have apart' : ∀ id ∈ pools.again, id ∉ pools.free ++ pools.waiting := by
    intro id member present
    rcases mem_append.mp present with free | waiting
    · exact state.complete.not_again_of_free free member
    · exact state.complete.not_again_of_waiting waiting member
  obtain ⟨retrans, available', drained', empty', filled'⟩ := drain_holds state.hold.retrans filled apart'
    state.hold.retrans.length_lt
  -- processes beyond the arrays have never been in use
  have zero : ∀ id, (if id < nrMaxHarqProcesses then (process id).reset else process id).round = 0 := by
    intro id
    split
    case isTrue => rfl
    case isFalse outside => exact state.unused_round id (by omega)
  have idle : ∀ id, (if id < nrMaxHarqProcesses then (process id).reset else process id).isWaiting = false := by
    intro id
    split
    case isTrue => rfl
    case isFalse outside =>
      rw [Bool.eq_false_iff]
      intro waits
      have inside := state.complete.waiting_lt ((state.waiting id).mp waits)
      omega
  refine ⟨⟨available', feedback, retrans⟩, ?_, ?_⟩
  · simp [resetHarqLists, drained, drained', bind, Except.bind, pure, Except.pure]
  · exact
      { hold := ⟨filled', empty, empty'⟩
        complete := state.complete.reclaim
        waiting := by simp [idle, Pools.reclaim]
        free_round := fun id _ => zero id
        again_round := by simp [Pools.reclaim]
        unused_round := fun id _ => zero id
        round_lt := by
          intro id
          rw [zero]
          exact state.max_pos }

end OranSlice.Mac
