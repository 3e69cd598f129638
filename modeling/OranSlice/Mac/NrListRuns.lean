import OranSlice.Core.Runs
import OranSlice.Mac.NrList

/-! Runs of the operations on `NR_list_t`: the list represents a sequence without repetition. -/

namespace OranSlice.Mac

open NrList Links List Runs

/-- The loop of `add_nr_list`; it ends at an assertion when it meets the id. -/
def addWalk (list : NrList) (id : Nat) : Nat → Link → Option Link
  | 0, _ => none
  | fuel + 1, cur =>
    if list.read cur ≥ 0 then
      if list.read cur = id then none else addWalk list id fuel (.next (list.read cur).toNat)
    else some cur

def addNrList (list : NrList) (id : Nat) : Option NrList :=
  (addWalk list id (list.len + 1) .head).map fun cur =>
    let list := list.write cur id
    { list with tail := if list.nextOf id < 0 then id else list.tail }

def addFrontNrList (list : NrList) (id : Nat) : NrList :=
  let list := ({ list with head := id } : NrList).write (.next id) list.head
  { list with tail := if list.tail < 0 then id else list.tail }

inductive NrListOp where
  | add (id : Nat)
  | addTail (id : Nat)
  | addFront (id : Nat)
  | remove (id : Nat)
  | removeFront
  | resize (newLen : Nat)

def NrList.step (list : NrList) : NrListOp → Option NrList
  | .add id => addNrList list id
  | .addTail id => some (addTailNrList list id)
  | .addFront id => some (addFrontNrList list id)
  | .remove id => (removeNrList list id).toOption
  | .removeFront => (removeFrontNrList list).toOption
  | .resize newLen => (resizeNrList list newLen).toOption

structure IdSequence where
  len : Nat
  ids : List Nat

def IdSequence.step (s : IdSequence) : NrListOp → Option IdSequence
  | .add id | .addTail id => some ⟨s.len, s.ids ++ [id]⟩
  | .addFront id => some ⟨s.len, id :: s.ids⟩
  | .remove id => if id ∈ s.ids then some ⟨s.len, s.ids.erase id⟩ else none
  | .removeFront => if s.ids = [] then none else some ⟨s.len, s.ids.tail⟩
  | .resize newLen => some ⟨newLen, s.ids⟩

def NrListOp.Legal (s : IdSequence) : NrListOp → Prop
  | .add id | .addTail id | .addFront id => id < s.len ∧ id ∉ s.ids
  | .resize newLen => s.len ≤ newLen
  | .remove _ | .removeFront => True

instance (s : IdSequence) (op : NrListOp) : Decidable (op.Legal s) :=
  match op with
  | .add _ | .addTail _ | .addFront _ => inferInstanceAs (Decidable (_ ∧ _))
  | .resize _ => inferInstanceAs (Decidable (_ ≤ _))
  | .remove _ | .removeFront => .isTrue trivial

structure Represents (list : NrList) (s : IdSequence) : Prop extends list.Holds s.len s.ids where
  absent : ∀ id ∉ s.ids, list.nextOf id = -1

variable {list : NrList} {id : Nat} {ids : List Nat}

theorem nextOf_write_eq (list : NrList) (id : Nat) (value : Int) (other : Nat) :
    (list.write (.next id) value).nextOf other =
      if id = other ∧ id < list.next.length then value else list.nextOf other := by
  simp only [nextOf, write]
  by_cases same : id = other
  · subst same
    split_ifs <;> simp_all
  · simp [same]

theorem write_absent {link : Link} (listed : link = .head ∨ ∃ last ∈ ids, link = .next last) (value : Int)
    (absent : ∀ other ∉ ids, list.nextOf other = -1) : ∀ other ∉ ids, (list.write link value).nextOf other = -1 := by
  intro other outside
  rcases listed with rfl | ⟨last, inside, rfl⟩
  · exact absent other outside
  · have other_link : ¬ (last = other ∧ last < list.next.length) := fun both => outside (both.1 ▸ inside)
    rw [nextOf_write_eq, if_neg other_link, absent other outside]

theorem clear_absent (absent : ∀ other ∉ id :: ids, list.nextOf other = -1) :
    ∀ other ∉ ids, (list.write (.next id) (-1)).nextOf other = -1 := by
  intro other outside
  rw [nextOf_write_eq]
  by_cases same : id = other
  · subst same
    split_ifs with inside
    · rfl
    · simp [nextOf, getElem?_eq_none (Nat.le_of_not_lt fun room => inside ⟨rfl, room⟩)]
  · rw [if_neg (fun both => same both.1)]
    exact absent other (by simp [Ne.symm same, outside])

theorem after_listed (ids : List Nat) :
    (after .head .head ids).2 = .head ∨ ∃ last ∈ ids, (after .head .head ids).2 = .next last := by
  rcases eq_nil_or_concat ids with rfl | ⟨front, last, rfl⟩
  · exact .inl rfl
  · rw [concat_eq_append, after_concat]
    exact .inr ⟨last, by simp, rfl⟩

theorem addWalk_eq (prev cur : Link) {fuel : Nat} (path : Segment list.nextOf (list.read cur) ids (-1))
    (absent : id ∉ ids) (enough : ids.length < fuel) : addWalk list id fuel cur = some (after prev cur ids).2 := by
  induction ids generalizing prev cur fuel with
  | nil =>
    obtain ⟨fuel, rfl⟩ := Nat.exists_eq_succ_of_ne_zero (ne_of_gt enough)
    rw [addWalk, if_neg (by rw [path]; decide)]
    rfl
  | cons first rest ih =>
    obtain ⟨here, later⟩ := path
    obtain ⟨differs, absent⟩ := not_or.mp (mem_cons.not.mp absent)
    cases fuel with
    | zero => simp at enough
    | succ fuel =>
      rw [addWalk, if_pos (by omega), if_neg (by omega), here]
      exact ih cur (.next first) later absent (by simpa using enough)

variable {s : IdSequence}

namespace Represents

theorem after_tail (rep : Represents list s) :
    (after .head .head s.ids).2 = if list.tail < 0 then .head else .next list.tail.toNat := by
  rw [rep.tail_eq]
  rcases eq_nil_or_concat s.ids with empty | ⟨front, last, concat⟩
  · rw [empty]
    rfl
  · have filled : ¬ (last : Int) < 0 := by omega
    rw [concat, concat_eq_append, after_concat, lastOf_concat, if_neg filled, Int.toNat_natCast]

theorem addTail (rep : Represents list s) (inside : id < s.len) (fresh : id ∉ s.ids) :
    Represents (addTailNrList list id) ⟨s.len, s.ids ++ [id]⟩ := by
  refine ⟨rep.toHolds.addTail fresh inside, ?_⟩
  have written := write_absent (after_listed s.ids) id rep.absent
  rw [rep.after_tail] at written
  apply clear_absent
  intro other outside
  exact written other fun member => outside (by simp [member])

theorem add_eq (rep : Represents list s) (inside : id < s.len) (fresh : id ∉ s.ids) :
    addNrList list id = some (addTailNrList list id) := by
  have walked := addWalk_eq .head .head rep.links fresh rep.length_lt
  have written := write_absent (after_listed s.ids) id rep.absent id fresh
  rw [rep.after_tail] at walked written
  have ends : (list.write (if list.tail < 0 then .head else .next list.tail.toNat) id).nextOf id < 0 := by
    rw [written]
    decide
  have room : id < (list.write (if list.tail < 0 then .head else .next list.tail.toNat) id).next.length := by
    rw [← rep.next_length] at inside
    split <;> simpa [write] using inside
  simp only [addNrList, walked, Option.map_some, if_pos ends, addTailNrList]
  generalize list.write _ _ = linked at written room ⊢
  have unchanged : linked.next.set id (-1) = linked.next := by
    rw [← written, nextOf, getD_eq_getElem?_getD, getElem?_eq_getElem room, Option.getD_some, set_getElem_self]
  rw [write, unchanged]

theorem addFront (rep : Represents list s) (inside : id < s.len) (fresh : id ∉ s.ids) :
    Represents (addFrontNrList list id) ⟨s.len, id :: s.ids⟩ := by
  have room : id < list.next.length := by rw [rep.next_length]; exact inside
  have next_eq : (addFrontNrList list id).nextOf = Function.update list.nextOf id list.head := nextOf_write room _
  refine ⟨⟨rep.len_eq, ?_, ?_, ?_, nodup_cons.mpr ⟨fresh, rep.nodup⟩, ?_⟩, ?_⟩
  · simpa [addFrontNrList, write] using rep.next_length
  · refine ⟨rfl, ?_⟩
    rw [next_eq, Function.update_self, segment_update fresh]
    exact rep.links
  · change (if list.tail < 0 then (id : Int) else list.tail) = _
    rw [rep.tail_eq]
    rcases eq_nil_or_concat s.ids with empty | ⟨front, last, concat⟩
    · rw [empty]
      rfl
    · rw [concat, concat_eq_append, ← cons_append, lastOf_concat, lastOf_concat, if_neg (by omega)]
  · intro other member
    rcases mem_cons.mp member with rfl | present
    · exact inside
    · exact rep.bounded other present
  · intro other outside
    rw [next_eq, Function.update_of_ne (fun same => outside (by simp [same]))]
    exact rep.absent other fun member => outside (by simp [member])

theorem removeFront {len : Nat} (rep : Represents list ⟨len, id :: ids⟩) :
    ∃ removed, removeFrontNrList list = .ok removed ∧ Represents removed ⟨len, ids⟩ := by
  obtain ⟨removed, done, holds⟩ := rep.toHolds.removeFront
  refine ⟨removed, done, holds, ?_⟩
  have head_id : list.head = id := rep.head_eq
  rw [removeFrontNrList, head_id] at done
  cases done
  exact clear_absent rep.absent

theorem remove (rep : Represents list s) (present : id ∈ s.ids) :
    ∃ removed, removeNrList list id = .ok removed ∧ Represents removed ⟨s.len, s.ids.erase id⟩ := by
  obtain ⟨removed, done, holds⟩ := rep.toHolds.remove present
  refine ⟨removed, done, holds, ?_⟩
  obtain ⟨front, back, absent, split, _⟩ := exists_erase_eq present
  obtain ⟨unlinked, found⟩ := (split ▸ rep.toHolds).remove_unlinks absent
  cases unlinked.symm.trans done
  have listed : (after .head .head front).2 = .head ∨ ∃ last ∈ s.ids, (after .head .head front).2 = .next last :=
    (after_listed front).imp_right fun ⟨last, inside, link⟩ => ⟨last, by simp [split, inside], link⟩
  intro other outside
  change ((list.write _ _).write (.next (list.read _).toNat) (-1)).nextOf other = -1
  rw [found]
  refine clear_absent (fun other outside => write_absent listed _ rep.absent other fun member => ?_) other outside
  by_cases same : other = id
  · exact outside (by simp [same])
  · exact outside (mem_cons_of_mem _ ((mem_erase_of_ne same).mpr member))

theorem resize (rep : Represents list s) {newLen : Nat} (larger : s.len ≤ newLen) :
    ∃ resized, resizeNrList list newLen = .ok resized ∧ Represents resized ⟨newLen, s.ids⟩ := by
  rcases Nat.eq_or_lt_of_le larger with rfl | grows
  · exact ⟨list, by rw [resizeNrList, if_pos rep.len_eq.symm], rep⟩
  · obtain ⟨resized, done, holds⟩ := rep.toHolds.resize grows
    refine ⟨resized, done, holds, ?_⟩
    rw [resizeNrList, rep.len_eq, if_neg (by omega), if_pos grows] at done
    cases done
    rw [nextOf_grown]
    exact rep.absent

end Represents

theorem represents_step (rep : Represents list s) {op : NrListOp} (legal : op.Legal s) :
    Option.Rel Represents (list.step op) (s.step op) := by
  cases op with
  | add id =>
    rw [NrList.step, rep.add_eq legal.1 legal.2]
    exact .some (rep.addTail legal.1 legal.2)
  | addTail id => exact .some (rep.addTail legal.1 legal.2)
  | addFront id => exact .some (rep.addFront legal.1 legal.2)
  | remove id =>
    by_cases present : id ∈ s.ids
    · obtain ⟨removed, done, after⟩ := rep.remove present
      rw [NrList.step, done, IdSequence.step, if_pos present]
      exact .some after
    · rw [NrList.step, rep.toHolds.remove_absent present, IdSequence.step, if_neg present]
      exact .none
  | removeFront =>
    obtain ⟨len, ids⟩ := s
    cases ids with
    | nil =>
      rw [NrList.step, removeFrontNrList, if_pos (rep.head_neg_iff.mpr rfl)]
      exact .none
    | cons id rest =>
      obtain ⟨removed, done, after⟩ := rep.removeFront
      rw [NrList.step, done]
      exact .some after
  | resize newLen =>
    obtain ⟨resized, done, after⟩ := rep.resize legal
    rw [NrList.step, done]
    exact .some after

/-- From creation on, and over all operations that add absent ids below the length and do not shorten
the list, the links from the head enumerate the sequence, the tail is its last id, absent ids have
no successor, and an operation ends at an assertion exactly where the sequence has nothing to remove. -/
theorem nr_list_represents_sequence (len : Nat) (ops : List NrListOp)
    (legal : Attempts IdSequence.step (fun s op => op.Legal s) ⟨len, []⟩ ops) :
    Option.Rel Represents (run NrList.step (createNrList len) ops) (run IdSequence.step ⟨len, []⟩ ops) := by
  refine run_simulates (fun _ _ _ rep legal => represents_step rep legal) ⟨holds_create len, ?_⟩ legal
  intro id _
  simp only [nextOf, createNrList, getD_eq_getElem?_getD, getElem?_replicate]
  split <;> rfl

/-- The last of three ids is removed, and one is added behind the new end of a longer list. -/
theorem nr_list_represents_sequence_four :
    Attempts IdSequence.step (fun s op => op.Legal s) ⟨3, []⟩ [.add 1, .addTail 2, .addFront 0, .remove 2,
        .resize 4, .addTail 3] ∧
      Option.Rel Represents (run NrList.step (createNrList 3) [.add 1, .addTail 2, .addFront 0, .remove 2,
        .resize 4, .addTail 3]) (some ⟨4, [0, 1, 3]⟩) :=
  ⟨attempts_of_check (by decide), nr_list_represents_sequence 3 _ (attempts_of_check (by decide))⟩

end OranSlice.Mac
