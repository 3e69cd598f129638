import OranSlice.Core.Links

/-! The lists `NR_list_t` of the MAC scheduler: ids chained through an array of successors, with the
first and the last id. -/

namespace OranSlice.Mac

open Links List Function

inductive Assertion where
  | nothingToRemove
  | idNotFound
  /-- Not an assertion: the links form a loop and the walk over them does not return. -/
  | endlessWalk
  | shortenedList
  /-- The `DevAssert` on `is_waiting` of a process. -/
  | isWaiting
  | noFreeProcess
  | roundOutOfBounds
  | listLengths
  | smallerHarqList
deriving DecidableEq, Repr

structure NrList where
  head : Int
  next : List Int
  tail : Int
  len : Nat
deriving DecidableEq, Repr

namespace NrList

def unset : NrList := ⟨0, [], 0, 0⟩

inductive Link where
  | head
  | next (id : Nat)
deriving DecidableEq, Repr

def nextOf (list : NrList) (id : Nat) : Int := list.next.getD id (-1)

def read (list : NrList) : Link → Int
  | .head => list.head
  | .next id => list.nextOf id

def write (list : NrList) (link : Link) (value : Int) : NrList :=
  match link with
  | .head => { list with head := value }
  | .next id => { list with next := list.next.set id value }

end NrList

open NrList

def createNrList (len : Nat) : NrList := ⟨-1, replicate len (-1), -1, len⟩

def resizeNrList (list : NrList) (newLen : Nat) : Except Assertion NrList :=
  if newLen = list.len then .ok list
  else if list.len < newLen then
    .ok { list with next := list.next ++ replicate (newLen - list.len) (-1), len := newLen }
  else if list.head < newLen ∧ list.tail < newLen ∧ ∀ successor ∈ list.next, successor < newLen then
    .ok { list with next := list.next.take newLen, len := newLen }
  else .error .shortenedList

/-- The loop of `remove_nr_list`: the links `prev` and `cur` where it ends. -/
def removeWalk (list : NrList) (id : Nat) : Nat → Link → Link → Option (Link × Link)
  | 0, _, _ => none
  | fuel + 1, prev, cur =>
    if list.read cur ≠ -1 ∧ list.read cur ≠ id then
      removeWalk list id fuel cur (.next (list.read cur).toNat)
    else some (prev, cur)

def unlink (list : NrList) (prev cur : Link) : NrList :=
  let found := (list.read cur).toNat
  let list := (list.write cur (list.nextOf found)).write (.next found) (-1)
  let before := list.read prev
  { list with tail := if before ≥ 0 ∧ list.nextOf before.toNat ≥ 0 then list.tail else before }

def removeNrList (list : NrList) (id : Nat) : Except Assertion NrList :=
  -- more links than ids are only met on a loop
  match removeWalk list id (list.len + 1) .head .head with
  | none => .error .endlessWalk
  | some (prev, cur) => if list.read cur = -1 then .error .idNotFound else .ok (unlink list prev cur)

def addTailNrList (list : NrList) (id : Nat) : NrList :=
  let last := if list.tail < 0 then Link.head else .next list.tail.toNat
  { (list.write last id).write (.next id) (-1) with tail := id }

def removeFrontNrList (list : NrList) : Except Assertion NrList :=
  if list.head < 0 then .error .nothingToRemove
  else
    let ohead := list.head.toNat
    let list := { list with head := list.nextOf ohead, next := list.next.set ohead (-1) }
    .ok { list with tail := if list.head < 0 then -1 else list.tail }

namespace NrList

def ids (list : NrList) : List Nat := walk list.nextOf list.len list.head

variable {list : NrList} {size id : Nat} {ids front back : List Nat}

def lastOf (ids : List Nat) : Int := ids.getLast?.elim (-1) Int.ofNat

@[simp] theorem lastOf_nil : lastOf [] = -1 := rfl

@[simp] theorem lastOf_concat : lastOf (ids ++ [id]) = id := by simp [lastOf]

theorem lastOf_append_cons : lastOf (front ++ id :: back) = lastOf (id :: back) := by
  simp [lastOf, getLast?_cons]

structure Holds (list : NrList) (size : Nat) (ids : List Nat) : Prop where
  len_eq : list.len = size
  next_length : list.next.length = size
  links : Segment list.nextOf list.head ids (-1)
  tail_eq : list.tail = lastOf ids
  nodup : ids.Nodup
  bounded : ∀ id ∈ ids, id < size

theorem nextOf_set (inside : id < list.next.length) (value : Int) :
    ({ list with next := list.next.set id value } : NrList).nextOf = update list.nextOf id value := by
  funext other
  by_cases same : other = id
  · subst same
    simp [nextOf, inside]
  · simp [nextOf, same, Ne.symm same]

theorem nextOf_write (inside : id < list.next.length) (value : Int) :
    (list.write (.next id) value).nextOf = update list.nextOf id value :=
  nextOf_set inside value

section

variable (holds : list.Holds size ids)

include holds

theorem Holds.length_le : ids.length ≤ size := by
  have sub : ids ⊆ range size := fun id member => mem_range.mpr (holds.bounded id member)
  have shorter := (subperm_of_subset holds.nodup sub).length_le
  simpa using shorter

theorem Holds.length_lt : ids.length < list.len + 1 := by
  rw [holds.len_eq]
  exact Nat.lt_succ_of_le holds.length_le

theorem Holds.ids_eq : list.ids = ids := by
  apply walk_of_segment holds.links
  rw [holds.len_eq]
  exact holds.length_le

theorem Holds.head_neg_iff : list.head < 0 ↔ ids = [] := start_neg_iff holds.links

end

theorem Holds.head_eq (holds : list.Holds size (id :: ids)) : list.head = id := holds.links.1

theorem Holds.exists_head (holds : list.Holds size ids) (filled : ¬ list.head < 0) :
    ∃ head rest, list.head = (head : Nat) ∧ ids = head :: rest := by
  obtain ⟨head, rest, rfl⟩ := exists_cons_of_ne_nil (fun empty => filled (holds.head_neg_iff.mpr empty))
  exact ⟨head, rest, holds.head_eq, rfl⟩

theorem holds_create (size : Nat) : (createNrList size).Holds size [] where
  len_eq := rfl
  next_length := length_replicate
  links := rfl
  tail_eq := rfl
  nodup := nodup_nil
  bounded := by simp

theorem nextOf_grown (list : NrList) (count len : Nat) :
    ({ list with next := list.next ++ replicate count (-1), len } : NrList).nextOf = list.nextOf := by
  funext other
  simp only [nextOf, getD_eq_getElem?_getD, getElem?_append, getElem?_replicate]
  by_cases inside : other < list.next.length
  · rw [if_pos inside]
  · rw [if_neg inside, getElem?_eq_none (Nat.le_of_not_lt inside)]
    split <;> rfl

theorem Holds.resize (holds : list.Holds size ids) {newSize : Nat} (larger : size < newSize) :
    ∃ resized, resizeNrList list newSize = .ok resized ∧ resized.Holds newSize ids := by
  have differs : newSize ≠ list.len := by rw [holds.len_eq]; omega
  have grows : list.len < newSize := by rw [holds.len_eq]; exact larger
  refine ⟨_, by rw [resizeNrList, if_neg differs, if_pos grows], ?_⟩
  refine ⟨rfl, ?_, ?_, holds.tail_eq, holds.nodup,
    fun id member => Nat.lt_trans (holds.bounded id member) larger⟩
  · rw [length_append, length_replicate, holds.next_length, holds.len_eq]
    omega
  · rw [nextOf_grown]
    exact holds.links

theorem Holds.addTail (holds : list.Holds size ids) (absent : id ∉ ids) (inside : id < size) :
    (addTailNrList list id).Holds size (ids ++ [id]) := by
  have room : id < list.next.length := by rw [holds.next_length]; exact inside
  have unique : (ids ++ [id]).Nodup := by
    rw [nodup_append]
    refine ⟨holds.nodup, nodup_singleton id, ?_⟩
    intro member present other only same
    rw [mem_singleton] at only
    exact absent (only ▸ same ▸ present)
  have bounds : ∀ member ∈ ids ++ [id], member < size := by
    exact forall_mem_append.mpr ⟨holds.bounded, forall_mem_singleton.mpr inside⟩
  rcases eq_nil_or_concat ids with rfl | ⟨before, last, rfl⟩
  · have empty : list.tail < 0 := by rw [holds.tail_eq]; decide
    rw [addTailNrList, if_pos empty]
    refine ⟨holds.len_eq, by simpa [write] using holds.next_length, ?_, lastOf_concat.symm, unique, bounds⟩
    · change Segment ({ list with next := list.next.set id (-1) } : NrList).nextOf id [id] (-1)
      rw [nextOf_set room]
      simp
  · rw [concat_eq_append] at holds absent unique bounds ⊢
    have tail_last : list.tail = last := by rw [holds.tail_eq, lastOf_concat]
    have filled : ¬ list.tail < 0 := by rw [tail_last]; omega
    have last_room : last < list.next.length := by
      rw [holds.next_length]
      exact holds.bounded last (by simp)
    rw [addTailNrList, if_neg filled, tail_last]
    have fresh : id ∉ before ∧ id ≠ last := by simpa using absent
    have last_fresh : last ∉ before := by
      have split := (nodup_append.mp holds.nodup).2.2
      exact fun member => split last member last (by simp) rfl
    refine ⟨holds.len_eq, by simpa [write] using holds.next_length, ?_, lastOf_concat.symm, unique, bounds⟩
    · change Segment ((list.write (.next last) id).write (.next id) (-1)).nextOf list.head _ (-1)
      rw [nextOf_write (by simpa [write] using room), nextOf_write last_room]
      have path := (segment_concat.mp holds.links).1
      rw [segment_concat, segment_concat, segment_update fresh.1, segment_update last_fresh]
      refine ⟨⟨path, ?_⟩, update_self ..⟩
      rw [update_of_ne (Ne.symm fresh.2), update_self]

theorem Holds.addAll (holds : list.Holds size ids) (more : List Nat) (unique : (ids ++ more).Nodup)
    (inside : ∀ id ∈ more, id < size) : (more.foldl addTailNrList list).Holds size (ids ++ more) := by
  induction more generalizing list ids with
  | nil => simpa using holds
  | cons id rest ih =>
    have absent : id ∉ ids := fun member =>
      (nodup_append.mp unique).2.2 id member id mem_cons_self rfl
    have added := holds.addTail absent (inside id mem_cons_self)
    rw [append_cons] at unique ⊢
    exact ih added unique (forall_mem_cons.mp inside).2

theorem Holds.removeFront (holds : list.Holds size (id :: ids)) :
    ∃ removed, removeFrontNrList list = .ok removed ∧ removed.Holds size ids := by
  obtain ⟨fresh, unique⟩ := nodup_cons.mp holds.nodup
  obtain ⟨head_id, path⟩ := holds.links
  have filled : ¬ list.head < 0 := by rw [head_id]; omega
  have room : id < list.next.length := by rw [holds.next_length]; exact holds.bounded id mem_cons_self
  refine ⟨_, by rw [removeFrontNrList, if_neg filled], ?_⟩
  rw [head_id, Int.toNat_natCast]
  refine ⟨holds.len_eq, by simpa using holds.next_length, ?_, ?_, unique, (forall_mem_cons.mp holds.bounded).2⟩
  · change Segment ({ list with next := list.next.set id (-1) } : NrList).nextOf (list.nextOf id) ids (-1)
    rw [nextOf_set room, segment_update fresh]
    exact path
  · by_cases last : ids = []
    · subst last
      rw [if_pos ((start_neg_iff path).mpr rfl), lastOf_nil]
    · rw [if_neg (fun empty => last ((start_neg_iff path).mp empty)), holds.tail_eq]
      obtain ⟨second, rest, rfl⟩ := exists_cons_of_ne_nil last
      exact @lastOf_append_cons second [id] rest

def after : Link → Link → List Nat → Link × Link
  | prev, cur, [] => (prev, cur)
  | _, cur, id :: rest => after cur (.next id) rest

theorem after_concat (prev cur : Link) : after prev cur (ids ++ [id]) = ((after prev cur ids).2, .next id) := by
  induction ids generalizing prev cur with
  | nil => rfl
  | cons first rest ih => exact ih cur (.next first)

theorem read_after (list : NrList) (prev cur : Link) {stop : Int}
    (path : Segment list.nextOf (list.read cur) ids stop) : list.read (after prev cur ids).2 = stop := by
  induction ids generalizing prev cur with
  | nil => exact path
  | cons first rest ih => exact ih cur (.next first) path.2

theorem removeWalk_eq (prev cur : Link) {stop : Int} {fuel : Nat}
    (path : Segment list.nextOf (list.read cur) ids stop) (absent : id ∉ ids) (ends : stop = -1 ∨ stop = id)
    (enough : ids.length < fuel) : removeWalk list id fuel prev cur = some (after prev cur ids) := by
  induction ids generalizing prev cur fuel with
  | nil =>
    obtain ⟨fuel, rfl⟩ := Nat.exists_eq_succ_of_ne_zero (Nat.ne_of_gt enough)
    rw [removeWalk, if_neg]
    · rfl
    · rw [path]
      tauto
  | cons first rest ih =>
    obtain ⟨here, later⟩ := path
    obtain ⟨differs, absent⟩ := not_or.mp (mem_cons.not.mp absent)
    cases fuel with
    | zero => simp at enough
    | succ fuel =>
      have goes : list.read cur ≠ -1 ∧ list.read cur ≠ id := by
        constructor <;> omega
      rw [removeWalk, if_pos goes, here]
      exact ih cur (.next first) later absent (by simpa using enough)

theorem Holds.remove_absent (holds : list.Holds size ids) (absent : id ∉ ids) :
    removeNrList list id = .error .idNotFound := by
  have walked := removeWalk_eq .head .head holds.links absent (.inl rfl) holds.length_lt
  simp [removeNrList, walked, read_after list .head .head holds.links]

theorem tail_of_path {next : Nat → Int} {start tail : Int} (path : Segment next start ids (-1))
    (same : 2 ≤ ids.length → tail = lastOf ids) :
    (if start ≥ 0 ∧ next start.toNat ≥ 0 then tail else start) = lastOf ids := by
  match ids, path with
  | [], path =>
    rw [segment_nil] at path
    simp [path]
  | [only], path =>
    obtain ⟨rfl, last⟩ := path
    rw [segment_nil] at last
    simp [last, lastOf]
  | first :: second :: rest, path =>
    obtain ⟨rfl, here, later⟩ := path
    rw [if_pos (by rw [Int.toNat_natCast]; omega)]
    exact same (by simp)

theorem Holds.unlink (holds : list.Holds size (front ++ id :: back)) :
    (unlink list (after .head .head front).1 (after .head .head front).2).Holds size (front ++ back) := by
  obtain ⟨front_unique, rest_unique, apart⟩ := nodup_append.mp holds.nodup
  have absent : id ∉ front := fun member => apart id member id mem_cons_self rfl
  have absent_back : id ∉ back := (nodup_cons.mp rest_unique).1
  have unique : (front ++ back).Nodup :=
    holds.nodup.sublist (List.Sublist.append_left (sublist_cons_self id back) front)
  have bounds : ∀ other ∈ front ++ back, other < size := by
    intro other member
    apply holds.bounded other
    simp only [mem_append] at member ⊢
    tauto
  have room : id < list.next.length := by
    rw [holds.next_length]
    exact holds.bounded id (by simp)
  obtain ⟨middle, before, rfl, later⟩ := segment_append.mp holds.links
  rcases eq_nil_or_concat front with rfl | ⟨start, last, rfl⟩
  · -- the id was the first one
    have head_id : list.head = id := before
    have path : Segment (update list.nextOf id (-1)) (list.nextOf id) back (-1) :=
      (segment_update absent_back (-1)).mpr later
    have next_eq : ((list.write .head (list.nextOf id)).write (.next id) (-1)).nextOf =
        update list.nextOf id (-1) := nextOf_write room (-1)
    simp only [after, Mac.unlink, read, head_id, Int.toNat_natCast, next_eq]
    refine ⟨holds.len_eq, by simpa [write] using holds.next_length, ?_, ?_, unique, bounds⟩
    · change Segment ((list.write .head (list.nextOf id)).write (.next id) (-1)).nextOf _ _ _
      rw [next_eq]
      exact path
    · apply tail_of_path path
      intro several
      change list.tail = _
      obtain ⟨first, rest, rfl⟩ := exists_cons_of_length_pos (Nat.lt_of_lt_of_le Nat.zero_lt_two several)
      rw [holds.tail_eq]
      exact @lastOf_append_cons first [id] rest
  · rw [concat_eq_append] at *
    have last_id : last ≠ id := fun same => absent (same ▸ mem_concat_self)
    have last_start : last ∉ start := fun member =>
      (nodup_append.mp front_unique).2.2 last member last (by simp) rfl
    have last_back : last ∉ back := fun member =>
      apart last mem_concat_self last (mem_cons_of_mem id member) rfl
    have id_start : id ∉ start := fun member => absent (mem_append_left _ member)
    have last_room : last < list.next.length := by
      rw [holds.next_length]
      exact holds.bounded last (by simp)
    obtain ⟨to_last, last_link⟩ := segment_concat.mp before
    set linked := (list.write (.next last) (list.nextOf id)).write (.next id) (-1) with linked_eq
    have next_eq : linked.nextOf =
        update (update list.nextOf last (list.nextOf id)) id (-1) := by
      rw [nextOf_write (by simpa [write] using room), nextOf_write last_room]
    have to_last' : Segment linked.nextOf list.head start last := by
      rw [next_eq, segment_update id_start, segment_update last_start]
      exact to_last
    have path : Segment linked.nextOf last (last :: back) (-1) := by
      refine ⟨rfl, ?_⟩
      have jump : linked.nextOf last = list.nextOf id := by
        rw [next_eq, update_of_ne last_id, update_self]
      rw [jump, next_eq, segment_update absent_back, segment_update last_back]
      exact later
    have before_last : linked.read (after .head .head start).2 = last := read_after linked .head .head to_last'
    have unlinked : Mac.unlink list (after .head .head (start ++ [last])).1
        (after .head .head (start ++ [last])).2 =
        { linked with tail := if (last : Int) ≥ 0 ∧ linked.nextOf (last : Int).toNat ≥ 0 then list.tail else last } := by
      have found : list.read (.next last) = id := last_link
      rw [after_concat]
      simp only [Mac.unlink, found, Int.toNat_natCast]
      rw [before_last]
      rfl
    rw [unlinked]
    refine ⟨holds.len_eq, by simpa [linked_eq, write] using holds.next_length, ?_, ?_, unique, bounds⟩
    · rw [append_assoc]
      exact segment_append.mpr ⟨last, to_last', path⟩
    · rw [append_assoc, singleton_append, lastOf_append_cons]
      apply tail_of_path path
      intro several
      obtain ⟨first, rest, rfl⟩ : ∃ first rest, back = first :: rest :=
        exists_cons_of_length_pos (by rw [length_cons] at several; omega)
      rw [holds.tail_eq]
      have skip := @lastOf_append_cons first (start ++ [last] ++ [id]) rest
      have skip' := @lastOf_append_cons first [last] rest
      simp only [append_assoc] at skip skip' ⊢
      exact skip.trans skip'.symm

theorem Holds.remove_unlinks (holds : list.Holds size (front ++ id :: back)) (absent : id ∉ front) :
    removeNrList list id = .ok (Mac.unlink list (after .head .head front).1 (after .head .head front).2) ∧
      list.read (after .head .head front).2 = id := by
  have enough : front.length < list.len + 1 := by
    have bound := holds.length_lt
    rw [length_append] at bound
    omega
  obtain ⟨middle, before, rfl, _⟩ := segment_append.mp holds.links
  have walked := removeWalk_eq .head .head before absent (.inr rfl) enough
  have found : list.read (after .head .head front).2 = id := read_after list .head .head before
  have named : list.read (after .head .head front).2 ≠ -1 := by
    rw [found]
    omega
  exact ⟨by rw [removeNrList, walked]; exact if_neg named, found⟩

theorem Holds.remove (holds : list.Holds size ids) (member : id ∈ ids) :
    ∃ removed, removeNrList list id = .ok removed ∧ removed.Holds size (ids.erase id) := by
  obtain ⟨front, back, absent, rfl, erased⟩ := exists_erase_eq member
  rw [erased]
  exact ⟨_, (holds.remove_unlinks absent).1, holds.unlink⟩

end NrList

end OranSlice.Mac
