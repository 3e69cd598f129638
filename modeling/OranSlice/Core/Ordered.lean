import Mathlib.Tactic

/-! Insertion into lists that are ordered by a relation under which the items of the list
can be compared, though not all items can. -/

namespace OranSlice.Ordered

open List

variable {α : Type*} {before : α → α → Prop}

def Comparable (before : α → α → Prop) (a b : α) : Prop := before a b ∨ before b a

variable {a b last : α} {test : α → α → Prop} {list front back : List α} {p : α → Bool}

theorem Comparable.symm (compared : Comparable before a b) : Comparable before b a := Or.symm compared

structure Decides (before test : α → α → Prop) (a : α) (list : List α) : Prop where
  sound : ∀ b ∈ list, test a b → before a b
  refuses : ∀ b ∈ list, ¬ test a b → before b a

theorem Decides.tail (decides : Decides before test a (b :: list)) : Decides before test a list where
  sound c member := decides.sound c (mem_cons_of_mem b member)
  refuses c member := decides.refuses c (mem_cons_of_mem b member)

theorem pairwise_orderedInsert [DecidableRel test] (trans : ∀ {a b c}, before a b → before b c → before a c)
    (decides : Decides before test a list) (sorted : list.Pairwise before) :
    (list.orderedInsert test a).Pairwise before := by
  induction list with
  | nil => simp
  | cons b rest ih =>
    obtain ⟨first, later⟩ := pairwise_cons.mp sorted
    rw [orderedInsert]
    split_ifs with passed
    · have start := decides.sound b mem_cons_self passed
      apply List.Pairwise.cons _ sorted
      intro c member
      rcases mem_cons.mp member with here | there
      · rw [here]
        exact start
      · exact trans start (first c there)
    · have start := decides.refuses b mem_cons_self passed
      apply List.Pairwise.cons _ (ih decides.tail later)
      intro c member
      rcases (mem_orderedInsert _).mp member with here | there
      · rw [here]
        exact start
      · exact first c there

theorem not_of_mem_dropWhile (sorted : list.Pairwise before)
    (down : ∀ {a b}, before a b → p b = true → p a = true) (member : b ∈ list.dropWhile p) : p b = false := by
  induction list with
  | nil => cases member
  | cons a rest ih =>
    obtain ⟨first, later⟩ := pairwise_cons.mp sorted
    rw [dropWhile_cons] at member
    split at member
    · exact ih later member
    rename_i stops
    apply eq_false_of_ne_true
    intro holds
    rcases mem_cons.mp member with here | there
    · exact stops (here ▸ holds)
    · exact stops (down (first b there) holds)

theorem orderedInsert_append_left [DecidableRel test] (refused : ∀ b ∈ front, ¬ test a b) :
    (front ++ back).orderedInsert test a = front ++ back.orderedInsert test a := by
  induction front with
  | nil => rfl
  | cons b rest ih =>
    rw [cons_append, orderedInsert_of_not_le _ _ (refused b mem_cons_self),
      ih (forall_mem_cons.mp refused).2, cons_append]

theorem orderedInsert_append_right [DecidableRel test] (passed : ∀ b ∈ back, test a b) :
    (front ++ back).orderedInsert test a = front.orderedInsert test a ++ back := by
  induction front with
  | nil =>
    cases back with
    | nil => rfl
    | cons b rest =>
      rw [nil_append, orderedInsert_cons_of_le _ _ (passed b mem_cons_self)]
      rfl
  | cons b rest ih =>
    rw [cons_append, orderedInsert_cons, orderedInsert_cons, ih]
    split <;> rfl

theorem before_getLast (sorted : list.Pairwise before)
    (final : list.getLast? = some last) (member : a ∈ list) : a = last ∨ before a last := by
  obtain ⟨front, rfl⟩ := getLast?_eq_some_iff.mp final
  rcases mem_append.mp member with inFront | here
  · exact .inr ((pairwise_append.mp sorted).2.2 a inFront last mem_cons_self)
  · exact .inl (mem_singleton.mp here)

end OranSlice.Ordered
