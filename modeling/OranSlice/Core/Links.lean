import Mathlib.Tactic

/-! Singly linked lists threaded through a table of successors. A link holds the index of the next
element or a negative number. What a list contains depends only on the links met from its head on. -/

namespace OranSlice.Links

variable {next : Nat → Int} {start stop : Int} {ids front back : List Nat} {id other : Nat}

/-- The links met from `start` on name the elements `ids` one after the other, and the link
after the last of them holds `stop`. -/
def Segment (next : Nat → Int) : Int → List Nat → Int → Prop
  | start, [], stop => start = stop
  | start, id :: rest, stop => start = id ∧ Segment next (next id) rest stop

@[simp] theorem segment_nil : Segment next start [] stop ↔ start = stop := Iff.rfl

@[simp] theorem segment_cons :
    Segment next start (id :: ids) stop ↔ start = id ∧ Segment next (next id) ids stop := Iff.rfl

theorem segment_append :
    Segment next start (front ++ back) stop ↔
      ∃ middle, Segment next start front middle ∧ Segment next middle back stop := by
  induction front generalizing start with
  | nil => simp
  | cons id rest ih => simp [ih, and_assoc]

theorem segment_concat :
    Segment next start (ids ++ [id]) stop ↔ Segment next start ids id ∧ next id = stop := by
  rw [segment_append]
  constructor
  · rintro ⟨middle, before, rfl, last⟩
    exact ⟨before, last⟩
  · rintro ⟨before, last⟩
    exact ⟨id, before, rfl, last⟩

theorem segment_update (absent : other ∉ ids) (value : Int) :
    Segment (Function.update next other value) start ids stop ↔ Segment next start ids stop := by
  induction ids generalizing start with
  | nil => rfl
  | cons id rest ih =>
    obtain ⟨differs, later⟩ := not_or.mp (List.mem_cons.not.mp absent)
    have kept : Function.update next other value id = next id :=
      Function.update_of_ne (Ne.symm differs) value next
    rw [segment_cons, segment_cons, kept, ih later]

def walk (next : Nat → Int) : Nat → Int → List Nat
  | 0, _ => []
  | fuel + 1, start => if start < 0 then [] else start.toNat :: walk next fuel (next start.toNat)

theorem walk_of_segment (segment : Segment next start ids (-1)) {fuel : Nat} (enough : ids.length ≤ fuel) :
    walk next fuel start = ids := by
  induction ids generalizing start fuel with
  | nil =>
    rw [segment_nil] at segment
    cases fuel with
    | zero => rfl
    | succ fuel => simp [walk, segment]
  | cons id rest ih =>
    obtain ⟨rfl, later⟩ := segment
    cases fuel with
    | zero => simp at enough
    | succ fuel =>
      have tail := ih later (by simpa using enough)
      simp [walk, tail]

theorem start_neg_iff (segment : Segment next start ids (-1)) : start < 0 ↔ ids = [] := by
  cases ids with
  | nil => simp [segment_nil.mp segment]
  | cons id rest =>
    obtain ⟨rfl, _⟩ := segment
    simp

end OranSlice.Links
