import Mathlib.Tactic

/-! Answers that are matched to a queue of questions, each tagged with the time its answer is due and
its rank among those of that time. Answers go to the head of the queue: questions judged to be past are
dropped before, and one judged to lie in the future ends the matching. -/

namespace OranSlice.Matching

open List

variable {α : Type*}

inductive Verdict where
  | past
  | due
  | future
deriving DecidableEq, Repr

/-- The questions that get one of a number of answers, in order, and the queue that is left. -/
def answer (judge : α → Verdict) : Nat → List α → List α × List α
  | 0, queue => ([], queue)
  | _ + 1, [] => ([], [])
  | count + 1, item :: rest =>
    match judge item with
    | .past => answer judge (count + 1) rest
    | .due => (item :: (answer judge count rest).1, (answer judge count rest).2)
    | .future => ([], item :: rest)

def ranks (tag : α → Nat × Nat) (queue : List α) (time : Nat) : List Nat :=
  (queue.filter fun item => (tag item).1 = time).map fun item => (tag item).2

def Ranked (tag : α → Nat × Nat) (start : Nat) (count : Nat → Nat) (queue : List α) : Prop :=
  ∀ time, start ≤ time → ranks tag queue time = range (count time)

structure Judged (judge : α → Verdict) (tag : α → Nat × Nat) (now : Nat) (item : α) : Prop where
  due : judge item = .due ↔ (tag item).1 = now
  past : judge item = .past → (tag item).1 < now

variable {judge : α → Verdict} {tag : α → Nat × Nat} {queue rest : List α} {item : α} {now time : Nat}

theorem answer_congr {other : α → Verdict} (same : ∀ item ∈ queue, judge item = other item) (count : Nat) :
    answer judge count queue = answer other count queue := by
  induction queue generalizing count with
  | nil => cases count <;> rfl
  | cons item rest ih =>
    obtain ⟨head, tail⟩ := forall_mem_cons.mp same
    cases count with
    | zero => rfl
    | succ count => simp only [answer, head, ih tail]

theorem ranks_cons_of_eq (here : (tag item).1 = time) :
    ranks tag (item :: rest) time = (tag item).2 :: ranks tag rest time := by
  simp [ranks, here]

theorem ranks_cons_of_ne (elsewhere : (tag item).1 ≠ time) :
    ranks tag (item :: rest) time = ranks tag rest time := by
  simp [ranks, elsewhere]

theorem answer_ranks (judged : ∀ item ∈ queue, Judged judge tag now item) {first size : Nat}
    (ordered : ranks tag queue now = range' first size) (count : Nat) :
    (∀ pair ∈ (answer judge count queue).1.zipIdx first, tag pair.1 = (now, pair.2)) ∧
      ∀ time, now < time → ranks tag (answer judge count queue).2 time = ranks tag queue time := by
  induction queue generalizing first size count with
  | nil =>
    have nothing : answer judge count ([] : List α) = ([], []) := by cases count <;> rfl
    rw [nothing]
    exact ⟨by simp, fun _ _ => rfl⟩
  | cons item rest ih =>
    obtain ⟨head, tail⟩ := forall_mem_cons.mp judged
    cases count with
    | zero => exact ⟨by simp [answer], fun _ _ => rfl⟩
    | succ count =>
      cases verdict : judge item with
      | past =>
        have early := head.past verdict
        rw [ranks_cons_of_ne (ne_of_lt early)] at ordered
        obtain ⟨taken, kept⟩ := ih tail ordered (count + 1)
        simp only [answer, verdict]
        refine ⟨taken, fun time later => ?_⟩
        rw [kept time later, ranks_cons_of_ne (by omega)]
      | due =>
        have here := head.due.mp verdict
        rw [ranks_cons_of_eq here] at ordered
        cases size with
        | zero => cases ordered
        | succ size =>
          obtain ⟨rank, following⟩ := cons.inj ordered
          obtain ⟨taken, kept⟩ := ih tail following count
          simp only [answer, verdict]
          refine ⟨?_, fun time later => ?_⟩
          · exact forall_mem_cons.mpr ⟨Prod.ext here rank, taken⟩
          · rw [kept time later, ranks_cons_of_ne (by omega)]
      | future => simp [answer, verdict]

namespace Ranked

variable {start : Nat} {count : Nat → Nat}

theorem congr (ranked : Ranked tag start count queue) {other : α → Nat × Nat} {count' : Nat → Nat}
    (same : ∀ item ∈ queue, other item = tag item) (counts : ∀ time, start ≤ time → count' time = count time) :
    Ranked other start count' queue := by
  intro time later
  have chosen : (queue.filter fun item => (other item).1 = time) = queue.filter fun item => (tag item).1 = time :=
    filter_congr fun item member => by rw [same item member]
  rw [counts time later, ← ranked time later, ranks, chosen]
  exact map_congr_left fun item member => by rw [same item (mem_of_mem_filter member)]

theorem push (ranked : Ranked tag start count queue) (next : tag item = (time, count time)) :
    Ranked tag start (Function.update count time (count time + 1)) (queue ++ [item]) := by
  intro other later
  have before := ranked other later
  unfold ranks at before ⊢
  rw [filter_append, map_append, before]
  by_cases same : other = time
  · subst same
    simp [next, range_succ]
  · simp [next, same, Ne.symm same]

theorem answered (ranked : Ranked tag start count queue) (later : start ≤ now)
    (judged : ∀ item ∈ queue, Judged judge tag now item) (answers : Nat) :
    (∀ pair ∈ (answer judge answers queue).1.zipIdx, tag pair.1 = (now, pair.2)) ∧
      Ranked tag (now + 1) count (answer judge answers queue).2 := by
  have ordered := ranked now later
  rw [range_eq_range'] at ordered
  obtain ⟨taken, kept⟩ := answer_ranks judged ordered answers
  refine ⟨taken, fun time after => ?_⟩
  rw [kept time after]
  exact ranked time (le_trans later (Nat.le_of_succ_le after))

end Ranked

end OranSlice.Matching
