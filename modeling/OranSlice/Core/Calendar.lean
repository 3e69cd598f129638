import Mathlib.Tactic

/-! A calendar kept in a ring: the entries of a window of times, each at the place of its time. While no
two valid times of the window share a place, access at places is access to the calendar. -/

namespace OranSlice.Calendar

open Function

variable {β : Type*}

def Apart (valid : Nat → Prop) (place : Nat → Nat) (start stop : Nat) : Prop :=
  ∀ a b, valid a → valid b → start ≤ a → a < stop → start ≤ b → b < stop → place a = place b → a = b

structure Holds (blank : β) (valid : Nat → Prop) (place : Nat → Nat) (start stop : Nat)
    (ring calendar : Nat → β) : Prop where
  at_place : ∀ time, valid time → start ≤ time → time < stop → ring (place time) = calendar time
  known : ∀ i, ring i ≠ blank → ∃ time, calendar time ≠ blank ∧ place time = i
  inside : ∀ time, calendar time ≠ blank → valid time ∧ start ≤ time ∧ time < stop

variable {blank : β} {valid : Nat → Prop} {place : Nat → Nat} {start stop : Nat}
  {ring calendar : Nat → β}

theorem Apart.mono {later earlier : Nat} (apart : Apart valid place start stop) (up : start ≤ later)
    (down : earlier ≤ stop) : Apart valid place later earlier :=
  fun a b validA validB aboveA belowA aboveB belowB =>
    apart a b validA validB (Nat.le_trans up aboveA) (Nat.lt_of_lt_of_le belowA down)
      (Nat.le_trans up aboveB) (Nat.lt_of_lt_of_le belowB down)

theorem holds_blank (blank : β) (valid : Nat → Prop) (place : Nat → Nat) (start stop : Nat) :
    Holds blank valid place start stop (fun _ => blank) (fun _ => blank) :=
  ⟨fun _ _ _ _ => rfl, fun _ written => absurd rfl written, fun _ written => absurd rfl written⟩

section

variable (holds : Holds blank valid place start stop ring calendar)

include holds

variable {time last : Nat} {other : Nat → Nat}

theorem Holds.write (apart : Apart valid place start stop) (chosen : valid time) (above : start ≤ time)
    (below : time < stop) (value : β) :
    Holds blank valid place start stop (update ring (place time) value) (update calendar time value) := by
  refine ⟨?_, ?_, ?_⟩
  · intro other chosen' above' below'
    by_cases same : other = time
    · rw [same, update_self, update_self]
    have away : place other ≠ place time :=
      fun shared => same (apart other time chosen' chosen above' below' above below shared)
    rw [update_of_ne away, update_of_ne same]
    exact holds.at_place other chosen' above' below'
  · intro i written
    by_cases here : i = place time
    · rw [here, update_self] at written
      exact ⟨time, by rwa [update_self], here.symm⟩
    rw [update_of_ne here] at written
    obtain ⟨other, filled, where_⟩ := holds.known i written
    have different : other ≠ time := by
      rintro rfl
      exact here where_.symm
    exact ⟨other, by rwa [update_of_ne different], where_⟩
  · intro other written
    by_cases same : other = time
    · rw [same]
      exact ⟨chosen, above, below⟩
    · rw [update_of_ne same] at written
      exact holds.inside other written

theorem Holds.blank_at (apart : Apart valid place start last) (order : stop ≤ last) (chosen : valid time)
    (above : start ≤ time) (below : time < last) (free : calendar time = blank) :
    ring (place time) = blank := by
  by_contra written
  obtain ⟨other, filled, shared⟩ := holds.known _ written
  obtain ⟨chosen', above', below'⟩ := holds.inside other filled
  have same := apart other time chosen' chosen above' (Nat.lt_of_lt_of_le below' order) above below shared
  rw [same] at filled
  exact filled free

theorem Holds.extend (apart : Apart valid place start last) (order : stop ≤ last) :
    Holds blank valid place start last ring calendar := by
  refine ⟨?_, holds.known, ?_⟩
  · intro time chosen above below
    rcases Nat.lt_or_ge time stop with early | late
    · exact holds.at_place time chosen above early
    have free : calendar time = blank := by
      by_contra filled
      have bound := (holds.inside time filled).2.2
      omega
    rw [free]
    exact holds.blank_at apart order chosen above below free
  · intro time filled
    obtain ⟨chosen, above, below⟩ := holds.inside time filled
    exact ⟨chosen, above, Nat.lt_of_lt_of_le below order⟩

theorem Holds.cut (order : last ≤ stop) (all : ∀ time, calendar time ≠ blank → time < last) :
    Holds blank valid place start last ring calendar := by
  refine ⟨?_, holds.known, ?_⟩
  · intro time chosen above below
    exact holds.at_place time chosen above (Nat.lt_of_lt_of_le below order)
  · intro time filled
    obtain ⟨chosen, above, _⟩ := holds.inside time filled
    exact ⟨chosen, above, all time filled⟩

theorem Holds.advance (free : calendar start = blank) : Holds blank valid place (start + 1) stop ring calendar := by
  refine ⟨?_, holds.known, ?_⟩
  · intro time chosen above below
    exact holds.at_place time chosen (Nat.le_of_succ_le above) below
  · intro time filled
    obtain ⟨chosen, above, below⟩ := holds.inside time filled
    have later : start ≠ time := by
      rintro rfl
      exact filled free
    exact ⟨chosen, by omega, below⟩

theorem Holds.move
    (apart : Apart valid other start stop) (same : ∀ time, calendar time ≠ blank → other time = place time) :
    Holds blank valid other start stop ring calendar := by
  refine ⟨?_, ?_, holds.inside⟩
  · intro time chosen above below
    by_cases free : calendar time = blank
    · rw [free]
      by_contra written
      obtain ⟨entry, filled, shared⟩ := holds.known _ written
      obtain ⟨chosen', above', below'⟩ := holds.inside entry filled
      rw [← same entry filled] at shared
      rw [apart entry time chosen' chosen above' below' above below shared] at filled
      exact filled free
    · rw [same time free]
      exact holds.at_place time chosen above below
  · intro i written
    obtain ⟨time, filled, here⟩ := holds.known i written
    exact ⟨time, filled, (same time filled).trans here⟩

end

end OranSlice.Calendar
