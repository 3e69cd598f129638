import Mathlib.Data.List.GetD
import Mathlib.Tactic

/-! Loops over a buffer, with every access explicit. A turn faults, stops or goes on. When turns from
the states that a loop can handle make progress, and no other turn goes on, the loop returns exactly if
it reaches only such states. -/

namespace OranSlice.Walk

inductive Fault where
  | outOfBounds
  /-- Not a fault of the program: the turns given to a loop do not suffice. -/
  | outOfFuel
deriving DecidableEq, Repr

section Reading

variable {β : Type*} {buffer : List β} {i : Nat}

def readAt (buffer : List β) (i : Nat) : Except Fault β :=
  match buffer[i]? with
  | some value => .ok value
  | none => .error .outOfBounds

theorem readAt_inside (inside : i < buffer.length) (default : β) : readAt buffer i = .ok (buffer.getD i default) := by
  rw [readAt, List.getElem?_eq_getElem inside, List.getD_eq_getElem _ _ inside]

theorem readAt_outside (outside : buffer.length ≤ i) : readAt buffer i = .error .outOfBounds := by
  rw [readAt, List.getElem?_eq_none outside]

theorem readAt_of_some {value : β} (found : buffer[i]? = some value) : readAt buffer i = .ok value := by
  rw [readAt, found]

end Reading

section Ending

variable {α β : Type} {x : Except Fault α}

theorem ok_bind {f : α → Except Fault β} (first : ∃ a, x = .ok a) (later : ∀ a, ∃ b, f a = .ok b) :
    ∃ b, x >>= f = .ok b := by
  obtain ⟨a, rfl⟩ := first
  exact later a

theorem ok_bind_fuel {f : Nat → α → Except Fault β} (first : ∃ a, x = .ok a)
    (later : ∀ a, ∃ fuel b, f fuel a = .ok b) : ∃ fuel b, x >>= f fuel = .ok b := by
  obtain ⟨a, rfl⟩ := first
  exact later a

theorem ok_bind_iff (use : α → β) : (∃ b, x.bind (fun a => .ok (use a)) = .ok b) ↔ ∃ a, x = .ok a := by
  cases x with
  | error fault => simp [Except.bind]
  | ok a => simp [Except.bind]

end Ending

inductive Turn (σ ρ : Type*) where
  | again (state : σ)
  | stop (result : ρ)
deriving DecidableEq, Repr

variable {σ ρ : Type*} (turn : σ → Except Fault (Turn σ ρ))

def walk : Nat → σ → Except Fault ρ
  | 0, _ => .error .outOfFuel
  | fuel + 1, s =>
    match turn s with
    | .error fault => .error fault
    | .ok (.stop result) => .ok result
    | .ok (.again next) => walk fuel next

/-- The loop returns, given enough turns. -/
def Returns (s : σ) (result : ρ) : Prop := ∃ fuel, walk turn fuel s = .ok result

inductive Reaches (s : σ) : σ → Prop where
  | refl : Reaches s s
  | step {t next : σ} (earlier : Reaches s t) (taken : turn t = .ok (.again next)) : Reaches s next

variable {turn} {s t next : σ} {result : ρ}

theorem returns_of_stop (stopped : turn s = .ok (.stop result)) : Returns turn s result := by
  refine ⟨1, ?_⟩
  rw [walk, stopped]

theorem returns_of_again (taken : turn s = .ok (.again next)) (later : Returns turn next result) :
    Returns turn s result := by
  obtain ⟨fuel, walked⟩ := later
  refine ⟨fuel + 1, ?_⟩
  rw [walk, taken]
  exact walked

theorem returns_next (taken : turn s = .ok (.again next)) (returns : Returns turn s result) :
    Returns turn next result := by
  obtain ⟨fuel, walked⟩ := returns
  cases fuel with
  | zero => cases walked
  | succ fuel =>
    rw [walk, taken] at walked
    exact ⟨fuel, walked⟩

theorem returns_reached (reached : Reaches turn s t) (returns : Returns turn s result) : Returns turn t result := by
  induction reached with
  | refl => exact returns
  | step earlier taken ih => exact returns_next taken ih

theorem not_returns_of_error {fault : Fault} (fails : turn s = .error fault) : ¬ Returns turn s result := by
  rintro ⟨fuel, walked⟩
  cases fuel with
  | zero => cases walked
  | succ fuel =>
    rw [walk, fails] at walked
    cases walked

theorem Returns.first (returns : Returns turn s result) :
    turn s = .ok (.stop result) ∨ ∃ next, turn s = .ok (.again next) ∧ Returns turn next result := by
  obtain ⟨fuel, walked⟩ := returns
  cases fuel with
  | zero => cases walked
  | succ fuel =>
    unfold walk at walked
    split at walked
    · cases walked
    · rename_i other stopped
      cases walked
      exact .inl stopped
    · rename_i next taken
      exact .inr ⟨next, taken, fuel, walked⟩

theorem Reaches.head (taken : turn s = .ok (.again next)) (later : Reaches turn next t) : Reaches turn s t := by
  induction later with
  | refl => exact .step .refl taken
  | step _ taken' ih => exact .step ih taken'

theorem Returns.reaches_stop (returns : Returns turn s result) :
    ∃ t, Reaches turn s t ∧ turn t = .ok (.stop result) := by
  obtain ⟨fuel, walked⟩ := returns
  induction fuel generalizing s with
  | zero => cases walked
  | succ fuel ih =>
    unfold walk at walked
    split at walked
    · cases walked
    · rename_i other stopped
      cases walked
      exact ⟨s, .refl, stopped⟩
    · rename_i next taken
      obtain ⟨t, reached, stopped⟩ := ih walked
      exact ⟨t, reached.head taken, stopped⟩

theorem returns_iff_again (taken : turn s = .ok (.again next)) : Returns turn s result ↔ Returns turn next result :=
  ⟨returns_next taken, returns_of_again taken⟩

theorem not_returns_of_stuck {stuck : σ → Prop}
    (stays : ∀ t, stuck t → ∃ next, turn t = .ok (.again next) ∧ stuck next) (start : stuck s) :
    ¬ Returns turn s result := by
  rintro ⟨fuel, walked⟩
  induction fuel generalizing s with
  | zero => cases walked
  | succ fuel ih =>
    obtain ⟨next, taken, still⟩ := stays s start
    rw [walk, taken] at walked
    exact ih still walked

/-- The total correctness rule. -/
theorem returns_of_reaches {good : σ → Prop} {answers : ρ → Prop} (weight : σ → Nat)
    (progress : ∀ t, good t → (∃ result, turn t = .ok (.stop result) ∧ answers result) ∨
      ∃ next, turn t = .ok (.again next) ∧ weight next < weight t)
    (all : ∀ t, Reaches turn s t → good t) : ∃ result, Returns turn s result ∧ answers result := by
  generalize bound : weight s = n
  induction n using Nat.strongRecOn generalizing s with
  | ind n ih =>
    rcases progress s (all s .refl) with ⟨result, stopped, answered⟩ | ⟨next, taken, less⟩
    · exact ⟨result, returns_of_stop stopped, answered⟩
    obtain ⟨result, returns, answered⟩ :=
      ih (weight next) (bound ▸ less) (fun t reached => all t (reached.head taken)) rfl
    exact ⟨result, returns_of_again taken returns, answered⟩

end OranSlice.Walk
