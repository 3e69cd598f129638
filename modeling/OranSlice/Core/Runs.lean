import Mathlib.Tactic

/-! Finite runs of a partial step function, where `none` is an abort. Statements about whole runs are
reduced here to statements about one step. -/

namespace OranSlice.Runs

open List

variable {σ α : Type*} (step : σ → α → Option σ)

/-- The state after a whole run, or `none` when one of its steps aborts. -/
def run : σ → List α → Option σ
  | s, [] => some s
  | s, a :: rest => (step s a).bind (fun next => run next rest)

@[simp] theorem run_nil (s : σ) : run step s [] = some s := rfl

@[simp] theorem run_cons (s : σ) (a : α) (rest : List α) :
    run step s (a :: rest) = (step s a).bind (fun next => run step next rest) := rfl

theorem run_append (s : σ) (front back : List α) :
    run step s (front ++ back) = (run step s front).bind (fun middle => run step middle back) := by
  induction front generalizing s with
  | nil => simp
  | cons a rest ih =>
    simp only [cons_append, run_cons]
    cases step s a with
    | none => rfl
    | some next => exact ih next

/-- A property of every state that the run visits, its first state included. -/
def Along (good : σ → Prop) (s : σ) (actions : List α) : Prop :=
  ∀ front, front <+: actions → ∀ middle, run step s front = some middle → good middle

/-- A property of every step that the run completes, in the state before the step. -/
def Steps (allowed : σ → α → Prop) (s : σ) (actions : List α) : Prop :=
  ∀ front a, front ++ [a] <+: actions → ∀ middle next, run step s front = some middle →
    step middle a = some next → allowed middle a

/-- A property of every step that the run begins, in the state before the step. -/
def Attempts (allowed : σ → α → Prop) (s : σ) (actions : List α) : Prop :=
  ∀ front a, front ++ [a] <+: actions → ∀ middle, run step s front = some middle → allowed middle a

variable {step}

variable {good invariant : σ → Prop} {s final : σ} {a : α} {rest actions : List α}
  {allowed usual sound : σ → α → Prop}

theorem along_nil : Along step good s [] ↔ good s := by
  constructor
  · intro all
    exact all [] (prefix_refl []) s rfl
  · intro start front inside middle reached
    have empty : front = [] := prefix_nil.mp inside
    subst front
    cases reached
    exact start

theorem along_cons :
    Along step good s (a :: rest) ↔
      good s ∧ ∀ next, step s a = some next → Along step good next rest := by
  constructor
  · intro all
    refine ⟨all [] nil_prefix s rfl, ?_⟩
    intro next taken front inside middle reached
    refine all (a :: front) (cons_prefix_cons.mpr ⟨rfl, inside⟩) middle ?_
    simp [taken, reached]
  · rintro ⟨start, later⟩ front inside middle reached
    cases front with
    | nil =>
      cases reached
      exact start
    | cons b front =>
      obtain ⟨rfl, shorter⟩ := cons_prefix_cons.mp inside
      simp only [run_cons, Option.bind_eq_some_iff] at reached
      obtain ⟨next, taken, reached⟩ := reached
      exact later next taken front shorter middle reached

theorem attempts_nil : Attempts step allowed s [] := by
  intro front a inside
  simp at inside

theorem attempts_cons :
    Attempts step allowed s (a :: rest) ↔
      allowed s a ∧ ∀ next, step s a = some next → Attempts step allowed next rest := by
  constructor
  · intro all
    refine ⟨all [] a (by simp) s rfl, ?_⟩
    intro next taken front b inside middle reached
    refine all (a :: front) b (by simpa using inside) middle ?_
    simp [taken, reached]
  · rintro ⟨first, later⟩ front b inside middle reached
    cases front with
    | nil =>
      obtain rfl : b = a := by simpa using inside
      cases reached
      exact first
    | cons c front =>
      obtain ⟨rfl, shorter⟩ := cons_prefix_cons.mp inside
      simp only [run_cons, Option.bind_eq_some_iff] at reached
      obtain ⟨next, taken, reached⟩ := reached
      exact later next taken front b shorter middle reached

theorem steps_iff_attempts :
    Steps step allowed s actions ↔
      Attempts step (fun s a => ∀ next, step s a = some next → allowed s a) s actions :=
  ⟨fun all front a inside middle reached next taken => all front a inside middle next reached taken,
    fun all front a inside middle next reached taken => all front a inside middle reached next taken⟩

theorem steps_nil : Steps step allowed s [] := steps_iff_attempts.mpr attempts_nil

theorem steps_cons :
    Steps step allowed s (a :: rest) ↔
      ∀ next, step s a = some next → allowed s a ∧ Steps step allowed next rest := by
  simp [steps_iff_attempts, attempts_cons, forall_and]

theorem steps_append {front back : List α} :
    Steps step allowed s (front ++ back) ↔
      Steps step allowed s front ∧ ∀ middle, run step s front = some middle → Steps step allowed middle back := by
  induction front generalizing s with
  | nil => simp [steps_nil]
  | cons a rest ih =>
    simp only [cons_append, steps_cons, ih, run_cons, Option.bind_eq_some_iff]
    constructor
    · intro all
      refine ⟨fun next taken => ⟨(all next taken).1, (all next taken).2.1⟩, ?_⟩
      rintro middle ⟨next, taken, reached⟩
      exact (all next taken).2.2 middle reached
    · rintro ⟨first, later⟩ next taken
      exact ⟨(first next taken).1, (first next taken).2, fun middle reached => later middle ⟨next, taken, reached⟩⟩

def checkSteps (step : σ → α → Option σ) (allowed : σ → α → Prop) [∀ s a, Decidable (allowed s a)] :
    σ → List α → Bool
  | _, [] => true
  | s, a :: rest =>
    match step s a with
    | none => true
    | some next => decide (allowed s a) && checkSteps step allowed next rest

theorem steps_of_check [∀ s a, Decidable (allowed s a)]
    (checked : checkSteps step allowed s actions = true) : Steps step allowed s actions := by
  induction actions generalizing s with
  | nil => exact steps_nil
  | cons a rest ih =>
    rw [steps_cons]
    intro next taken
    unfold checkSteps at checked
    rw [taken] at checked
    simp only [Bool.and_eq_true, decide_eq_true_eq] at checked
    exact ⟨checked.1, ih checked.2⟩

def checkAttempts (step : σ → α → Option σ) (allowed : σ → α → Prop) [∀ s a, Decidable (allowed s a)] :
    σ → List α → Bool
  | _, [] => true
  | s, a :: rest =>
    decide (allowed s a) && match step s a with
      | none => true
      | some next => checkAttempts step allowed next rest

theorem attempts_of_check [∀ s a, Decidable (allowed s a)] (checked : checkAttempts step allowed s actions = true) :
    Attempts step allowed s actions := by
  induction actions generalizing s with
  | nil => exact attempts_nil
  | cons a rest ih =>
    unfold checkAttempts at checked
    rw [Bool.and_eq_true, decide_eq_true_eq] at checked
    refine attempts_cons.mpr ⟨checked.1, fun next taken => ih ?_⟩
    have later := checked.2
    rwa [taken] at later

theorem reached_of_check {τ : Type*} {created : Option τ} {enter : τ → σ} (shows : σ → Prop) [DecidablePred shows]
    (checked : (created.bind (fun start => (run step (enter start) actions).map (fun s => decide (shows s)))) =
      some true) (enough : ∀ s, shows s → good s) :
    ∃ start s, created = some start ∧ run step (enter start) actions = some s ∧ good s := by
  obtain ⟨start, started, path⟩ := Option.bind_eq_some_iff.mp checked
  obtain ⟨s, ran, shown⟩ := Option.map_eq_some_iff.mp path
  exact ⟨start, s, started, ran, enough s (of_decide_eq_true shown)⟩

/-- Along a run of usual steps, which keep an invariant: when a good state stays good exactly under the
allowed steps, the run stays good exactly when each step that it completes is allowed. -/
theorem along_iff_steps_within
    (keeps : ∀ s a next, invariant s → usual s a → step s a = some next → invariant next)
    (exact_step : ∀ s a next, invariant s → good s → usual s a → step s a = some next →
      (good next ↔ allowed s a)) (s : σ) (actions : List α) (start : invariant s) (good_start : good s)
    (legal : Steps step usual s actions) : Along step good s actions ↔ Steps step allowed s actions := by
  induction actions generalizing s with
  | nil => exact ⟨fun _ => steps_nil, fun _ => along_nil.mpr good_start⟩
  | cons a rest ih =>
    rw [along_cons, steps_cons]
    constructor
    · intro both next taken
      obtain ⟨first, later⟩ := steps_cons.mp legal next taken
      have after := both.2 next taken
      have nextGood : good next := after [] nil_prefix next rfl
      exact ⟨(exact_step s a next start good_start first taken).mp nextGood,
        (ih next (keeps s a next start first taken) nextGood later).mp after⟩
    · intro both
      refine ⟨good_start, fun next taken => ?_⟩
      obtain ⟨first, later⟩ := steps_cons.mp legal next taken
      obtain ⟨permitted, after⟩ := both next taken
      exact (ih next (keeps s a next start first taken)
        ((exact_step s a next start good_start first taken).mpr permitted) later).mpr after

theorem along_iff_steps (exact_step : ∀ s a next, good s → step s a = some next → (good next ↔ allowed s a))
    (s : σ) (actions : List α) (start : good s) : Along step good s actions ↔ Steps step allowed s actions := by
  have usual : Steps step (fun _ _ => True) s actions := fun _ _ _ _ _ _ _ => trivial
  have keeps : ∀ s a next, True → True → step s a = some next → True := fun _ _ _ _ _ _ => trivial
  exact along_iff_steps_within keeps (fun s a next _ good_here _ => exact_step s a next good_here)
    s actions trivial start usual

section

variable (makes_good : ∀ s, invariant s → good s)
  (keeps : ∀ s a, invariant s → allowed s a → sound s a ∧ ∀ next, step s a = some next → invariant next)

include makes_good keeps

theorem safe_of_attempts (s : σ) (actions : List α) (start : invariant s) (legal : Attempts step allowed s actions) :
    Along step good s actions ∧ Attempts step sound s actions := by
  induction actions generalizing s with
  | nil => exact ⟨along_nil.mpr (makes_good s start), attempts_nil⟩
  | cons a rest ih =>
    rw [along_cons, attempts_cons]
    obtain ⟨first, later⟩ := attempts_cons.mp legal
    obtain ⟨sound_here, invariant_next⟩ := keeps s a start first
    have both := fun next taken => ih next (invariant_next next taken) (later next taken)
    exact ⟨⟨makes_good s start, fun next taken => (both next taken).1⟩, sound_here,
      fun next taken => (both next taken).2⟩

/-- When, in addition, any other step is unsound or leads to a bad state, a run stays good and sound
exactly when each step that it begins is allowed. -/
theorem safe_iff_attempts
    (breaks : ∀ s a, invariant s → ¬ allowed s a → ¬ sound s a ∨ ∃ next, step s a = some next ∧ ¬ good next)
    (s : σ) (actions : List α) (start : invariant s) :
    Along step good s actions ∧ Attempts step sound s actions ↔ Attempts step allowed s actions := by
  refine ⟨?_, safe_of_attempts makes_good keeps s actions start⟩
  induction actions generalizing s with
  | nil => exact fun _ => attempts_nil
  | cons a rest ih =>
    rw [along_cons, attempts_cons, attempts_cons]
    rintro ⟨⟨_, goods⟩, first, sounds⟩
    have legal : allowed s a := by
      by_contra illegal
      rcases breaks s a start illegal with unsound | ⟨next, taken, bad⟩
      · exact unsound first
      · exact bad (goods next taken [] nil_prefix next rfl)
    refine ⟨legal, fun next taken => ?_⟩
    have invariant_next := (keeps s a start legal).2 next taken
    exact ih next invariant_next ⟨goods next taken, sounds next taken⟩

end

/-- The invariant rule: an invariant that every allowed step keeps holds in
every state of a run that takes only allowed steps. -/
theorem invariant_along (keeps : ∀ s a next, invariant s → allowed s a → step s a = some next → invariant next)
    (s : σ) (actions : List α) (start : invariant s) (legal : Steps step allowed s actions) :
    Along step invariant s actions := by
  refine (@safe_of_attempts _ _ step _ _ _ (fun _ _ => True) (fun _ here => here) ?_ s actions start
    (steps_iff_attempts.mp legal)).1
  exact fun s a here permitted => ⟨trivial, fun next taken => keeps s a next here (permitted next taken) taken⟩

theorem along_iff_steps_of_invariant (makes_good : ∀ s, invariant s → good s)
    (keeps : ∀ s a next, invariant s → allowed s a → step s a = some next → invariant next)
    (breaks : ∀ s a next, invariant s → ¬ allowed s a → step s a = some next → ¬ good next)
    (s : σ) (actions : List α) (start : invariant s) :
    Along step good s actions ↔ Steps step allowed s actions := by
  have both := @safe_iff_attempts _ _ step good invariant
    (fun s a => ∀ next, step s a = some next → allowed s a) (fun _ _ => True) makes_good
    (fun s a here permitted => ⟨trivial, fun next taken => keeps s a next here (permitted next taken) taken⟩)
    (by
      intro s a here illegal
      simp only [not_forall] at illegal
      obtain ⟨next, taken, unusual⟩ := illegal
      exact .inr ⟨next, taken, breaks s a next here unusual taken⟩) s actions start
  rw [steps_iff_attempts, ← both]
  exact ⟨fun all => ⟨all, fun _ _ _ _ _ => trivial⟩, fun all => all.1⟩

theorem along_final (all : Along step good s actions) (completed : run step s actions = some final) :
    good final :=
  all actions (prefix_refl actions) final completed

theorem run_simulates {τ : Type*} {spec : τ → α → Option τ} {rel : σ → τ → Prop} {legal : τ → α → Prop} {t : τ}
    (simulates : ∀ s t a, rel s t → legal t a → Option.Rel rel (step s a) (spec t a)) (related : rel s t)
    (all : Attempts spec legal t actions) : Option.Rel rel (run step s actions) (run spec t actions) := by
  induction actions generalizing s t with
  | nil => exact .some related
  | cons a rest ih =>
    obtain ⟨first, later⟩ := attempts_cons.mp all
    have both := simulates s t a related first
    rw [run_cons, run_cons]
    cases taken : spec t a with
    | none =>
      rw [taken] at both
      generalize step s a = next at both
      cases both
      exact .none
    | some next' =>
      rw [taken] at both
      generalize step s a = next at both
      cases both with
      | some related' => exact ih related' (later next' taken)

end OranSlice.Runs
