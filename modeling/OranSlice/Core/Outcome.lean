import Mathlib.Tactic

/-! Loops whose body may abort. An aborted loop keeps the state it had reached. -/

namespace OranSlice

inductive Outcome (ε σ : Type*) where
  | done (state : σ)
  | abort (reason : ε) (state : σ)

namespace Outcome

variable {ε σ τ α : Type*}

def state : Outcome ε σ → σ
  | done s => s
  | abort _ s => s

def reason? : Outcome ε σ → Option ε
  | done _ => none
  | abort reason _ => some reason

def andThen (first : Outcome ε σ) (next : σ → Outcome ε σ) : Outcome ε σ :=
  match first with
  | done s => next s
  | abort reason s => abort reason s

variable (reason : ε) (body : α → σ → Outcome ε σ) (s : σ) (next : σ → Outcome ε σ)

@[simp] theorem state_done : (done s : Outcome ε σ).state = s := rfl

@[simp] theorem state_abort : (abort reason s).state = s := rfl

@[simp] theorem reason_done : (done s : Outcome ε σ).reason? = none := rfl

@[simp] theorem reason_abort : (abort reason s).reason? = some reason := rfl

@[simp] theorem done_andThen : (done s).andThen next = next s := rfl

@[simp] theorem abort_andThen :
    (abort reason s).andThen next = abort reason s := rfl

def loop (body : α → σ → Outcome ε σ) : List α → σ → Outcome ε σ
  | [], s => done s
  | a :: rest, s => (body a s).andThen (loop body rest)

@[simp] theorem loop_nil : loop body [] s = done s := rfl

@[simp] theorem loop_cons (a : α) (rest : List α) (s : σ) :
    loop body (a :: rest) s = (body a s).andThen (loop body rest) := rfl

theorem loop_reason {body : α → σ → Outcome ε σ} {items : List α} {why : ε}
    (never : ∀ a ∈ items, ∀ s, (body a s).reason? ≠ some why) (s : σ) :
    (loop body items s).reason? ≠ some why := by
  induction items generalizing s with
  | nil => simp
  | cons a rest ih =>
    have here := never a List.mem_cons_self s
    rw [loop_cons]
    cases taken : body a s with
    | done t => exact ih (List.forall_mem_cons.mp never).2 t
    | abort reason t => simpa [taken] using here

end Outcome

end OranSlice
