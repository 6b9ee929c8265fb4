/-!
# Runs that stop at the first refusal

Reading a log and searching a heap are runs of one small step over a list of items.  A step may
refuse its item; the run then stops **before** that item and leaves the state that the items before
it have made.  A `Progress` holds that state and what stopped the run, if anything did.

**Runs compose.**  `run_append` cuts a run at any place, and `run_append_eq_ok` one that nothing
stops; `run_accepted` says that the state left by a refused run is the one that the accepted items
make on their own.
-/

namespace HeapReplay

/-- How far a run got: the state it leaves, and what stopped it. -/
structure Progress (σ ε : Type) where
  state : σ
  failure : Option ε := none
deriving DecidableEq, Repr

namespace Progress

variable {σ ε α : Type}

/-- Applies a step to one item after the other, up to the first item it refuses. -/
def run (step : σ → α → Except ε σ) (s : σ) : List α → Progress σ ε
  | [] => { state := s }
  | a :: rest =>
    match step s a with
    | .ok s' => run step s' rest
    | .error e => { state := s, failure := some e }

/-- The items before the first one that a run refuses. -/
def accepted (step : σ → α → Except ε σ) (s : σ) : List α → List α
  | [] => []
  | a :: rest =>
    match step s a with
    | .ok s' => a :: accepted step s' rest
    | .error _ => []

/-- Goes on from the state that was reached, unless something has stopped the run. -/
def andThen (p : Progress σ ε) (next : σ → Progress σ ε) : Progress σ ε :=
  match p.failure with
  | none => next p.state
  | some _ => p

/-- The final state, if nothing stopped the run. -/
def toExcept (p : Progress σ ε) : Except ε σ :=
  match p.failure with
  | none => .ok p.state
  | some e => .error e

/-! ## Cutting a run -/

theorem run_append (step : σ → α → Except ε σ) (s : σ) (xs ys : List α) :
    run step s (xs ++ ys) = (run step s xs).andThen fun s' => run step s' ys := by
  induction xs generalizing s with
  | nil => rfl
  | cons x xs ih =>
    simp only [List.cons_append, run]
    cases step s x with
    | ok s' => exact ih s'
    | error e => rfl

/-- A run that takes in all of its items takes in the first one and then the others. -/
theorem run_cons_eq_ok {step : σ → α → Except ε σ} {s s' : σ} {x : α} {xs : List α} :
    run step s (x :: xs) = { state := s' } ↔
      ∃ t, step s x = .ok t ∧ run step t xs = { state := s' } := by
  rw [run]
  cases step s x <;> simp

theorem run_append_eq_ok {step : σ → α → Except ε σ} {s s' : σ} {xs ys : List α} :
    run step s (xs ++ ys) = { state := s' } ↔
      ∃ t, run step s xs = { state := t } ∧ run step t ys = { state := s' } := by
  rw [run_append]
  obtain ⟨t, failure⟩ := run step s xs
  cases failure <;> simp [andThen]

/-- **A refused item changes nothing**: the accepted items alone lead to the same state. -/
theorem run_accepted (step : σ → α → Except ε σ) (s : σ) (xs : List α) :
    run step s (accepted step s xs) = { state := (run step s xs).state } := by
  induction xs generalizing s with
  | nil => rfl
  | cons x xs ih =>
    cases h : step s x with
    | ok s' => simpa [run, accepted, h] using ih s'
    | error e => simp [run, accepted, h]

/-- What every step keeps, a whole run keeps. -/
theorem run_induction {step : σ → α → Except ε σ} {motive : σ → Prop} {s : σ} {xs : List α}
    (start : motive s)
    (keep : ∀ s x s', x ∈ xs → motive s → step s x = .ok s' → motive s') :
    motive (run step s xs).state := by
  induction xs generalizing s with
  | nil => exact start
  | cons x xs ih =>
    simp only [run]
    cases h : step s x with
    | ok s' =>
      exact ih (keep s x s' (by simp) start h)
        fun s y s' hy => keep s y s' (List.mem_cons_of_mem x hy)
    | error e => exact start

end Progress

end HeapReplay
