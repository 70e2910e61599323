import Mathlib.Data.List.Induction
/-!
# Calls in time

A component that is called at one instant after another. `after` is its state
behind some calls and `log` has each call with its answer; both are read off
one step, which answers a call and gives the next state.
-/

namespace Colloquy

/-- A call, and the instant it is made at. -/
structure Timed (α : Type) where
  instant : Nat
  call : α
deriving DecidableEq, Repr

namespace Timed

variable {σ α β : Type}

/-- Instants that never go back. -/
def InOrder (calls : List (Timed α)) : Prop := calls.Pairwise fun c d => c.instant ≤ d.instant

instance (calls : List (Timed α)) : Decidable (InOrder calls) :=
  inferInstanceAs (Decidable (calls.Pairwise _))

theorem inOrder_concat {calls : List (Timed α)} {c : Timed α} :
    InOrder (calls ++ [c]) ↔ InOrder calls ∧ ∀ d ∈ calls, d.instant ≤ c.instant := by
  simp [InOrder, List.pairwise_append]

theorem inOrder_cons {c : Timed α} {calls : List (Timed α)} :
    InOrder (c :: calls) ↔ (∀ d ∈ calls, c.instant ≤ d.instant) ∧ InOrder calls :=
  List.pairwise_cons

variable (step : σ → Timed α → β × σ)

/-- The state behind calls. -/
def after (s : σ) (calls : List (Timed α)) : σ := calls.foldl (fun s c => (step s c).2) s

/-- Each call with its answer. -/
def log (s : σ) : List (Timed α) → List (Timed α × β)
  | [] => []
  | c :: calls => (c, (step s c).1) :: log (step s c).2 calls

variable {step}

theorem after_concat (s : σ) (calls : List (Timed α)) (c : Timed α) :
    after step s (calls ++ [c]) = (step (after step s calls) c).2 := by
  simp only [after, List.foldl_append, List.foldl_cons, List.foldl_nil]

theorem log_concat (s : σ) (calls : List (Timed α)) (c : Timed α) :
    log step s (calls ++ [c]) = log step s calls ++ [(c, (step (after step s calls) c).1)] := by
  induction calls generalizing s with
  | nil => rfl
  | cons d calls ih => exact congrArg (_ :: ·) (ih (step s d).2)

/-- **What every call keeps, a run keeps.** -/
theorem after_keeps {I : σ → Prop} {s : σ} (h0 : I s) (hstep : ∀ s c, I s → I (step s c).2)
    (calls : List (Timed α)) : I (after step s calls) := by
  induction calls generalizing s with
  | nil => exact h0
  | cons c calls ih => exact ih (hstep s c h0)

end Timed

end Colloquy
