import Mathlib.Data.List.Basic

/-!
# Guarded runs

A machine `step` takes one operation at a time. `Guarded G s ops` says that along the run of `ops`
from `s` every operation is issued in a state that its guard `G` allows. An invariant that every
guarded step keeps holds in every state of a guarded run.

## Main results

* `Guarded.append` — a guarded run in two parts
* `run_invariant` — the invariant rule
-/

namespace ToolAgent

namespace Runs

variable {σ ο : Type} {step : σ → ο → σ} {G : σ → ο → Prop}

/-- The state after the operations `ops`. -/
def run (step : σ → ο → σ) (s : σ) (ops : List ο) : σ := ops.foldl step s

/-- Every operation of the run is allowed where it is issued. -/
def Guarded (step : σ → ο → σ) (G : σ → ο → Prop) : σ → List ο → Prop
  | _, [] => True
  | s, o :: ops => G s o ∧ Guarded step G (step s o) ops

theorem run_append (s : σ) (xs ys : List ο) : run step s (xs ++ ys) = run step (run step s xs) ys :=
  List.foldl_append

theorem Guarded.append {xs ys : List ο} {s : σ} :
    Guarded step G s (xs ++ ys) ↔ Guarded step G s xs ∧ Guarded step G (run step s xs) ys := by
  induction xs generalizing s with
  | nil => simp [Guarded, run]
  | cons x xs ih =>
    rw [List.cons_append, Guarded, ih, Guarded, and_assoc]
    rfl

/-- **The invariant rule.** -/
theorem run_invariant {Inv : σ → Prop} (hstep : ∀ s o, Inv s → G s o → Inv (step s o))
    {ops : List ο} : ∀ {s : σ}, Inv s → Guarded step G s ops → Inv (run step s ops) := by
  induction ops with
  | nil => exact fun hs _ => hs
  | cons o ops ih =>
    intro s hs hg
    exact ih (hstep s o hs hg.1) hg.2

end Runs

end ToolAgent
