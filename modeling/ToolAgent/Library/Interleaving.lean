import Mathlib.Logic.Function.Basic
import ToolAgent.Library.Runs

/-!
# Workers over a shared store

Finitely or infinitely many workers take turns. Each has a local state of its own, and all of them
read and write one store. A schedule is a list of workers, and nothing is asked of it.

Two systems that take the same turns are compared turn by turn, and a worker with a bounded amount
of work is done after so many turns of its own. Two rules reduce a schedule to one worker at a time.

* When every worker writes only to keys that it owns, and no key has two owners, a property of one
  worker and of its own keys can be followed as if the worker ran alone.
* When a worker sees of a configuration only what its own steps decide, and a part of the store that
  no turn changes, it sees after a schedule what it would see if it had taken its own steps alone.

## Main definitions

* `turn`, `run` — one turn and a schedule of turns
* `Isolated` — the workers keep to their own keys
* `Unwinding` — what a worker sees is decided by its own steps and by what all have in common

## Main results

* `run_simulation`, `run_left` — the simulation rule and the progress rule
* `Isolated.run_invariant` — the invariant rule for one worker at a time
* `Unwinding.view_alone` — the view after a schedule
-/

namespace ToolAgent

namespace Interleaving

variable {ι κ ν S L : Type} [DecidableEq ι]

/-- The local states, and the store. -/
abbrev Config (ι S L : Type) := (ι → L) × S

/-- Worker `i` takes a step. -/
def turn (step : ι → L → S → L × S) (c : Config ι S L) (i : ι) : Config ι S L :=
  (Function.update c.1 i (step i (c.1 i) c.2).1, (step i (c.1 i) c.2).2)

def run (step : ι → L → S → L × S) (c : Config ι S L) (schedule : List ι) : Config ι S L :=
  schedule.foldl (turn step) c

theorem turn_self (step : ι → L → S → L × S) (c : Config ι S L) (i : ι) :
    (turn step c i).1 i = (step i (c.1 i) c.2).1 :=
  Function.update_self _ _ _

theorem turn_of_ne (step : ι → L → S → L × S) (c : Config ι S L) {i j : ι} (h : i ≠ j) :
    (turn step c j).1 i = c.1 i :=
  Function.update_of_ne h _ _

/-- **The simulation rule.** Two systems take the turns of one schedule, and what relates them is
kept by every turn. -/
theorem run_simulation {S' L' : Type} {step : ι → L → S → L × S} {step' : ι → L' → S' → L' × S'}
    {R : Config ι S L → Config ι S' L' → Prop}
    (hturn : ∀ c c' j, R c c' → R (turn step c j) (turn step' c' j)) (schedule : List ι) :
    ∀ c c', R c c' → R (run step c schedule) (run step' c' schedule) := by
  induction schedule with
  | nil => exact fun c c' hc => hc
  | cons j schedule ih =>
    exact fun c c' hc => ih (turn step c j) (turn step' c' j) (hturn c c' j hc)

/-- **The progress rule.** `left` bounds the turns that a worker has left, and each of its turns
uses one up. -/
theorem run_left {step : ι → L → S → L × S} (left : L → ℕ)
    (hstep : ∀ i l s, left (step i l s).1 ≤ left l - 1) (i : ι) (schedule : List ι) :
    ∀ c, left ((run step c schedule).1 i) ≤ left (c.1 i) - schedule.count i := by
  induction schedule with
  | nil => exact fun c => Nat.le_refl _
  | cons j schedule ih =>
    intro c
    refine Nat.le_trans (ih (turn step c j)) ?_
    by_cases hij : i = j
    · subst hij
      have hturn := hstep i (c.1 i) c.2
      rw [turn_self, List.count_cons_self]
      omega
    · refine Nat.le_of_eq ?_
      rw [turn_of_ne step c hij, List.count_cons_of_ne (Ne.symm hij)]

/-! ### Workers with keys of their own -/

/-- Workers that keep to their own keys. -/
structure Isolated (step : ι → L → (κ → ν) → L × (κ → ν)) (owns : ι → κ → Prop) : Prop where
  disjoint : ∀ i j k, owns i k → owns j k → i = j
  frame : ∀ i l store k, ¬owns i k → (step i l store).2 k = store k

section Isolated

variable {step : ι → L → (κ → ν) → L × (κ → ν)} {owns : ι → κ → Prop}

/-- The keys of the other workers stay as they are. -/
theorem Isolated.turn_key (h : Isolated step owns) (c : Config ι (κ → ν) L) {i j : ι} (hij : i ≠ j)
    {k : κ} (hk : owns i k) : (turn step c j).2 k = c.2 k :=
  h.frame j (c.1 j) c.2 k fun hj => hij (h.disjoint i j k hk hj)

/-- **The invariant rule.** `Inv i` speaks of worker `i` and of the keys that it owns, and a step of
worker `i` keeps it. Then it holds of every worker after any schedule. -/
theorem Isolated.run_invariant (h : Isolated step owns) (Inv : ι → L → (κ → ν) → Prop)
    (hlocal : ∀ i l store store', (∀ k, owns i k → store k = store' k) → Inv i l store →
      Inv i l store')
    (hstep : ∀ i l store, Inv i l store → Inv i (step i l store).1 (step i l store).2)
    (schedule : List ι) : ∀ c : Config ι (κ → ν) L, (∀ i, Inv i (c.1 i) c.2) →
      ∀ i, Inv i ((run step c schedule).1 i) (run step c schedule).2 := by
  induction schedule with
  | nil => exact fun c hc => hc
  | cons j schedule ih =>
    intro c hc
    refine ih (turn step c j) fun i => ?_
    by_cases hij : i = j
    · subst hij
      rw [turn_self]
      exact hstep i _ _ (hc i)
    · rw [turn_of_ne step c hij]
      exact hlocal i _ c.2 _ (fun k hk => (h.turn_key c hij hk).symm) (hc i)

end Isolated

/-! ### Workers that see only their own steps -/

/-- What worker `i` sees of a configuration, in terms of its own steps and of a part of the store
that all workers have in common. `Inv` is an invariant of all workers together. -/
structure Unwinding {V C : Type} (step : ι → L → S → L × S) (Inv : Config ι S L → Prop)
    (view : ι → Config ι S L → V) (common : S → C) (next : ι → C → V → V × C) : Prop where
  invariant : ∀ c j, Inv c → Inv (turn step c j)
  own : ∀ c i, Inv c →
    (view i (turn step c i), common (turn step c i).2) = next i (common c.2) (view i c)
  other : ∀ c i j, Inv c → i ≠ j → view i (turn step c j) = view i c

/-- A turn that leaves what all have in common as it was. -/
def KeepsCommon {C : Type} (step : ι → L → S → L × S) (common : S → C) (c : Config ι S L)
    (j : ι) : Prop :=
  common (turn step c j).2 = common c.2

section Unwinding

variable {V C : Type} {step : ι → L → S → L × S} {Inv : Config ι S L → Prop}
  {view : ι → Config ι S L → V} {common : S → C} {next : ι → C → V → V × C}

/-- **Alone.** As long as no turn changes what all have in common, the worker sees what it would see
if only its own steps were taken, also when that happens in another configuration that looks the
same to it. -/
theorem Unwinding.view_alone (h : Unwinding step Inv view common next) (i : ι) (schedule : List ι) :
    ∀ {c c' : Config ι S L}, Inv c → Inv c' → view i c = view i c' → common c.2 = common c'.2 →
      Runs.Guarded (turn step) (KeepsCommon step common) c schedule →
      view i (run step c schedule) = view i (run step c' (schedule.filter (· = i))) := by
  induction schedule with
  | nil => exact fun _ _ hview _ _ => hview
  | cons j schedule ih =>
    intro c c' hc hc' hview hcommon hguarded
    have hkept : common (turn step c j).2 = common c.2 := hguarded.1
    by_cases hij : i = j
    · subst hij
      have hown := h.own c i hc
      rw [hview, hcommon, ← h.own c' i hc', Prod.mk.injEq] at hown
      have hfilter : (i :: schedule).filter (· = i) = i :: schedule.filter (· = i) :=
        List.filter_cons_of_pos (decide_eq_true rfl)
      rw [hfilter]
      exact ih (h.invariant c i hc) (h.invariant c' i hc') hown.1 hown.2 hguarded.2
    · rw [List.filter_cons_of_neg (by simpa using Ne.symm hij)]
      exact ih (h.invariant c j hc) hc' ((h.other c i j hc hij).trans hview) (hkept.trans hcommon)
        hguarded.2

end Unwinding

end Interleaving

end ToolAgent
