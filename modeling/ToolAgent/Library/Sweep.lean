import Mathlib.Data.List.Nodup

/-!
# Sweeps

A *sweep* is a loop that visits each index of a collection once and rewrites the entry at that
index, with further state (counters, a cache) threaded through. What it does to an entry is read off
the one round that visits it, because no other round touches that entry.

## Main definitions

* `Sweep f entry R` — a round `f s i` leaves every entry but the `i`-th alone, and `R` relates the
  `i`-th entry before and after

## Main results

* `Sweep.run` — what a whole sweep does to each entry
* `Sweep.run_ok_iff` — a sweep completes when each round completes on the entry as it was at the
  start
-/

namespace ToolAgent

variable {σ ι ρ ε : Type}

/-- A round that rewrites one entry. -/
structure Sweep (f : σ → ι → Except ε σ) (entry : σ → ι → ρ) (R : ι → ρ → ρ → Prop) : Prop where
  /-- The other entries stay. -/
  frame : ∀ {s i s'}, f s i = .ok s' → ∀ j, j ≠ i → entry s' j = entry s j
  /-- The visited entry changes as `R` says. -/
  own : ∀ {s i s'}, f s i = .ok s' → R i (entry s i) (entry s' i)

namespace Sweep

variable {f : σ → ι → Except ε σ} {entry : σ → ι → ρ} {R : ι → ρ → ρ → Prop}

/-- A successful sweep is a successful round and a successful rest. -/
theorem foldlM_cons_eq_ok {i : ι} {l : List ι} {s s' : σ} :
    (i :: l).foldlM f s = .ok s' ↔ ∃ s₁, f s i = .ok s₁ ∧ l.foldlM f s₁ = .ok s' := by
  rw [List.foldlM_cons]
  cases h : f s i with
  | error e => simp [bind, Except.bind]
  | ok s₁ => simp [bind, Except.bind]

/-- **What a sweep does.** Visited entries are related by `R`, the others stay. -/
theorem run (h : Sweep f entry R) {l : List ι} (hl : l.Nodup) :
    ∀ {s s'}, l.foldlM f s = .ok s' → ∀ i,
      (i ∈ l → R i (entry s i) (entry s' i)) ∧ (i ∉ l → entry s' i = entry s i) := by
  induction l with
  | nil =>
    intro s s' hrun i
    simp only [List.foldlM_nil, pure, Except.pure, Except.ok.injEq] at hrun
    simp [hrun]
  | cons a l ih =>
    obtain ⟨ha, hl⟩ := List.nodup_cons.mp hl
    intro s s' hrun i
    obtain ⟨s₁, hround, hrest⟩ := foldlM_cons_eq_ok.mp hrun
    obtain ⟨hin, hout⟩ := ih hl hrest i
    refine ⟨fun hi => ?_, fun hi => ?_⟩
    · rcases List.mem_cons.mp hi with rfl | hi
      · rw [hout ha]
        exact h.own hround
      · rw [← h.frame hround i fun hia => ha (hia ▸ hi)]
        exact hin hi
    · rw [List.mem_cons, not_or] at hi
      rw [hout hi.2, h.frame hround i hi.1]

/-- **When a sweep completes.** Each round sees its entry as it was at the start, so a sweep
completes exactly when every entry it visits is one on which a round completes. -/
theorem run_ok_iff (h : Sweep f entry R) {P : ι → ρ → Prop}
    (hP : ∀ s i, (∃ s', f s i = .ok s') ↔ P i (entry s i)) {l : List ι} (hl : l.Nodup) :
    ∀ s, (∃ s', l.foldlM f s = .ok s') ↔ ∀ i ∈ l, P i (entry s i) := by
  induction l with
  | nil => simp [pure, Except.pure]
  | cons a l ih =>
    obtain ⟨ha, hl⟩ := List.nodup_cons.mp hl
    intro s
    rw [List.forall_mem_cons, ← hP s a]
    constructor
    · rintro ⟨s', hrun⟩
      obtain ⟨s₁, hround, hrest⟩ := foldlM_cons_eq_ok.mp hrun
      refine ⟨⟨s₁, hround⟩, fun i hi => ?_⟩
      rw [← h.frame hround i fun hia => ha (hia ▸ hi)]
      exact (ih hl s₁).mp ⟨s', hrest⟩ i hi
    · rintro ⟨⟨s₁, hround⟩, hrest⟩
      have hrest₁ : ∀ i ∈ l, P i (entry s₁ i) := fun i hi => by
        rw [h.frame hround i fun hia => ha (hia ▸ hi)]
        exact hrest i hi
      obtain ⟨s', hs'⟩ := (ih hl s₁).mpr hrest₁
      exact ⟨s', foldlM_cons_eq_ok.mpr ⟨s₁, hround, hs'⟩⟩

end Sweep

end ToolAgent
