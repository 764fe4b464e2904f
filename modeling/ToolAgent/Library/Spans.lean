import Mathlib.Algebra.BigOperators.Group.List.Basic
import Mathlib.Algebra.Order.Ring.Nat
import Mathlib.Data.Finset.Card
import Mathlib.Order.Interval.Finset.Nat

/-!
# Copying spans

A span is a half-open interval of positions. Copying spans of one list into another of the same
length leaves the other positions as they were, and when the spans are disjoint, the number of
positions that are written is the sum of their lengths.

## Main definitions

* `Span`, `copySpan`, `copySpans`

## Main results

* `getElem?_copySpans` — what stands where
* `countP_covered` — how many positions are covered by disjoint spans
-/

namespace ToolAgent

/-- The positions from `start` up to, but not including, `stop`. -/
structure Span where
  start : ℕ
  stop : ℕ

namespace Span

variable {α : Type}

instance : Membership ℕ Span := ⟨fun s p => s.start ≤ p ∧ p < s.stop⟩

theorem mem_def {s : Span} {p : ℕ} : p ∈ s ↔ s.start ≤ p ∧ p < s.stop := Iff.rfl

instance (s : Span) (p : ℕ) : Decidable (p ∈ s) :=
  inferInstanceAs (Decidable (s.start ≤ p ∧ p < s.stop))

def length (s : Span) : ℕ := s.stop - s.start

/-- No position is in both. -/
def Disjoint (s t : Span) : Prop := ∀ p, p ∈ s → p ∉ t

theorem disjoint_of_le {s t : Span} (h : s.stop ≤ t.start) : s.Disjoint t := by
  intro p hs ht
  rw [mem_def] at hs ht
  omega

/-- Some span of the list has `p`. -/
def Covers (spans : List Span) (p : ℕ) : Prop := ∃ s ∈ spans, p ∈ s

instance (spans : List Span) (p : ℕ) : Decidable (Covers spans p) :=
  inferInstanceAs (Decidable (∃ s ∈ spans, p ∈ s))

theorem covers_cons {s : Span} {spans : List Span} {p : ℕ} :
    Covers (s :: spans) p ↔ p ∈ s ∨ Covers spans p := by
  simp [Covers]

/-! ### Copying -/

/-- `for pos in range(start, stop): dst[pos] = src[pos]`. -/
def copySpan (src dst : List α) (s : Span) : List α :=
  (List.range' s.start s.length).foldl (fun dst pos =>
    match src[pos]? with
    | some x => dst.set pos x
    | none => dst) dst

/-- One span after the other. -/
def copySpans (src dst : List α) (spans : List Span) : List α :=
  spans.foldl (copySpan src) dst

theorem length_copySpan (src dst : List α) (s : Span) :
    (copySpan src dst s).length = dst.length := by
  rw [copySpan]
  generalize List.range' s.start s.length = positions
  induction positions generalizing dst with
  | nil => rfl
  | cons pos positions ih =>
    rw [List.foldl_cons, ih]
    split
    · rw [List.length_set]
    · rfl

/-- The positions of a run `start, …, start + k - 1` are copied, the others stay. -/
theorem getElem?_copy_range' (src : List α) (k : ℕ) :
    ∀ (start : ℕ) (dst : List α), dst.length = src.length → ∀ p,
      ((List.range' start k).foldl (fun dst pos =>
        match src[pos]? with
        | some x => dst.set pos x
        | none => dst) dst)[p]? = if start ≤ p ∧ p < start + k then src[p]? else dst[p]? := by
  induction k with
  | zero =>
    intro start dst _ p
    rw [if_neg (by omega)]
    rfl
  | succ k ih =>
    intro start dst hlen p
    rw [List.range'_succ, List.foldl_cons]
    rcases hsrc : src[start]? with - | x
    · -- beyond the end of both lists nothing is copied
      have hout := List.getElem?_eq_none_iff.mp hsrc
      rw [ih (start + 1) dst hlen p]
      split_ifs with h₁ h₂ h₂
      · rfl
      · omega
      · have hp : src[p]? = none := List.getElem?_eq_none_iff.mpr (by omega)
        rw [hp, List.getElem?_eq_none_iff]
        omega
      · rfl
    · have hstart := (List.getElem?_eq_some_iff.mp hsrc).1
      show (List.foldl _ (dst.set start x) (List.range' (start + 1) k))[p]? = _
      rw [ih (start + 1) (dst.set start x) (by rw [List.length_set, hlen]) p]
      by_cases hp : p = start
      · subst hp
        rw [if_neg (by omega), if_pos (by omega), hsrc, List.getElem?_set_self (by omega)]
      · rw [List.getElem?_set_ne (Ne.symm hp)]
        have hiff : (start + 1 ≤ p ∧ p < start + 1 + k) ↔ (start ≤ p ∧ p < start + (k + 1)) := by
          omega
        simp only [hiff]

theorem getElem?_copySpan {src dst : List α} (hlen : dst.length = src.length) (s : Span) (p : ℕ) :
    (copySpan src dst s)[p]? = if p ∈ s then src[p]? else dst[p]? := by
  have hiff : (s.start ≤ p ∧ p < s.start + s.length) ↔ p ∈ s := by
    rw [mem_def, length]
    omega
  rw [copySpan, getElem?_copy_range' src s.length s.start dst hlen p]
  simp only [hiff]

theorem length_copySpans (src : List α) (spans : List Span) (dst : List α) :
    (copySpans src dst spans).length = dst.length := by
  induction spans generalizing dst with
  | nil => rfl
  | cons s spans ih =>
    have hrest := ih (copySpan src dst s)
    rw [length_copySpan] at hrest
    exact hrest

/-- **What stands where** after copying: the source where a span covers the position. -/
theorem getElem?_copySpans {src : List α} (spans : List Span) (p : ℕ) :
    ∀ {dst : List α}, dst.length = src.length →
      (copySpans src dst spans)[p]? = if Covers spans p then src[p]? else dst[p]? := by
  induction spans with
  | nil =>
    intro dst _
    rw [if_neg (by simp [Covers])]
    rfl
  | cons s spans ih =>
    intro dst hlen
    have hrest := ih ((length_copySpan src dst s).trans hlen)
    show (copySpans src (copySpan src dst s) spans)[p]? = _
    rw [hrest, getElem?_copySpan hlen]
    by_cases hs : p ∈ s
    · simp [covers_cons, hs]
    · simp [covers_cons, hs]

/-! ### Counting -/

theorem countP_mem {s : Span} {n : ℕ} (hs : s.stop ≤ n) :
    (List.range n).countP (fun p => decide (p ∈ s)) = s.length := by
  have hfilter : (Finset.range n).filter (fun p => p ∈ s) = Finset.Ico s.start s.stop := by
    ext p
    rw [Finset.mem_filter, Finset.mem_range, Finset.mem_Ico, mem_def]
    omega
  rw [List.countP_eq_length_filter, length, ← Nat.card_Ico, ← hfilter]
  rfl

/-- Counting two properties that exclude each other. -/
theorem countP_or_of_disjoint (xs : List α) {P Q : α → Bool}
    (h : ∀ x, P x = true → Q x = false) :
    xs.countP (fun x => P x || Q x) = xs.countP P + xs.countP Q := by
  induction xs with
  | nil => rfl
  | cons x xs ih =>
    rw [List.countP_cons, List.countP_cons, List.countP_cons, ih]
    rcases hP : P x with - | -
    · simp
      omega
    · simp [h x hP]
      omega

/-- **Disjoint spans** cover as many positions as they have together. -/
theorem countP_covered {n : ℕ} (spans : List Span) :
    spans.Pairwise Disjoint → (∀ s ∈ spans, s.stop ≤ n) →
      (List.range n).countP (fun p => decide (Covers spans p)) = (spans.map length).sum := by
  induction spans with
  | nil =>
    intro _ _
    simp [Covers]
  | cons s spans ih =>
    intro hdisj hbound
    obtain ⟨hs, hspans⟩ := List.pairwise_cons.mp hdisj
    obtain ⟨hbs, hbspans⟩ := List.forall_mem_cons.mp hbound
    have hsplit : (fun p => decide (Covers (s :: spans) p)) =
        fun p => decide (p ∈ s) || decide (Covers spans p) := by
      funext p
      rw [← Bool.decide_or]
      exact decide_eq_decide.mpr covers_cons
    have hexcl : ∀ p, decide (p ∈ s) = true → decide (Covers spans p) = false := by
      intro p hp
      rw [decide_eq_false_iff_not]
      rintro ⟨t, ht, hpt⟩
      exact hs t ht p (of_decide_eq_true hp) hpt
    rw [hsplit, countP_or_of_disjoint _ hexcl, countP_mem hbs, ih hspans hbspans, List.map_cons,
      List.sum_cons]

end Span

end ToolAgent
