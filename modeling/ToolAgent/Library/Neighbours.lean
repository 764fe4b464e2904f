import Mathlib.Data.List.Basic
import Mathlib.Data.List.Induction

/-!
# Marked elements and their predecessors

Of a list, select the marked elements and each element right before one, by position. A loop that
looks for the predecessor among what it has selected, by value, drops a predecessor that looks like
something selected before. `byValue_eq_iff` says that this is the only way in which the two differ.

## Main definitions

* `selected`, `byPosition` — the selection by position
* `byValue` — the loop
* `NoTwin` — no predecessor looks like an element selected before it

## Main results

* `byPosition_concat`, `byValue_concat` — one element more
* `byValue_eq_iff` — when the loop selects by position
-/

namespace ToolAgent

namespace Neighbours

variable {α : Type}

/-- The element at position `i` is marked, or the next one is. -/
def selected (w : α → Bool) (xs : List α) (i : ℕ) : Bool := xs[i]?.any w || xs[i + 1]?.any w

/-- The elements at the selected positions, each once and in order. -/
def byPosition (w : α → Bool) (xs : List α) : List α :=
  (List.range xs.length).filterMap fun i => if selected w xs i then xs[i]? else none

/-- The loop: `prev` is the element right before, `key` what has been selected. -/
def byValueLoop (w : α → Bool) (same : α → α → Bool) (prev : Option α) (key : List α) :
    List α → List α
  | [] => key
  | x :: xs =>
    byValueLoop w same (some x)
      (if w x then key ++ (prev.toList.filter fun p => !key.any (same p)) ++ [x] else key) xs

def byValue (w : α → Bool) (same : α → α → Bool) (xs : List α) : List α :=
  byValueLoop w same none [] xs

/-- No element that is selected for its successor alone looks like an element selected before it. -/
def NoTwin (w : α → Bool) (same : α → α → Bool) (xs : List α) : Prop :=
  ∀ (i j : ℕ) (p q : α), j < i → xs[i]? = some p → xs[j]? = some q → w p = false →
    xs[i + 1]?.any w = true → selected w xs j = true → same p q = false

section Selection

variable {w : α → Bool} {same : α → α → Bool} {xs : List α}

theorem mem_byPosition {q : α} :
    q ∈ byPosition w xs ↔ ∃ j : ℕ, xs[j]? = some q ∧ selected w xs j = true := by
  rw [byPosition, List.mem_filterMap]
  constructor
  · rintro ⟨j, -, hj⟩
    split at hj
    · next hselected => exact ⟨j, hj, hselected⟩
    · cases hj
  · rintro ⟨j, hq, hselected⟩
    have hlt : j < xs.length := (List.getElem?_eq_some_iff.mp hq).1
    exact ⟨j, List.mem_range.mpr hlt, by rw [if_pos hselected, hq]⟩

/-- A list with nothing marked. -/
theorem noTwin_of_unmarked (h : ∀ x ∈ xs, ¬w x = true) : NoTwin w same xs := by
  intro i j p q _ _ _ _ hnext
  rcases hx : xs[i + 1]? with - | x
  · rw [hx] at hnext
    cases hnext
  · rw [hx] at hnext
    exact absurd hnext (h x (List.mem_of_getElem? hx))

/-! ### One element more -/

theorem selected_append_of_lt (ys : List α) {i : ℕ} (h : i + 1 < xs.length) :
    selected w (xs ++ ys) i = selected w xs i := by
  rw [selected, selected, List.getElem?_append_left h, List.getElem?_append_left (by omega)]

/-- The last element before the new one. -/
theorem selected_concat_last (x : α) {i : ℕ} (h : i + 1 = xs.length) :
    selected w (xs ++ [x]) i = (xs[i]?.any w || w x) := by
  rw [selected, List.getElem?_append_left (by omega), h, List.getElem?_concat_length,
    Option.any_some]

theorem selected_concat_self (x : α) : selected w (xs ++ [x]) xs.length = w x := by
  rw [selected, List.getElem?_concat_length, List.getElem?_eq_none (by simp), Option.any_some,
    Option.any_none, Bool.or_false]

/-- What is selected of a longer list: the new element, if it is marked, and then also the one
before it. -/
theorem byPosition_concat (xs : List α) (x : α) :
    byPosition w (xs ++ [x]) =
      if w x then byPosition w xs ++ (xs.getLast?.toList.filter fun p => !w p) ++ [x]
      else byPosition w xs := by
  rcases List.eq_nil_or_concat' xs with rfl | ⟨init, p, rfl⟩
  · by_cases hx : w x = true
    · simp [byPosition, selected, hx]
    · simp [byPosition, selected, hx]
  · have hlength : (init ++ [p] ++ [x]).length = init.length + 1 + 1 := by simp
    have hlength' : (init ++ [p]).length = init.length + 1 := by simp
    -- the positions before `p` are selected as before
    have hbefore : ((List.range init.length).filterMap fun i =>
          if selected w (init ++ [p] ++ [x]) i then (init ++ [p] ++ [x])[i]? else none) =
        (List.range init.length).filterMap fun i =>
          if selected w (init ++ [p]) i then (init ++ [p])[i]? else none := by
      refine List.filterMap_congr fun i hi => ?_
      have hlt : i + 1 < (init ++ [p]).length := by
        rw [hlength']
        exact Nat.succ_lt_succ (List.mem_range.mp hi)
      rw [selected_append_of_lt [x] hlt, List.getElem?_append_left (Nat.lt_of_succ_lt hlt)]
    have hp : selected w (init ++ [p] ++ [x]) init.length = (w p || w x) := by
      rw [selected_concat_last x hlength'.symm, List.getElem?_concat_length, Option.any_some]
    have hx : selected w (init ++ [p] ++ [x]) (init.length + 1) = w x := by
      rw [← hlength', selected_concat_self]
    have hgetp : (init ++ [p] ++ [x])[init.length]? = some p := by simp
    have hgetx : (init ++ [p] ++ [x])[init.length + 1]? = some x := by simp
    rw [byPosition, hlength, List.range_succ, List.range_succ, List.filterMap_append,
      List.filterMap_append, hbefore, byPosition, hlength', List.range_succ, List.filterMap_append]
    simp only [List.filterMap_cons, List.filterMap_nil, hp, hx, hgetp, hgetx, selected_concat_self,
      List.getElem?_concat_length, List.getLast?_concat, Option.toList_some, List.filter_cons,
      List.filter_nil]
    rcases w p with - | -
    · rcases w x with - | -
      · simp
      · simp
    · rcases w x with - | -
      · simp
      · simp

theorem byValueLoop_concat (x : α) : ∀ (xs : List α) (prev : Option α) (key : List α),
    byValueLoop w same prev key (xs ++ [x]) =
      if w x then byValueLoop w same prev key xs ++
        ((xs.getLast?.or prev).toList.filter fun p => !(byValueLoop w same prev key xs).any (same p)) ++
          [x]
      else byValueLoop w same prev key xs
  | [], prev, key => rfl
  | y :: xs, prev, key => by
    have hlast : (y :: xs).getLast?.or prev = xs.getLast?.or (some y) := by
      rcases List.eq_nil_or_concat' xs with rfl | ⟨init, p, rfl⟩
      · rfl
      · rw [← List.cons_append, List.getLast?_concat, List.getLast?_concat]
        rfl
    rw [List.cons_append, byValueLoop, byValueLoop_concat x xs, byValueLoop, hlast]

/-- What the loop selects of a longer list. -/
theorem byValue_concat (xs : List α) (x : α) :
    byValue w same (xs ++ [x]) =
      if w x then byValue w same xs ++
        (xs.getLast?.toList.filter fun p => !(byValue w same xs).any (same p)) ++ [x]
      else byValue w same xs := by
  rw [byValue, byValueLoop_concat, Option.or_none]
  rfl

theorem noTwin_concat (xs : List α) (x : α) :
    NoTwin w same (xs ++ [x]) ↔ NoTwin w same xs ∧ (w x = true → ∀ p, xs.getLast? = some p →
      w p = false → ∀ q ∈ byPosition w xs, same p q = false) := by
  constructor
  · intro h
    constructor
    · intro i j p q hji hp hq hwp hnext hselected
      have hlt : i + 1 < xs.length := by
        by_contra hle
        rw [List.getElem?_eq_none (Nat.not_lt.mp hle)] at hnext
        cases hnext
      refine h i j p q hji ?_ ?_ hwp ?_ ?_
      · rw [List.getElem?_append_left (Nat.lt_of_succ_lt hlt), hp]
      · rw [List.getElem?_append_left (by omega), hq]
      · rw [List.getElem?_append_left hlt, hnext]
      · rw [selected_append_of_lt [x] (by omega), hselected]
    · intro hx p hlast hwp q hq
      obtain ⟨init, rfl⟩ := List.getLast?_eq_some_iff.mp hlast
      obtain ⟨j, hj, hselected⟩ := mem_byPosition.mp hq
      have hj' : j < init.length + 1 := by simpa using (List.getElem?_eq_some_iff.mp hj).1
      have hne : j ≠ init.length := fun heq => by
        -- the last element is not selected yet
        rw [heq, selected_concat_self, hwp] at hselected
        cases hselected
      have hlength : (init ++ [p]).length = init.length + 1 := by simp
      refine h init.length j p q (by omega) ?_ ?_ hwp ?_ ?_
      · rw [List.getElem?_append_left (by omega), List.getElem?_concat_length]
      · rw [List.getElem?_append_left (by omega), hj]
      · rw [← hlength, List.getElem?_concat_length, Option.any_some, hx]
      · rw [selected_append_of_lt [x] (by omega), hselected]
  · rintro ⟨hxs, hlast⟩ i j p q hji hp hq hwp hnext hselected
    by_cases hlt : i + 1 < xs.length
    · rw [List.getElem?_append_left (by omega)] at hp hq
      rw [List.getElem?_append_left hlt] at hnext
      rw [selected_append_of_lt [x] (by omega)] at hselected
      exact hxs i j p q hji hp hq hwp hnext hselected
    · have hi : i + 1 = xs.length := by
        by_contra hne
        rw [List.getElem?_eq_none (by simp; omega)] at hnext
        cases hnext
      rw [hi, List.getElem?_concat_length, Option.any_some] at hnext
      rw [List.getElem?_append_left (by omega)] at hp hq
      rw [selected_append_of_lt [x] (by omega)] at hselected
      have hlastp : xs.getLast? = some p := by
        rw [List.getLast?_eq_getElem?, ← hi, Nat.add_sub_cancel, hp]
      exact hlast hnext p hlastp hwp q (mem_byPosition.mpr ⟨j, hq, hselected⟩)

/-! ### By value and by position -/

/-- A marked element has been selected itself, so the loop does not select it again. -/
theorem before_of_marked {p : α} (hsame : same p p = true) (hlast : xs.getLast? = some p)
    (hp : w p = true) :
    (xs.getLast?.toList.filter fun p => !(byValue w same xs).any (same p)) = [] := by
  have hany : (byValue w same xs).any (same p) = true := by
    obtain ⟨init, rfl⟩ := List.getLast?_eq_some_iff.mp hlast
    rw [byValue_concat, if_pos hp]
    simp [hsame]
  rw [hlast, Option.toList_some, List.filter_cons_of_neg (by simp [hany]), List.filter_nil]

/-- The loop selects no element before a marked one that is not selected by position. -/
theorem before_sublist (hsame : ∀ x ∈ xs, same x x = true) :
    (xs.getLast?.toList.filter fun p => !(byValue w same xs).any (same p)).Sublist
      (xs.getLast?.toList.filter fun p => !w p) := by
  rcases hlast : xs.getLast? with - | p
  · exact List.Sublist.refl _
  · rcases hp : w p with - | -
    · have hkept : [p].filter (fun p => !w p) = [p] := by simp [hp]
      rw [Option.toList_some, hkept]
      exact List.filter_sublist
    · have hnil := before_of_marked (hsame p (List.mem_of_getLast? hlast)) hlast hp
      rw [hlast] at hnil
      rw [hnil]
      exact List.nil_sublist _

theorem length_byValue_le (xs : List α) : (∀ x ∈ xs, same x x = true) →
    (byValue w same xs).length ≤ (byPosition w xs).length := by
  induction xs using List.reverseRecOn with
  | nil => exact fun _ => Nat.le_refl 0
  | append_singleton xs x ih =>
    intro hsame
    obtain ⟨hxs, -⟩ := List.forall_mem_append.mp hsame
    have hle := ih hxs
    have hbefore := (before_sublist (w := w) hxs).length_le
    rw [byValue_concat, byPosition_concat]
    split
    · simp only [List.length_append]
      omega
    · exact hle

/-- **When the loop selects by position**: exactly if no element that is selected for its successor
alone looks like one selected before it. -/
theorem byValue_eq_iff (xs : List α) : (∀ x ∈ xs, same x x = true) →
    (byValue w same xs = byPosition w xs ↔ NoTwin w same xs) := by
  induction xs using List.reverseRecOn with
  | nil =>
    refine fun _ => iff_of_true rfl fun i j p q _ hp => ?_
    cases hp
  | append_singleton xs x ih =>
    intro hsame
    obtain ⟨hxs, -⟩ := List.forall_mem_append.mp hsame
    rw [byValue_concat, byPosition_concat, noTwin_concat, ← ih hxs]
    rcases hx : w x with - | -
    · simp
    · rw [if_pos rfl, if_pos rfl, List.append_left_inj]
      have hlength := length_byValue_le (w := w) xs hxs
      have hbefore := (before_sublist (w := w) hxs).length_le
      constructor
      · intro heq
        have htotal := congrArg List.length heq
        rw [List.length_append, List.length_append] at htotal
        obtain ⟨hkey, hlast⟩ := List.append_inj heq (by omega)
        refine ⟨hkey, fun _ p hp hwp q hq => ?_⟩
        have hkept : [p].filter (fun p => !w p) = [p] := by simp [hwp]
        rw [hp, Option.toList_some, hkept] at hlast
        have hmem : p ∈ [p].filter fun p => !(byValue w same xs).any (same p) := by
          rw [hlast]
          exact List.mem_cons_self
        have hnone := (List.mem_filter.mp hmem).2
        rw [hkey] at hnone
        simpa using List.any_eq_false.mp (by simpa using hnone) q hq
      · rintro ⟨hkey, hlast⟩
        rw [hkey]
        refine congrArg _ ?_
        rcases hp : xs.getLast? with - | p
        · rfl
        · rcases hwp : w p with - | -
          · have hnone : (byPosition w xs).any (same p) = false :=
              List.any_eq_false.mpr fun q hq => by simp [hlast rfl p hp hwp q hq]
            rw [Option.toList_some, List.filter_cons_of_pos (by simp [hnone]),
              List.filter_cons_of_pos (by simp [hwp])]
            rfl
          · have hnil := before_of_marked (hxs p (List.mem_of_getLast? hp)) hp hwp
            rw [hkey, hp] at hnil
            rw [hnil, Option.toList_some, List.filter_cons_of_neg (by simp [hwp]), List.filter_nil]

end Selection

end Neighbours

end ToolAgent
