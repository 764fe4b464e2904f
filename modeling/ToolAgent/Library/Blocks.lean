import Mathlib.Data.List.Infix

/-!
# Delimited blocks

A text with blocks between an opening and a closing mark, as a search from left to right finds them
that looks for the shortest block: `re.findall` of `open(.*?)close` returns the blocks, and `re.sub`
with an empty replacement what stands outside of them.

A mark is *plain* if its first letter does not occur in it again. Two occurrences of a plain mark do
not overlap. A text then has one splitting only, in which no mark opens before a block and none
closes in it.

## Main definitions

* `breakOn` — the text before and behind the first occurrence of a mark
* `split`, `join` — the blocks of a text, each with the text before it, and the text that they come
  from

## Main results

* `join_split` — nothing is lost
* `split_eq_iff` — the splitting of a text
-/

namespace ToolAgent

namespace Blocks

variable {α : Type}

/-! ### The first occurrence -/

/-- The first letter does not occur again. -/
def Plain (mark : List α) : Prop := ∃ c t, mark = c :: t ∧ c ∉ t

theorem Plain.ne_nil {mark : List α} (h : Plain mark) : mark ≠ [] := by
  obtain ⟨c, t, rfl, -⟩ := h
  exact List.cons_ne_nil c t

/-- A plain mark behind a text in which it does not occur begins nowhere in that text. -/
theorem not_prefix_append {mark before : List α} (hmark : Plain mark) (hne : before ≠ [])
    (h : ¬mark <+: before) (after : List α) : ¬mark <+: before ++ (mark ++ after) := by
  obtain ⟨c, t, rfl, hc⟩ := hmark
  intro hbegins
  rcases List.prefix_or_prefix_of_prefix hbegins (List.prefix_append before _) with hle | hle
  · exact h hle
  · obtain ⟨d, before, rfl⟩ := List.exists_cons_of_ne_nil hne
    obtain ⟨rfl, t', rfl⟩ : d = c ∧ ∃ t', t = before ++ t' := by
      obtain ⟨t', ht'⟩ := hle
      rw [List.cons_append, List.cons.injEq] at ht'
      exact ⟨ht'.1, t', ht'.2.symm⟩
    rw [List.cons_append, List.cons_append, List.cons_prefix_cons, List.prefix_append_right_inj] at hbegins
    cases t' with
    | nil => exact h (by rw [List.append_nil])
    | cons e t' =>
      have heq : e = d := (List.cons_prefix_cons.mp hbegins.2).1
      exact hc (List.mem_append_right _ (heq ▸ List.mem_cons_self))

section Occurrence

variable [DecidableEq α]

def breakOn (mark : List α) : List α → Option (List α × List α)
  | [] => if mark = [] then some ([], []) else none
  | c :: s =>
    if mark.isPrefixOf (c :: s) then some ([], (c :: s).drop mark.length)
    else (breakOn mark s).map fun r => (c :: r.1, r.2)

theorem eq_append_of_breakOn {mark : List α} : ∀ {s before after : List α},
    breakOn mark s = some (before, after) → s = before ++ (mark ++ after)
  | [], before, after, h => by
    rw [breakOn] at h
    split at h
    · next hnil =>
      obtain ⟨rfl, rfl⟩ := Prod.mk.inj (Option.some.inj h)
      rw [hnil, List.append_nil, List.append_nil]
    · cases h
  | c :: s, before, after, h => by
    rw [breakOn] at h
    split at h
    · next hbegins =>
      obtain ⟨rfl, rfl⟩ := Prod.mk.inj (Option.some.inj h)
      obtain ⟨t, ht⟩ := List.isPrefixOf_iff_prefix.mp hbegins
      rw [List.nil_append, ← ht, List.drop_left]
    · obtain ⟨⟨before', after'⟩, hs, heq⟩ := Option.map_eq_some_iff.mp h
      obtain ⟨rfl, rfl⟩ := Prod.mk.inj heq
      rw [List.cons_append, ← eq_append_of_breakOn hs]

theorem breakOn_eq_none_iff {mark : List α} : ∀ {s : List α}, breakOn mark s = none ↔ ¬mark <:+: s
  | [] => by
    rw [breakOn, List.infix_nil]
    split <;> simp [*]
  | c :: s => by
    rw [breakOn, List.infix_cons_iff, not_or, ← List.isPrefixOf_iff_prefix, ← breakOn_eq_none_iff]
    split <;> simp [*]

/-- **The first occurrence of a plain mark.** -/
theorem breakOn_eq_some_iff {mark : List α} (hmark : Plain mark) {s before after : List α} :
    breakOn mark s = some (before, after) ↔ s = before ++ (mark ++ after) ∧ ¬mark <:+: before := by
  constructor
  · intro h
    refine ⟨eq_append_of_breakOn h, ?_⟩
    induction s generalizing before with
    | nil =>
      rw [breakOn, if_neg hmark.ne_nil] at h
      cases h
    | cons c s ih =>
      rw [breakOn] at h
      split at h
      · rw [← (Prod.mk.inj (Option.some.inj h)).1, List.infix_nil]
        exact hmark.ne_nil
      · next hbegins =>
        obtain ⟨⟨before', after'⟩, hs, heq⟩ := Option.map_eq_some_iff.mp h
        obtain ⟨rfl, rfl⟩ := Prod.mk.inj heq
        rw [List.infix_cons_iff, not_or]
        refine ⟨fun hle => hbegins (List.isPrefixOf_iff_prefix.mpr ?_), ih hs⟩
        rw [eq_append_of_breakOn hs, ← List.cons_append]
        exact hle.trans (List.prefix_append _ _)
  · rintro ⟨rfl, h⟩
    induction before with
    | nil =>
      obtain ⟨c, t, rfl, -⟩ := hmark
      rw [List.nil_append, List.cons_append, breakOn, if_pos (by simp), ← List.cons_append,
        List.drop_left]
    | cons c before ih =>
      rw [List.infix_cons_iff, not_or] at h
      have hnot := not_prefix_append hmark (List.cons_ne_nil c before) h.1 after
      rw [List.cons_append] at hnot ⊢
      rw [breakOn, if_neg fun hle => hnot (List.isPrefixOf_iff_prefix.mp hle), ih h.2]
      rfl

end Occurrence

/-! ### Splitting and joining -/

variable (opening closing : List α)

/-- The text of a splitting. -/
def join : List (List α × List α) → List α → List α
  | [], rest => rest
  | (before, block) :: blocks, rest => before ++ (opening ++ (block ++ (closing ++ join blocks rest)))

/-- No block opens in the text before a block, none ends inside, and none is left. -/
structure Canonical (blocks : List (List α × List α)) (rest : List α) : Prop where
  before : ∀ b ∈ blocks, ¬opening <:+: b.1
  block : ∀ b ∈ blocks, ¬closing <:+: b.2
  rest : ∀ before s, rest = before ++ (opening ++ s) → ¬closing <:+: s

section Split

variable [DecidableEq α]

/-- The splitting of a text, with at most as many blocks as the fuel allows. -/
def splitFuel : ℕ → List α → List (List α × List α) × List α
  | 0, s => ([], s)
  | n + 1, s =>
    match breakOn opening s with
    | none => ([], s)
    | some (before, s') =>
      match breakOn closing s' with
      | none => ([], s)
      | some (block, s'') => ((before, block) :: (splitFuel n s'').1, (splitFuel n s'').2)

/-- Every block, with the text before it, and the text behind the last one. -/
def split (s : List α) : List (List α × List α) × List α := splitFuel opening closing s.length s

end Split

variable {opening closing}

/-- The first opening mark decides whether there is a block. -/
theorem canonical_nil {before s : List α} (hopening : Plain opening)
    (hbefore : ¬opening <:+: before)
    (hs : ¬closing <:+: s) : Canonical opening closing [] (before ++ (opening ++ s)) := by
  refine ⟨fun b hb => absurd hb List.not_mem_nil, fun b hb => absurd hb List.not_mem_nil, ?_⟩
  intro before' s' heq hoccurs
  rcases List.append_eq_append_iff.mp heq with ⟨x, -, hx⟩ | ⟨x, hx, heq'⟩
  · -- the mark is the first one or stands behind it
    refine hs (hoccurs.trans (List.IsSuffix.isInfix ?_))
    have hle : s'.length ≤ s.length := by
      have hlength := congrArg List.length hx
      simp only [List.length_append] at hlength
      omega
    have hsuffix : s' <:+ opening ++ s :=
      hx ▸ (List.suffix_append opening s').trans (List.suffix_append x _)
    exact List.suffix_of_suffix_length_le hsuffix (List.suffix_append opening s) hle
  · -- it would begin in the text before the first one
    rcases List.eq_nil_or_concat x with rfl | hne
    · rw [List.nil_append, List.append_cancel_left_eq] at heq'
      exact hs (heq' ▸ hoccurs)
    · have hnot : ¬opening <+: x :=
        fun hle => hbefore (hx ▸ (hle.isInfix.trans (List.suffix_append _ x).isInfix))
      have hne : x ≠ [] := by
        rintro rfl
        obtain ⟨l, c, hlc⟩ := hne
        simp at hlc
      exact not_prefix_append hopening hne hnot s (heq' ▸ List.prefix_append opening s')

theorem length_lt_join (hopening : Plain opening) (blocks : List (List α × List α))
    (rest : List α) :
    blocks.length ≤ (join opening closing blocks rest).length := by
  induction blocks with
  | nil => exact Nat.zero_le _
  | cons b blocks ih =>
    have hpos := List.length_pos_iff.mpr hopening.ne_nil
    simp only [join, List.length_append, List.length_cons]
    omega

theorem infix_of_mem_join {blocks : List (List α × List α)} {b : List α × List α} (hb : b ∈ blocks)
    (rest : List α) :
    opening ++ b.2 ++ closing <:+: join opening closing blocks rest := by
  induction blocks with
  | nil => cases hb
  | cons b' blocks ih =>
    rcases List.mem_cons.mp hb with rfl | hb
    · exact ⟨b.1, join opening closing blocks rest, by simp only [join, List.append_assoc]⟩
    · refine (ih hb).trans (List.IsSuffix.isInfix ?_)
      rw [join, ← List.append_assoc, ← List.append_assoc, ← List.append_assoc]
      exact List.suffix_append _ _

variable [DecidableEq α]

theorem join_splitFuel (n : ℕ) (s : List α) :
    join opening closing (splitFuel opening closing n s).1 (splitFuel opening closing n s).2 =
      s := by
  induction n generalizing s with
  | zero => rfl
  | succ n ih =>
    rw [splitFuel]
    split
    · rfl
    · next before s' hopen =>
      split
      · rfl
      · next block s'' hclose =>
        rw [join, ih, ← eq_append_of_breakOn hclose, ← eq_append_of_breakOn hopen]

theorem canonical_splitFuel (hopening : Plain opening) (hclosing : Plain closing) {n : ℕ}
    {s : List α}
    (hn : s.length ≤ n) :
    Canonical opening closing (splitFuel opening closing n s).1
      (splitFuel opening closing n s).2 := by
  have hdone (s : List α) (h : breakOn opening s = none) : Canonical opening closing [] s := by
    refine ⟨fun b hb => absurd hb List.not_mem_nil, fun b hb => absurd hb List.not_mem_nil, ?_⟩
    intro before s' heq
    rw [breakOn_eq_none_iff] at h
    exact absurd ⟨before, s', by rw [heq, List.append_assoc]⟩ h
  induction n generalizing s with
  | zero =>
    obtain rfl := List.length_eq_zero_iff.mp (Nat.le_zero.mp hn)
    refine hdone [] (breakOn_eq_none_iff.mpr fun h => hopening.ne_nil (List.infix_nil.mp h))
  | succ n ih =>
    rw [splitFuel]
    split
    · next hopen => exact hdone s hopen
    · next before s' hopen =>
      obtain ⟨heq, hbefore⟩ := (breakOn_eq_some_iff hopening).mp hopen
      split
      · next hclose => exact heq ▸ canonical_nil hopening hbefore (breakOn_eq_none_iff.mp hclose)
      · next block s'' hclose =>
        obtain ⟨heq', hblock⟩ := (breakOn_eq_some_iff hclosing).mp hclose
        have hpos := List.length_pos_iff.mpr hopening.ne_nil
        have hlength : s''.length ≤ n := by
          rw [heq, heq'] at hn
          simp only [List.length_append] at hn
          omega
        have hrest := ih hlength
        exact ⟨List.forall_mem_cons.mpr ⟨hbefore, hrest.before⟩, List.forall_mem_cons.mpr ⟨hblock, hrest.block⟩,
          hrest.rest⟩

theorem splitFuel_join (hopening : Plain opening) (hclosing : Plain closing)
    {blocks : List (List α × List α)}
    {rest : List α} (h : Canonical opening closing blocks rest) {n : ℕ} (hn : blocks.length ≤ n) :
    splitFuel opening closing n (join opening closing blocks rest) = (blocks, rest) := by
  induction blocks generalizing n with
  | nil =>
    rw [join]
    cases n with
    | zero => rfl
    | succ n =>
      rw [splitFuel]
      split
      · rfl
      · next before s hopen =>
        rw [breakOn_eq_none_iff.mpr (h.rest before s (eq_append_of_breakOn hopen))]
  | cons b blocks ih =>
    obtain ⟨before, block⟩ := b
    cases n with
    | zero => exact absurd hn (Nat.not_succ_le_zero _)
    | succ n =>
      have hbefore := h.before _ List.mem_cons_self
      have hblock := h.block _ List.mem_cons_self
      have hrest : Canonical opening closing blocks rest :=
        ⟨fun b hb => h.before b (List.mem_cons_of_mem _ hb),
          fun b hb => h.block b (List.mem_cons_of_mem _ hb), h.rest⟩
      have hopen (after : List α) : breakOn opening (before ++ (opening ++ after)) =
          some (before, after) :=
        (breakOn_eq_some_iff hopening).mpr ⟨rfl, hbefore⟩
      have hclose (after : List α) : breakOn closing (block ++ (closing ++ after)) =
          some (block, after) :=
        (breakOn_eq_some_iff hclosing).mpr ⟨rfl, hblock⟩
      simp only [splitFuel, join, hopen, hclose, ih hrest (Nat.le_of_succ_le_succ hn)]

/-- **Nothing is lost.** -/
theorem join_split (s : List α) :
    join opening closing (split opening closing s).1 (split opening closing s).2 = s :=
  join_splitFuel _ s

/-- **The splitting of a text.** -/
theorem split_eq_iff (hopening : Plain opening) (hclosing : Plain closing) {s rest : List α}
    {blocks : List (List α × List α)} :
    split opening closing s = (blocks, rest) ↔
      s = join opening closing blocks rest ∧ Canonical opening closing blocks rest := by
  constructor
  · intro h
    have hjoin : join opening closing (split opening closing s).1 (split opening closing s).2 = s :=
      join_split s
    have hcanonical : Canonical opening closing (split opening closing s).1
        (split opening closing s).2 :=
      canonical_splitFuel hopening hclosing le_rfl
    rw [h] at hjoin hcanonical
    exact ⟨hjoin.symm, hcanonical⟩
  · rintro ⟨rfl, h⟩
    exact splitFuel_join hopening hclosing h (length_lt_join hopening blocks rest)

/-- A block stands in the text with its marks. -/
theorem infix_of_mem_split {s : List α} {b : List α × List α}
    (hb : b ∈ (split opening closing s).1) :
    opening ++ b.2 ++ closing <:+: s := by
  have hoccurs : opening ++ b.2 ++ closing <:+: join opening closing (split opening closing s).1
      (split opening closing s).2 := infix_of_mem_join hb _
  rwa [join_split] at hoccurs

end Blocks

end ToolAgent
