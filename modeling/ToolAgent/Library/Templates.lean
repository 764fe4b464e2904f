import Mathlib.Data.List.Basic

/-!
# Templates for conversations

A template renders a list of messages as tokens, in a context that may change how the conversation
begins. It is *framed* when a conversation that goes on is rendered by going on: what it adds for
further messages depends on these messages only. What a rendering ends with when it asks for an
answer is its *opening*.

A writer who knows the framed parts need not render a conversation again to extend it. An answer
that completes the opening to the frame of a message leaves out at most the separator that follows
it.

## Main definitions

* `Framed` — a framed template
* `Exchange`, `conversation`, `written` — answers and what is said to them, and what a writer
  appends
* `leadingRun`, `trailingRun`, `afterLast` — common ends of two lists, and what follows the last hit

## Main results

* `Framed.render_conversation` — the conversation, extended exchange by exchange, as it is rendered
* `exists_drop_trailingRun`, `afterLast_append` — finding the common end and the separator in it
-/

namespace ToolAgent

namespace Template

variable {ω M τ : Type}

/-! ### Framed templates -/

/-- Nothing at the end of `ms` is joined with the beginning of `ns`. -/
def Apart (Joined : M → M → Prop) (ms ns : List M) : Prop :=
  ∀ x ∈ ms.getLast?, ∀ y ∈ ns.head?, ¬Joined x y

/-- The parts of a template that renders conversations frame by frame. Messages that are joined
share a frame, and only a message that is not `Plain` may change how the conversation begins. -/
structure Framed (render : ω → List M → Bool → List τ) (bare : ω) (Plain : M → Prop)
    (Joined : M → M → Prop) where
  system : List τ
  opening : List τ
  frames : List M → List τ
  opened : ∀ context ms, render context ms true = render context ms false ++ opening
  appended : ∀ context ms ns, ms ≠ [] → (∀ n ∈ ns, Plain n) → Apart Joined ms ns →
    render context (ms ++ ns) false = render context ms false ++ frames ns
  alone : ∀ ns, (∀ n ∈ ns, Plain n) → render bare ns false = system ++ frames ns

/-- An answer, with the tokens it was given in, and the messages that it was followed by. -/
structure Exchange (M τ : Type) where
  answer : M
  ids : List τ
  replies : List M

def conversation (ms : List M) (exchanges : List (Exchange M τ)) : List M :=
  ms ++ exchanges.flatMap fun e => e.answer :: e.replies

namespace Framed

variable {render : ω → List M → Bool → List τ} {bare : ω} {Plain : M → Prop}
  {Joined : M → M → Prop} (T : Framed render bare Plain Joined)

/-- The answer is a message whose frame is the opening, completed by its tokens and the separator,
and the messages around it are neither joined with it nor change the beginning. -/
structure Completes (separator : List τ) (e : Exchange M τ) : Prop where
  frame : T.frames [e.answer] = T.opening ++ e.ids ++ separator
  plain : ∀ n ∈ e.answer :: e.replies, Plain n
  before : ∀ m, ¬Joined m e.answer
  after : ∀ m, ¬Joined e.answer m

/-- What a writer appends for an exchange: the answer, and the replies up to the next opening. -/
def written (separator : List τ) (e : Exchange M τ) : List τ :=
  e.ids ++ (separator ++ T.frames e.replies ++ T.opening)

theorem render_exchange {separator : List τ} {e : Exchange M τ} (he : T.Completes separator e)
    (context : ω) {ms : List M} (hms : ms ≠ []) :
    render context (ms ++ e.answer :: e.replies) true =
      render context ms true ++ T.written separator e := by
  have hanswer : render context (ms ++ [e.answer]) false =
      render context ms false ++ T.frames [e.answer] := by
    refine T.appended context ms [e.answer] hms (fun n hn => ?_) fun x _ y hy => ?_
    · exact he.plain n (List.mem_cons.mpr (.inl (List.mem_singleton.mp hn)))
    · obtain rfl := Option.some.inj hy
      exact he.before x
  have hreplies : render context (ms ++ [e.answer] ++ e.replies) false =
      render context (ms ++ [e.answer]) false ++ T.frames e.replies := by
    refine T.appended context _ e.replies (by simp) (fun n hn => ?_) fun x hx y _ => ?_
    · exact he.plain n (List.mem_cons_of_mem _ hn)
    · rw [List.getLast?_concat] at hx
      obtain rfl := Option.some.inj hx
      exact he.after y
  rw [List.append_cons, T.opened, hreplies, hanswer, he.frame, T.opened, written]
  simp only [List.append_assoc]

/-- **Going on is rendering**: what a writer has after some exchanges is the rendering of the whole
conversation. -/
theorem render_conversation {separator : List τ} (context : ω) {ms : List M} (hms : ms ≠ [])
    {exchanges : List (Exchange M τ)} (h : ∀ e ∈ exchanges, T.Completes separator e) :
    render context (conversation ms exchanges) true =
      render context ms true ++ exchanges.flatMap (T.written separator) := by
  induction exchanges generalizing ms with
  | nil => simp [conversation]
  | cons e exchanges ih =>
    have hhead := T.render_exchange (h e List.mem_cons_self) context hms
    have hne : ms ++ e.answer :: e.replies ≠ [] := by simp
    have htail := ih hne fun e' he' => h e' (List.mem_cons_of_mem _ he')
    calc render context (conversation ms (e :: exchanges)) true
        = render context (conversation (ms ++ e.answer :: e.replies) exchanges) true := by
          simp [conversation]
      _ = render context ms true ++ (e :: exchanges).flatMap (T.written separator) := by
          rw [htail, hhead, List.flatMap_cons, List.append_assoc]

end Framed

/-! ### Finding the separator -/

section Runs

variable [DecidableEq τ]

/-- How far two lists agree. -/
def leadingRun : List τ → List τ → ℕ
  | x :: xs, y :: ys => if x = y then leadingRun xs ys + 1 else 0
  | _, _ => 0

/-- How far two lists agree, counted from their ends. -/
def trailingRun (xs ys : List τ) : ℕ := leadingRun xs.reverse ys.reverse

theorem le_leadingRun_append (common xs ys : List τ) :
    common.length ≤ leadingRun (common ++ xs) (common ++ ys) := by
  induction common with
  | nil => simp
  | cons c common ih => simpa [leadingRun] using ih

/-- The common end of two lists has every end that they share. -/
theorem exists_drop_trailingRun (xs ys common : List τ) :
    ∃ more, (xs ++ common).drop ((xs ++ common).length - trailingRun (xs ++ common) (ys ++ common)) =
      more ++ common := by
  have hlower : common.length ≤ trailingRun (xs ++ common) (ys ++ common) := by
    rw [trailingRun, List.reverse_append, List.reverse_append]
    simpa using le_leadingRun_append common.reverse xs.reverse ys.reverse
  refine ⟨xs.drop ((xs ++ common).length - trailingRun (xs ++ common) (ys ++ common)), ?_⟩
  refine List.drop_append_of_le_length ?_
  rw [List.length_append]
  omega

/-- What follows the last element that satisfies `p`. -/
def afterLast (p : τ → Bool) : List τ → Option (List τ)
  | [] => none
  | x :: xs =>
    match afterLast p xs with
    | some ys => some ys
    | none => if p x then some xs else none

omit [DecidableEq τ] in
theorem afterLast_eq_none {p : τ → Bool} {xs : List τ} (h : ∀ x ∈ xs, p x = false) :
    afterLast p xs = none := by
  induction xs with
  | nil => rfl
  | cons x xs ih =>
    rw [afterLast, ih fun y hy => h y (List.mem_cons_of_mem _ hy)]
    simp [h x List.mem_cons_self]

omit [DecidableEq τ] in
theorem afterLast_append {p : τ → Bool} (more : List τ) {close : τ} {rest : List τ}
    (hclose : p close = true) (hrest : ∀ x ∈ rest, p x = false) :
    afterLast p (more ++ close :: rest) = some rest := by
  induction more with
  | nil => simp [afterLast, afterLast_eq_none hrest, hclose]
  | cons x more ih => simp [afterLast, ih]

end Runs

end Template

end ToolAgent
