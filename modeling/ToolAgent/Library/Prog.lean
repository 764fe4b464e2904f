import Mathlib.Data.List.Basic

/-!
# Programs with state and exceptions

A `Prog ε σ α` reads and writes a state of type `σ`, and returns an `α` or raises an `ε`. What it
wrote before it raised stays written, as it does in a language with mutable objects.

`Returns m Q` is the judgment about results: whenever `m` returns, the result is in `Q`. It needs no
precondition, and a sequence inherits it from its last part. `Keeps m I` is the judgment about
states: `m` leaves a state in `I` in `I`, also when it raises.

## Main definitions

* `Prog` and its monad, `raise`, `attempt`, `ensure`, `finallyDo`, `forEach`, `zoom`
* `Returns`, `Keeps` — the judgments

## Main results

* `Returns.bind`, `Returns.bind_last`, `Returns.ensure` — the rules for results
* `Keeps.bind`, `Keeps.get_bind`, `Keeps.attempt`, `Keeps.forEach` — the rules for states
-/

namespace ToolAgent

/-- A program over a state that survives exceptions. -/
def Prog (ε σ α : Type) := σ → Except ε α × σ

namespace Prog

variable {ε σ τ α β : Type}

instance : Monad (Prog ε σ) where
  pure a := fun s => (.ok a, s)
  bind m f := fun s =>
    match m s with
    | (.ok a, s') => f a s'
    | (.error e, s') => (.error e, s')

def get : Prog ε σ σ := fun s => (.ok s, s)

def modify (f : σ → σ) : Prog ε σ Unit := fun s => (.ok (), f s)

def raise (e : ε) : Prog ε σ α := fun s => (.error e, s)

/-- A pure computation that may raise. -/
def lift (x : Except ε α) : Prog ε σ α := fun s => (x, s)

/-- `try: m except: handler`. -/
def attempt (m : Prog ε σ α) (handler : ε → Prog ε σ α) : Prog ε σ α := fun s =>
  match m s with
  | (.ok a, s') => (.ok a, s')
  | (.error e, s') => handler e s'

/-- `try: m finally: cleanup`, for a clean-up that cannot raise. -/
def ensure (m : Prog ε σ α) (cleanup : σ → σ) : Prog ε σ α := fun s => ((m s).1, cleanup (m s).2)

/-- `try: m finally: cleanup`. An exception of the clean-up replaces what `m` did. -/
def finallyDo (m : Prog ε σ α) (cleanup : Prog ε σ Unit) : Prog ε σ α := fun s =>
  match cleanup (m s).2 with
  | (.ok (), s') => ((m s).1, s')
  | (.error e, s') => (.error e, s')

/-- `for x in xs: body(x)`. -/
def forEach (body : α → Prog ε σ Unit) : List α → Prog ε σ Unit
  | [] => pure ()
  | x :: xs => do
    body x
    forEach body xs

/-- Run a program on a part of the state. -/
def zoom (get : σ → τ) (set : σ → τ → σ) (m : Prog ε τ α) : Prog ε σ α := fun s =>
  ((m (get s)).1, set s (m (get s)).2)

@[simp] theorem pure_run (a : α) (s : σ) : (pure a : Prog ε σ α) s = (.ok a, s) := rfl

theorem bind_run (m : Prog ε σ α) (f : α → Prog ε σ β) (s : σ) :
    (m >>= f) s = match m s with
      | (.ok a, s') => f a s'
      | (.error e, s') => (.error e, s') := rfl

theorem bind_run_of_ok {m : Prog ε σ α} {f : α → Prog ε σ β} {a : α} {s s₁ : σ}
    (h : m s = (.ok a, s₁)) : (m >>= f) s = f a s₁ := by
  rw [bind_run, h]

theorem bind_run_of_error {m : Prog ε σ α} {f : α → Prog ε σ β} {e : ε} {s s₁ : σ}
    (h : m s = (.error e, s₁)) : (m >>= f) s = (.error e, s₁) := by
  rw [bind_run, h]

/-- A sequence returns when both halves do. -/
theorem bind_run_ok {m : Prog ε σ α} {f : α → Prog ε σ β} {b : β} {s s' : σ} :
    (m >>= f) s = (.ok b, s') ↔ ∃ a s₁, m s = (.ok a, s₁) ∧ f a s₁ = (.ok b, s') := by
  rw [bind_run]
  rcases m s with ⟨e | a, s₁⟩
  · simp
  · constructor
    · intro h
      exact ⟨a, s₁, rfl, h⟩
    · rintro ⟨a', s₁', hm, hf⟩
      rw [Prod.mk.injEq, Except.ok.injEq] at hm
      obtain ⟨rfl, rfl⟩ := hm
      exact hf

theorem lift_run_ok {x : Except ε α} {a : α} {s s' : σ} :
    (lift x : Prog ε σ α) s = (.ok a, s') ↔ x = .ok a ∧ s = s' := by
  rw [lift, Prod.mk.injEq]

theorem get_bind_run (f : σ → Prog ε σ β) (s : σ) : (get >>= f) s = f s s := rfl

theorem modify_bind_run (g : σ → σ) (f : Unit → Prog ε σ β) (s : σ) :
    (modify g >>= f) s = f () (g s) := rfl

/-- A sequence that starts with a pure computation ends as `P` says when it does so in both
cases. -/
theorem lift_bind_cases {P : Except ε β × σ → Prop} {x : Except ε α} {f : α → Prog ε σ β} {s : σ}
    (herror : ∀ e, x = .error e → P (.error e, s)) (hok : ∀ a, x = .ok a → P (f a s)) :
    P ((lift x >>= f) s) := by
  rcases x with e | a
  · exact herror e rfl
  · exact hok a rfl

/-- What the clean-up leaves is left, whatever happened before. -/
theorem finallyDo_state (m : Prog ε σ α) (cleanup : Prog ε σ Unit) (s : σ) :
    (finallyDo m cleanup s).2 = (cleanup (m s).2).2 := by
  rw [finallyDo]
  rcases cleanup (m s).2 with ⟨e | -, s'⟩
  · rfl
  · rfl

/-! ### What a program returns -/

/-- Whenever `m` returns, from whatever state, the result is in `Q`. -/
def Returns (m : Prog ε σ α) (Q : α → Prop) : Prop := ∀ s a s', m s = (.ok a, s') → Q a

variable {Q : α → Prop} {R : β → Prop}

theorem Returns.pure {a : α} (h : Q a) : Returns (pure a : Prog ε σ α) Q := by
  intro s b s' hrun
  simp only [pure_run, Prod.mk.injEq, Except.ok.injEq] at hrun
  rw [← hrun.1]
  exact h

theorem Returns.raise {e : ε} : Returns (raise e : Prog ε σ α) Q := by
  intro s b s' hrun
  cases hrun

theorem Returns.bind {m : Prog ε σ α} {f : α → Prog ε σ β} (hm : Returns m Q)
    (hf : ∀ a, Q a → Returns (f a) R) : Returns (m >>= f) R := by
  intro s b s' hrun
  obtain ⟨a, s₁, hms, hrest⟩ := bind_run_ok.mp hrun
  exact hf a (hm s a s₁ hms) s₁ b s' hrest

/-- What is returned last is all that counts. -/
theorem Returns.bind_last {m : Prog ε σ α} {f : α → Prog ε σ β} (hf : ∀ a, Returns (f a) R) :
    Returns (m >>= f) R :=
  Returns.bind (fun _ _ _ _ => trivial) fun a (_ : True) => hf a

theorem Returns.ensure {m : Prog ε σ α} {cleanup : σ → σ} (hm : Returns m Q) :
    Returns (ensure m cleanup) Q := by
  intro s a s' hrun
  rw [Prog.ensure, Prod.mk.injEq] at hrun
  exact hm s a (m s).2 (Prod.ext hrun.1 rfl)

theorem Returns.mono {m : Prog ε σ α} {Q' : α → Prop} (hm : Returns m Q) (h : ∀ a, Q a → Q' a) :
    Returns m Q' := fun s a s' hrun => h a (hm s a s' hrun)

/-! ### What a program keeps -/

/-- Whether `m` returns or raises, it leaves a state in `I` in `I`. -/
def Keeps (m : Prog ε σ α) (I : σ → Prop) : Prop := ∀ s, I s → I (m s).2

variable {I : σ → Prop}

theorem Keeps.pure (a : α) : Keeps (pure a : Prog ε σ α) I := fun _ hs => hs

theorem Keeps.lift (x : Except ε α) : Keeps (lift x : Prog ε σ α) I := fun _ hs => hs

theorem Keeps.raise (e : ε) : Keeps (raise e : Prog ε σ α) I := fun _ hs => hs

theorem Keeps.zoom {get : σ → τ} {set : σ → τ → σ} (m : Prog ε τ α) (h : ∀ s t, I s → I (set s t)) :
    Keeps (zoom get set m) I := fun s hs => h s _ hs

theorem Keeps.modify {f : σ → σ} (hf : ∀ s, I s → I (f s)) : Keeps (modify f : Prog ε σ Unit) I :=
  hf

theorem Keeps.bind {m : Prog ε σ α} {f : α → Prog ε σ β} (hm : Keeps m I)
    (hf : ∀ a, Keeps (f a) I) : Keeps (m >>= f) I := by
  intro s hs
  have hms := hm s hs
  rcases hrun : m s with ⟨e | a, s₁⟩
  · rw [hrun] at hms
    rw [bind_run_of_error hrun]
    exact hms
  · rw [hrun] at hms
    rw [bind_run_of_ok hrun]
    exact hf a s₁ hms

/-- What follows knows what the first program has returned. -/
theorem Keeps.bind_returns {m : Prog ε σ α} {f : α → Prog ε σ β} (hm : Keeps m I)
    (hreturns : Returns m Q)
    (hf : ∀ a, Q a → Keeps (f a) I) : Keeps (m >>= f) I := by
  intro s hs
  have hms := hm s hs
  rcases hrun : m s with ⟨e | a, s₁⟩
  · rw [hrun] at hms
    rw [bind_run_of_error hrun]
    exact hms
  · rw [hrun] at hms
    rw [bind_run_of_ok hrun]
    exact hf a (hreturns s a s₁ hrun) s₁ hms

theorem Keeps.lift_bind {x : Except ε α} {f : α → Prog ε σ β}
    (hf : ∀ a, x = .ok a → Keeps (f a) I) :
    Keeps (Prog.lift x >>= f) I :=
  .bind_returns (.lift x) (fun _ _ _ hrun => (lift_run_ok.mp hrun).1) hf

/-- What follows `get` starts from the state that it has read. -/
theorem Keeps.get_bind {f : σ → Prog ε σ β} (hf : ∀ s, I s → I (f s s).2) :
    Keeps (get >>= f) I := hf

theorem Keeps.get : Keeps (get : Prog ε σ σ) I := fun _ hs => hs

theorem Keeps.attempt {m : Prog ε σ α} {handler : ε → Prog ε σ α} (hm : Keeps m I)
    (hh : ∀ e, Keeps (handler e) I) : Keeps (attempt m handler) I := by
  intro s hs
  have hms := hm s hs
  rw [Prog.attempt]
  rcases hrun : m s with ⟨e | a, s₁⟩
  · rw [hrun] at hms
    exact hh e s₁ hms
  · rw [hrun] at hms
    exact hms

theorem Keeps.forEach {body : α → Prog ε σ Unit} :
    ∀ xs : List α, (∀ x ∈ xs, Keeps (body x) I) → Keeps (forEach body xs) I
  | [], _ => .pure ()
  | x :: xs, h => .bind (h x List.mem_cons_self) fun _ =>
    Keeps.forEach xs fun y hy => h y (List.mem_cons_of_mem x hy)

end Prog

end ToolAgent
