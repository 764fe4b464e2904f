import ToolAgent.Python.Dumps

/-!
# Text files and padded numbers

Reading a text file line by line, with the line endings that `open` translates, and the padded
decimal `f"{n:04d}"` that numbered files have in their names.

## Main results

* `readLines_flatMap` — lines that were written with a line feed are read back
* `format04d_injective` — different numbers have different padded texts
-/

namespace ToolAgent

namespace Python

/-! ### Lines -/

/-- A carriage return, with a line feed after it or not, is read as a line feed. -/
def universalNewlines : PyStr → PyStr
  | [] => []
  | [c] => [if c = ch '\r' then ch '\n' else c]
  | c :: d :: s =>
    if c = ch '\r' then
      if d = ch '\n' then universalNewlines (d :: s) else ch '\n' :: universalNewlines (d :: s)
    else c :: universalNewlines (d :: s)

/-- The lines, with their line feeds. -/
def splitLines : PyStr → List PyStr
  | [] => []
  | c :: s =>
    if c = ch '\n' then [c] :: splitLines s
    else
      match splitLines s with
      | [] => [[c]]
      | line :: lines => (c :: line) :: lines

/-- `for line in f`. -/
def readLines (content : PyStr) : List PyStr := splitLines (universalNewlines content)

theorem universalNewlines_eq_self : ∀ {s : PyStr}, ch '\r' ∉ s → universalNewlines s = s
  | [], _ => rfl
  | [c], h => by
    rw [universalNewlines, if_neg fun hc => h (List.mem_singleton.mpr hc.symm)]
  | c :: d :: s, h => by
    rw [List.mem_cons, not_or] at h
    rw [universalNewlines, if_neg fun hc => h.1 hc.symm, universalNewlines_eq_self h.2]

theorem splitLines_line {line : PyStr} (hline : ch '\n' ∉ line) (s : PyStr) :
    splitLines (line ++ ch '\n' :: s) = (line ++ [ch '\n']) :: splitLines s := by
  induction line with
  | nil => rw [List.nil_append, splitLines, if_pos rfl, List.nil_append]
  | cons c line ih =>
    rw [List.mem_cons, not_or] at hline
    rw [List.cons_append, splitLines, if_neg fun hc => hline.1 hc.symm, ih hline.2,
      List.cons_append]

/-- **Written lines are read back.** -/
theorem readLines_flatMap {α : Type} (f : α → PyStr) (rows : List α)
    (h : ∀ row ∈ rows, Printable (f row)) :
    readLines (rows.flatMap fun row => f row ++ [ch '\n']) =
      rows.map fun row => f row ++ [ch '\n'] := by
  have hcontrol : ∀ {c : ℕ} {s : PyStr}, Printable s → c < 32 → c ∉ s := by
    intro c s hs hc hmem
    have := hs c hmem
    omega
  have hreturn : ch '\r' ∉ rows.flatMap fun row => f row ++ [ch '\n'] := by
    rw [List.mem_flatMap]
    rintro ⟨row, hrow, hc⟩
    rcases List.mem_append.mp hc with hc | hc
    · exact hcontrol (h row hrow) (by decide) hc
    · exact absurd (List.mem_singleton.mp hc) (by decide)
  rw [readLines, universalNewlines_eq_self hreturn]
  clear hreturn
  induction rows with
  | nil => rfl
  | cons row rows ih =>
    obtain ⟨hrow, hrows⟩ := List.forall_mem_cons.mp h
    rw [List.flatMap_cons, List.append_assoc, List.singleton_append,
      splitLines_line (hcontrol hrow (by decide)), ih hrows, List.map_cons]

/-! ### Padded numbers -/

/-- `f"{n:04d}"`: zeros are put between the sign and the digits. -/
def format04d (n : ℤ) : PyStr :=
  let digits := natRepr n.natAbs
  if n < 0 then ch '-' :: (List.replicate (3 - digits.length) (ch '0') ++ digits)
  else List.replicate (4 - digits.length) (ch '0') ++ digits

theorem digitsValue_natRepr (n : ℕ) : digitsValue (natRepr n) = n := by
  rw [natRepr, digitsValue, List.foldl_map]
  exact Nat.ofDigitChars_ten_toDigits

theorem digitsValue_zeros (k : ℕ) (s : PyStr) :
    digitsValue (List.replicate k (ch '0') ++ s) = digitsValue s := by
  induction k with
  | zero => rfl
  | succ k ih => exact ih

theorem isDigit_of_mem_natRepr {n c : ℕ} (h : c ∈ natRepr n) : isDigit c = true := by
  obtain ⟨d, hd, rfl⟩ := List.mem_map.mp h
  have hdigit := Nat.isDigit_of_mem_toDigits (by omega) (by omega) hd
  rw [Char.isDigit_iff_toNat] at hdigit
  simpa [isDigit, ch] using hdigit

theorem isDigit_of_mem_padded {k n c : ℕ}
    (h : c ∈ List.replicate k (ch '0') ++ natRepr n) : isDigit c = true := by
  rcases List.mem_append.mp h with h | h
  · rw [List.eq_of_mem_replicate h]
    rfl
  · exact isDigit_of_mem_natRepr h

theorem of_mem_format04d {n : ℤ} {c : ℕ} (h : c ∈ format04d n) :
    c = ch '-' ∨ isDigit c = true := by
  rw [format04d] at h
  split at h
  · exact (List.mem_cons.mp h).imp_right isDigit_of_mem_padded
  · exact .inr (isDigit_of_mem_padded h)

/-- The sign and the digits of a padded number. -/
def parse04d (s : PyStr) : ℤ :=
  if s.head? = some (ch '-') then -digitsValue s.tail else digitsValue s

theorem parse04d_format04d (n : ℤ) : parse04d (format04d n) = n := by
  rw [format04d]
  split
  · next hneg =>
    rw [parse04d, List.head?_cons, if_pos rfl, List.tail_cons, digitsValue_zeros,
      digitsValue_natRepr]
    omega
  · next hnonneg =>
    rw [parse04d, if_neg, digitsValue_zeros, digitsValue_natRepr]
    · omega
    · intro hhead
      have hminus := isDigit_of_mem_padded (List.mem_of_head? hhead)
      exact absurd hminus (by decide)

theorem format04d_injective : Function.Injective format04d :=
  Function.LeftInverse.injective parse04d_format04d

end Python

end ToolAgent
