import ToolAgent.Python.Json

/-!
# `json.dumps`

The encoder of CPython's `json` module with `ensure_ascii=False`, with and without `indent`. The
decimal text of a finite float is a parameter. `json.dump` writes the same text to a file, in
pieces.

## Main results

* `flatten_iterencode` — the pieces are those of the text
* `dumps_printable` — without `indent` the text has no control characters, so it is a single line
-/

namespace ToolAgent

namespace Python

/-- `str(n)`. -/
def natRepr (n : ℕ) : PyStr := (Nat.toDigits 10 n).map Char.toNat

def intRepr (n : ℤ) : PyStr := if n < 0 then ch '-' :: natRepr n.natAbs else natRepr n.natAbs

def hexChar (d : ℕ) : ℕ := if d < 10 then ch '0' + d else ch 'a' + (d - 10)

def escapeChar (c : ℕ) : PyStr :=
  if c = ch '"' then "\\\""
  else if c = ch '\\' then "\\\\"
  else if c = ch '\n' then "\\n"
  else if c = ch '\r' then "\\r"
  else if c = ch '\t' then "\\t"
  else if c = 8 then "\\b"
  else if c = 12 then "\\f"
  else if c < 32 then PyStr.ofString "\\u00" ++ [hexChar (c / 16), hexChar (c % 16)]
  else [c]

def quote (s : PyStr) : PyStr := ch '"' :: s.flatMap escapeChar ++ [ch '"']

/-- A line break and the indentation of `level`, if there is any. -/
def newline (indent : Option ℕ) (level : ℕ) : PyStr :=
  match indent with
  | none => []
  | some k => ch '\n' :: List.replicate (k * level) (ch ' ')

def itemSeparator (indent : Option ℕ) (level : ℕ) : PyStr :=
  match indent with
  | none => ", "
  | some _ => ch ',' :: newline indent level

section Dumps

variable (floatRepr : ℚ → PyStr) (indent : Option ℕ)

mutual

def dumps (level : ℕ) : PyVal → PyStr
  | .null => "null"
  | .bool b => if b then "true" else "false"
  | .int n => intRepr n
  | .float (.fin q) => floatRepr q
  | .float (.inf neg) => if neg then "-Infinity" else "Infinity"
  | .float .nan => "NaN"
  | .str s => quote s
  | .list xs =>
    if xs.isEmpty then "[]"
    else ch '[' :: newline indent (level + 1) ++ dumpsList (level + 1) xs ++ newline indent level ++
      [ch ']']
  | .dict items =>
    if items.isEmpty then "\x7b\x7d"
    else ch '{' :: newline indent (level + 1) ++ dumpsItems (level + 1) items ++
      newline indent level ++ [ch '}']

def dumpsList (level : ℕ) : List PyVal → PyStr
  | [] => []
  | x :: xs =>
    dumps level x ++ if xs.isEmpty then [] else itemSeparator indent level ++ dumpsList level xs

def dumpsItems (level : ℕ) : List (PyStr × PyVal) → PyStr
  | [] => []
  | (k, v) :: items =>
    quote k ++ PyStr.ofString ": " ++ dumps level v ++
      if items.isEmpty then [] else itemSeparator indent level ++ dumpsItems level items

end

end Dumps

/-! ### The pieces of a document -/

section Pieces

variable (floatRepr : ℚ → PyStr) (indent : ℕ)

/-- An item of a list behind what stands before it: one piece, unless the item is written in pieces
itself. -/
def behind (buf : PyStr) (pieces : List PyStr) : PyVal → List PyStr
  | .list _ | .dict _ => buf :: pieces
  | _ => [buf ++ pieces.flatten]

mutual

/-- What `_iterencode` yields for a value, with `indent`. -/
def iterencode (level : ℕ) : PyVal → List PyStr
  | .null => [dumps floatRepr (some indent) level .null]
  | .bool b => [dumps floatRepr (some indent) level (.bool b)]
  | .int n => [dumps floatRepr (some indent) level (.int n)]
  | .float x => [dumps floatRepr (some indent) level (.float x)]
  | .str s => [dumps floatRepr (some indent) level (.str s)]
  | .list xs =>
    if xs.isEmpty then ["[]"]
    else iterencodeList (level + 1) (ch '[' :: newline (some indent) (level + 1)) xs ++
      [newline (some indent) level, [ch ']']]
  | .dict items =>
    if items.isEmpty then ["\x7b\x7d"]
    else [ch '{'] :: newline (some indent) (level + 1) :: iterencodeItems (level + 1) items ++
      [newline (some indent) level, [ch '}']]

def iterencodeList (level : ℕ) (buf : PyStr) : List PyVal → List PyStr
  | [] => []
  | x :: xs =>
    behind buf (iterencode level x) x ++
      iterencodeList level (itemSeparator (some indent) level) xs

def iterencodeItems (level : ℕ) : List (PyStr × PyVal) → List PyStr
  | [] => []
  | (k, v) :: items =>
    quote k :: PyStr.ofString ": " :: iterencode level v ++
      if items.isEmpty then []
      else itemSeparator (some indent) level :: iterencodeItems level items

end

theorem flatten_behind (buf : PyStr) (pieces : List PyStr) (v : PyVal) :
    (behind buf pieces v).flatten = buf ++ pieces.flatten := by
  cases v <;> simp [behind]

mutual

/-- **The pieces of a document** make it up. -/
theorem flatten_iterencode (level : ℕ) : ∀ v : PyVal,
    (iterencode floatRepr indent level v).flatten = dumps floatRepr (some indent) level v
  | .null => by rw [iterencode, List.flatten_singleton]
  | .bool b => by rw [iterencode, List.flatten_singleton]
  | .int n => by rw [iterencode, List.flatten_singleton]
  | .float x => by rw [iterencode, List.flatten_singleton]
  | .str s => by rw [iterencode, List.flatten_singleton]
  | .list xs => by
    rw [iterencode, dumps]
    split
    · rfl
    · next hne =>
      rw [List.flatten_append, flatten_iterencodeList _ _ xs, if_neg hne]
      simp
  | .dict items => by
    rw [iterencode, dumps]
    split
    · rfl
    · simp [flatten_iterencodeItems (level + 1) items]

theorem flatten_iterencodeList (level : ℕ) (buf : PyStr) : ∀ xs : List PyVal,
    (iterencodeList floatRepr indent level buf xs).flatten =
      if xs.isEmpty then [] else buf ++ dumpsList floatRepr (some indent) level xs
  | [] => by rw [iterencodeList]; rfl
  | x :: xs => by
    rw [iterencodeList, dumpsList, List.flatten_append, flatten_behind, flatten_iterencode level x,
      flatten_iterencodeList _ _ xs]
    simp

theorem flatten_iterencodeItems (level : ℕ) : ∀ items : List (PyStr × PyVal),
    (iterencodeItems floatRepr indent level items).flatten =
      dumpsItems floatRepr (some indent) level items
  | [] => by rw [iterencodeItems, dumpsItems]; rfl
  | (k, v) :: items => by
    rw [iterencodeItems, dumpsItems]
    split <;> simp [flatten_iterencode level v, flatten_iterencodeItems level items]

end

end Pieces

/-! ### No control characters -/

/-- No code point below the blank. -/
def Printable (s : PyStr) : Prop := ∀ c ∈ s, 32 ≤ c

instance (s : PyStr) : Decidable (Printable s) := inferInstanceAs (Decidable (∀ c ∈ s, 32 ≤ c))

theorem Printable.nil : Printable [] := by simp [Printable]

theorem Printable.append {s t : PyStr} (hs : Printable s) (ht : Printable t) :
    Printable (s ++ t) :=
  fun c hc => (List.mem_append.mp hc).elim (hs c) (ht c)

theorem Printable.cons {c : ℕ} {s : PyStr} (hc : 32 ≤ c) (hs : Printable s) :
    Printable (c :: s) :=
  List.forall_mem_cons.mpr ⟨hc, hs⟩

theorem printable_natRepr (n : ℕ) : Printable (natRepr n) := by
  intro c hc
  obtain ⟨d, hd, rfl⟩ := List.mem_map.mp hc
  have hdigit := Nat.isDigit_of_mem_toDigits (by omega) (by omega) hd
  rw [Char.isDigit_iff_toNat] at hdigit
  have hzero : '0'.toNat = 48 := rfl
  omega

theorem printable_intRepr (n : ℤ) : Printable (intRepr n) := by
  rw [intRepr]
  split
  · exact .cons (by decide) (printable_natRepr _)
  · exact printable_natRepr _

theorem le_hexChar (d : ℕ) : 32 ≤ hexChar d := by
  have h0 : ch '0' = 48 := rfl
  have ha : ch 'a' = 97 := rfl
  rw [hexChar]
  split <;> omega

theorem printable_escapeChar (c : ℕ) : Printable (escapeChar c) := by
  have hhex : Printable (PyStr.ofString "\\u00" ++ [hexChar (c / 16), hexChar (c % 16)]) := by
    refine .append (by decide) ?_
    exact .cons (le_hexChar _) (.cons (le_hexChar _) .nil)
  unfold escapeChar
  split_ifs with h₁ h₂ h₃ h₄ h₅ h₆ h₇ h₈
  all_goals first
    | exact hhex
    | exact .cons (by omega) .nil
    | decide

theorem printable_quote (s : PyStr) : Printable (quote s) := by
  refine .append (.cons (by decide) fun c hc => ?_) (.cons (by decide) .nil)
  obtain ⟨d, -, hd⟩ := List.mem_flatMap.mp hc
  exact printable_escapeChar d c hd

section Printable

variable {floatRepr : ℚ → PyStr}

mutual

/-- **A single line.** -/
theorem dumps_printable (hfloat : ∀ q, Printable (floatRepr q)) (level : ℕ) :
    ∀ v : PyVal, Printable (dumps floatRepr none level v)
  | .null => by
    rw [dumps]
    decide
  | .bool b => by
    rw [dumps]
    split <;> decide
  | .int n => by
    rw [dumps]
    exact printable_intRepr n
  | .float (.fin q) => by
    rw [dumps]
    exact hfloat q
  | .float (.inf neg) => by
    rw [dumps]
    split <;> decide
  | .float .nan => by
    rw [dumps]
    decide
  | .str s => by
    rw [dumps]
    exact printable_quote s
  | .list xs => by
    rw [dumps]
    split
    · decide
    · exact .append (.append (.cons (by decide) (dumpsList_printable hfloat (level + 1) xs))
        (.nil)) (by decide)
  | .dict items => by
    rw [dumps]
    split
    · decide
    · exact .append (.append (.cons (by decide) (dumpsItems_printable hfloat (level + 1) items))
        (.nil)) (by decide)

theorem dumpsList_printable (hfloat : ∀ q, Printable (floatRepr q)) (level : ℕ) :
    ∀ xs : List PyVal, Printable (dumpsList floatRepr none level xs)
  | [] => by simp [dumpsList, Printable]
  | x :: xs => by
    rw [dumpsList]
    refine .append (dumps_printable hfloat level x) ?_
    split
    · exact .nil
    · exact .append (by rw [itemSeparator]; decide) (dumpsList_printable hfloat level xs)

theorem dumpsItems_printable (hfloat : ∀ q, Printable (floatRepr q)) (level : ℕ) :
    ∀ items : List (PyStr × PyVal), Printable (dumpsItems floatRepr none level items)
  | [] => by simp [dumpsItems, Printable]
  | (k, v) :: items => by
    rw [dumpsItems]
    refine .append (.append (.append (printable_quote k) (by decide))
      (dumps_printable hfloat level v)) ?_
    split
    · exact .nil
    · exact .append (by rw [itemSeparator]; decide)
        (dumpsItems_printable hfloat level items)

end

end Printable

end Python

end ToolAgent
