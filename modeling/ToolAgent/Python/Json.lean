import ToolAgent.Python.Value

/-!
# `json.loads`

The decoder of CPython's `json` module, as far as its result goes: which texts it accepts, the
value it returns, and the class of the exception it raises otherwise. The position suffix of a
`JSONDecodeError` message is left out.

The decoder is more liberal than the JSON grammar and stricter in two places, and programs that
catch only `JSONDecodeError` meet both:

* `NaN`, `Infinity` and `-Infinity` are accepted, and a float literal may overflow to an infinity;
* an integer literal of more than `maxStrDigits` digits raises a plain `ValueError`;
* every nested container costs a level of the interpreter's recursion, so deep nesting raises
  `RecursionError`. The levels left are the argument `depth`.

## Fuel

The scanner is structurally recursive on a fuel argument, which lets it be evaluated by
reduction. `loads` supplies twice the length of the text, and `scan_fuelled` shows that this
is always enough.

## Main results

* `scan_consumes`, `scan_fuelled` — a scanned value consumes text, and the fuel is enough
* `loads_error_cls` — what `json.loads` can raise
-/

namespace ToolAgent

namespace Python

/-- The code point of a character. -/
abbrev ch (c : Char) : ℕ := c.toNat

/-- How the scanner can fail: a `JSONDecodeError`, an integer literal that is too long, a nesting
that is too deep, or the model's own fuel. -/
inductive ScanError where
  | decode (msg : String)
  | digits
  | recursion
  | fuel

/-- `sys.int_info.default_max_str_digits`. -/
def maxStrDigits : ℕ := 4300

/-! ### Lexical level -/

def isWs (c : ℕ) : Bool := c = ch ' ' || c = ch '\t' || c = ch '\n' || c = ch '\r'

def skipWs (s : PyStr) : PyStr := s.dropWhile isWs

def isDigit (c : ℕ) : Bool := ch '0' ≤ c && c ≤ ch '9'

/-- The value of a run of decimal digits. -/
def digitsValue (ds : PyStr) : ℕ := ds.foldl (fun n c => 10 * n + (c - ch '0')) 0

def hexDigit (c : ℕ) : Option ℕ :=
  if isDigit c then some (c - ch '0')
  else if ch 'a' ≤ c ∧ c ≤ ch 'f' then some (c - ch 'a' + 10)
  else if ch 'A' ≤ c ∧ c ≤ ch 'F' then some (c - ch 'A' + 10)
  else none

/-- Four hexadecimal digits. -/
def hex4 : PyStr → Option (ℕ × PyStr)
  | a :: b :: c :: d :: rest => do
    let a ← hexDigit a
    let b ← hexDigit b
    let c ← hexDigit c
    let d ← hexDigit d
    some (((a * 16 + b) * 16 + c) * 16 + d, rest)
  | _ => none

def isHighSurrogate (c : ℕ) : Bool := 0xD800 ≤ c && c ≤ 0xDBFF

def isLowSurrogate (c : ℕ) : Bool := 0xDC00 ≤ c && c ≤ 0xDFFF

/-- The low half of a surrogate pair, when the text goes on with an escaped one. -/
def lowSurrogate? : PyStr → Option (ℕ × PyStr)
  | a :: b :: rest =>
    if a = ch '\\' ∧ b = ch 'u' then
      match hex4 rest with
      | some (c, rest) => if isLowSurrogate c then some (c, rest) else none
      | none => none
    else none
  | _ => none

/-- The characters a one-letter escape stands for. -/
def simpleEscape (c : ℕ) : Option ℕ :=
  [(ch '"', ch '"'), (ch '\\', ch '\\'), (ch '/', ch '/'), (ch 'b', 8), (ch 'f', 12),
    (ch 'n', 10), (ch 'r', 13), (ch 't', 9)].lookup c

/-- The text after a backslash: the code point it denotes, and what follows. A high surrogate
joins with an escaped low surrogate right behind it and stays alone otherwise. -/
def scanEscape : PyStr → Except ScanError (ℕ × PyStr)
  | [] => .error (.decode "Unterminated string starting at")
  | c :: rest =>
    if c = ch 'u' then
      match hex4 rest with
      | none => .error (.decode "Invalid \\uXXXX escape")
      | some (u, rest) =>
        if isHighSurrogate u then
          match lowSurrogate? rest with
          | some (l, rest) => .ok (0x10000 + (u - 0xD800) * 0x400 + (l - 0xDC00), rest)
          | none => .ok (u, rest)
        else .ok (u, rest)
    else
      match simpleEscape c with
      | some e => .ok (e, rest)
      | none => .error (.decode "Invalid \\escape")

/-- The text after an opening quote: the string up to the closing quote, and what follows. -/
def scanString : ℕ → PyStr → Except ScanError (PyStr × PyStr)
  | 0, _ => .error .fuel
  | _ + 1, [] => .error (.decode "Unterminated string starting at")
  | n + 1, c :: rest =>
    if c = ch '"' then .ok ([], rest)
    else if c = ch '\\' then
      match scanEscape rest with
      | .error e => .error e
      | .ok (d, rest) => (scanString n rest).map fun r => (d :: r.1, r.2)
    else if c ≤ 0x1F then .error (.decode "Invalid control character at")
    else (scanString n rest).map fun r => (c :: r.1, r.2)

/-! ### Numbers -/

/-- The fraction of a number: a dot with at least one digit behind it. -/
def scanFrac : PyStr → PyStr × PyStr
  | c :: rest =>
    if c = ch '.' ∧ (rest.takeWhile isDigit) ≠ [] then
      (rest.takeWhile isDigit, rest.dropWhile isDigit)
    else ([], c :: rest)
  | [] => ([], [])

/-- The digits of an exponent behind its sign, if there are any. -/
def scanExpDigits (sign : ℤ) (rest : PyStr) : Option (ℤ × PyStr) :=
  if rest.takeWhile isDigit = [] then none
  else some (sign * digitsValue (rest.takeWhile isDigit), rest.dropWhile isDigit)

/-- The exponent of a number, if there is one. -/
def scanExp : PyStr → Option (ℤ × PyStr)
  | e :: rest =>
    if e = ch 'e' ∨ e = ch 'E' then
      match rest with
      | s :: rest' =>
        if s = ch '+' then scanExpDigits 1 rest'
        else if s = ch '-' then scanExpDigits (-1) rest'
        else scanExpDigits 1 rest
      | [] => none
    else none
  | [] => none

/-- The integer part of a number. A leading zero stands alone. -/
def scanInt (s : PyStr) : PyStr :=
  match s.takeWhile isDigit with
  | [] => []
  | d :: ds => if d = ch '0' then [d] else d :: ds

/-- A number behind its sign: an `int` when it has neither fraction nor exponent. -/
def scanUnsigned (sign : ℤ) (s : PyStr) : Except ScanError (PyVal × PyStr) :=
  let int := scanInt s
  let frac := scanFrac (s.drop int.length)
  let exp := (scanExp frac.2).getD (0, frac.2)
  if int = [] then .error (.decode "Expecting value")
  else if frac.1 = [] ∧ scanExp frac.2 = none then
    if maxStrDigits < int.length then .error .digits
    else .ok (.int (sign * digitsValue int), frac.2)
  else
    .ok (.float (.ofRat (sign * digitsValue (int ++ frac.1) * 10 ^ (exp.1 - frac.1.length))), exp.2)

def scanNumber : PyStr → Except ScanError (PyVal × PyStr)
  | [] => .error (.decode "Expecting value")
  | c :: rest => if c = ch '-' then scanUnsigned (-1) rest else scanUnsigned 1 (c :: rest)

/-- The literal names. -/
def literals : List (PyStr × PyVal) :=
  [("null", .null), ("true", .bool true), ("false", .bool false), ("NaN", .float .nan),
    ("Infinity", .float (.inf false)), ("-Infinity", .float (.inf true))]

def scanLiteral (s : PyStr) : Option (PyVal × PyStr) :=
  (literals.find? fun l => l.1.isPrefixOf s).map fun l => (l.2, s.drop l.1.length)

/-! ### Containers -/

mutual

/-- One value at the head of the text, and what follows it. -/
def scanOnce : ℕ → ℕ → PyStr → Except ScanError (PyVal × PyStr)
  | 0, _, _ => .error .fuel
  | _ + 1, _, [] => .error (.decode "Expecting value")
  | n + 1, depth, c :: rest =>
    if c = ch '"' then (scanString (rest.length + 1) rest).map fun r => (.str r.1, r.2)
    else if c = ch '{' then
      match depth with
      | 0 => .error .recursion
      | depth + 1 =>
        if (skipWs rest).head? = some (ch '}') then .ok (.dict [], (skipWs rest).tail)
        else (parseMembers n depth [] (skipWs rest)).map fun r => (.dict r.1, r.2)
    else if c = ch '[' then
      match depth with
      | 0 => .error .recursion
      | depth + 1 =>
        if (skipWs rest).head? = some (ch ']') then .ok (.list [], (skipWs rest).tail)
        else (parseElements n depth [] (skipWs rest)).map fun r => (.list r.1, r.2)
    else
      match scanLiteral (c :: rest) with
      | some r => .ok r
      | none => scanNumber (c :: rest)

/-- The members of an object, up to the closing brace. A repeated key keeps its first place and
its last value. -/
def parseMembers : ℕ → ℕ → List (PyStr × PyVal) → PyStr →
    Except ScanError (List (PyStr × PyVal) × PyStr)
  | 0, _, _, _ => .error .fuel
  | _ + 1, _, _, [] => .error (.decode "Expecting property name enclosed in double quotes")
  | n + 1, depth, acc, c :: rest =>
    if c = ch '"' then
      match scanString (rest.length + 1) rest with
      | .error e => .error e
      | .ok (k, rest) =>
        match skipWs rest with
        | [] => .error (.decode "Expecting ':' delimiter")
        | c :: rest =>
          if c = ch ':' then
            match scanOnce n depth (skipWs rest) with
            | .error e => .error e
            | .ok (v, rest) =>
              match skipWs rest with
              | [] => .error (.decode "Expecting ',' delimiter")
              | c :: rest =>
                if c = ch '}' then .ok (dictSet acc k v, rest)
                else if c = ch ',' then parseMembers n depth (dictSet acc k v) (skipWs rest)
                else .error (.decode "Expecting ',' delimiter")
          else .error (.decode "Expecting ':' delimiter")
    else .error (.decode "Expecting property name enclosed in double quotes")

/-- The elements of an array, up to the closing bracket. -/
def parseElements : ℕ → ℕ → List PyVal → PyStr → Except ScanError (List PyVal × PyStr)
  | 0, _, _, _ => .error .fuel
  | n + 1, depth, acc, s =>
    match scanOnce n depth s with
    | .error e => .error e
    | .ok (v, rest) =>
      match skipWs rest with
      | [] => .error (.decode "Expecting ',' delimiter")
      | c :: rest =>
        if c = ch ']' then .ok (acc ++ [v], rest)
        else if c = ch ',' then parseElements n depth (acc ++ [v]) (skipWs rest)
        else .error (.decode "Expecting ',' delimiter")

end

/-- The exception a scanner failure surfaces as. -/
def ScanError.toPyErr : ScanError → PyErr
  | .decode msg => ⟨.jsonDecodeError, msg⟩
  | .digits => ⟨.valueError, "Exceeds the limit (4300 digits) for integer string conversion"⟩
  | .recursion => ⟨.recursionError, "maximum recursion depth exceeded"⟩
  | .fuel => ⟨.exception, "out of fuel"⟩

/-- `json.loads(s)` with `depth` levels of recursion left. -/
def loads (depth : ℕ) (s : PyStr) : Except PyErr PyVal :=
  if s.head? = some 0xFEFF then
    throw .jsonDecodeError "Unexpected UTF-8 BOM (decode using utf-8-sig)"
  else
    match scanOnce (2 * s.length + 1) depth (skipWs s) with
    | .error e => .error e.toPyErr
    | .ok (v, rest) => if skipWs rest = [] then .ok v else throw .jsonDecodeError "Extra data"

/-! ### A scanned value consumes text -/

theorem skipWs_length_le (s : PyStr) : (skipWs s).length ≤ s.length :=
  (List.dropWhile_sublist isWs).length_le

theorem hex4_length {s rest : PyStr} {u : ℕ} (h : hex4 s = some (u, rest)) :
    rest.length < s.length := by
  match s with
  | [] | [_] | [_, _] | [_, _, _] => simp [hex4] at h
  | a :: b :: c :: d :: t =>
    simp only [hex4, Option.bind_eq_bind, Option.bind_eq_some_iff, Option.some.injEq,
      Prod.mk.injEq] at h
    obtain ⟨_, _, _, _, _, _, _, _, _, rfl⟩ := h
    simp only [List.length_cons]
    omega

theorem lowSurrogate?_length {s rest : PyStr} {l : ℕ} (h : lowSurrogate? s = some (l, rest)) :
    rest.length < s.length := by
  match s with
  | [] | [_] => simp [lowSurrogate?] at h
  | a :: b :: t =>
    simp only [lowSurrogate?] at h
    split at h
    · split at h
      · rename_i c r hr
        have := hex4_length hr
        split at h
        · simp only [Option.some.injEq, Prod.mk.injEq] at h
          obtain ⟨-, rfl⟩ := h
          simp only [List.length_cons]
          omega
        · cases h
      · cases h
    · cases h

theorem scanEscape_length {s rest : PyStr} {c : ℕ} (h : scanEscape s = .ok (c, rest)) :
    rest.length < s.length := by
  match s with
  | [] => simp [scanEscape] at h
  | d :: t =>
    simp only [scanEscape] at h
    split at h
    · split at h
      · cases h
      · rename_i u r hr
        have hlt := hex4_length hr
        split at h
        · split at h
          · rename_i l r' hl
            have := lowSurrogate?_length hl
            simp only [Except.ok.injEq, Prod.mk.injEq] at h
            obtain ⟨-, rfl⟩ := h
            simp only [List.length_cons]
            omega
          · simp only [Except.ok.injEq, Prod.mk.injEq] at h
            obtain ⟨-, rfl⟩ := h
            simp only [List.length_cons]
            omega
        · simp only [Except.ok.injEq, Prod.mk.injEq] at h
          obtain ⟨-, rfl⟩ := h
          simp only [List.length_cons]
          omega
    · split at h
      · simp only [Except.ok.injEq, Prod.mk.injEq] at h
        obtain ⟨-, rfl⟩ := h
        simp
      · cases h

theorem scanString_length : ∀ {n : ℕ} {s t rest : PyStr}, scanString n s = .ok (t, rest) →
    rest.length < s.length := by
  intro n
  induction n with
  | zero => intro s t rest h; simp [scanString] at h
  | succ n ih =>
    intro s t rest h
    match s with
    | [] => simp [scanString] at h
    | c :: s =>
      simp only [scanString] at h
      split at h
      · simp only [Except.ok.injEq, Prod.mk.injEq] at h
        simp [h.2]
      · split at h
        · split at h
          · cases h
          · rename_i d r hr
            obtain ⟨⟨t', r'⟩, hs, heq⟩ := map_eq_ok.mp h
            simp only [Prod.mk.injEq] at heq
            have h1 := scanEscape_length hr
            have h2 := ih hs
            rw [← heq.2, List.length_cons]
            omega
        · split at h
          · cases h
          · obtain ⟨⟨t', r'⟩, hs, heq⟩ := map_eq_ok.mp h
            simp only [Prod.mk.injEq] at heq
            have h2 := ih hs
            rw [← heq.2, List.length_cons]
            omega

theorem scanString_ne_fuel : ∀ {n : ℕ} {s : PyStr}, s.length < n →
    scanString n s ≠ .error .fuel := by
  intro n
  induction n with
  | zero => intro s h; omega
  | succ n ih =>
    intro s hn h
    match s with
    | [] => simp [scanString] at h
    | c :: s =>
      simp only [List.length_cons] at hn
      simp only [scanString] at h
      split at h
      · cases h
      · split at h
        · split at h
          · rename_i e he
            have hne : scanEscape s ≠ .error .fuel := by
              cases s <;> simp only [scanEscape] <;> (try split) <;> (try split) <;>
                (try split) <;> (try split) <;> simp
            exact hne (he.trans (by simpa using h))
          · rename_i d r hr
            have := scanEscape_length hr
            exact ih (by omega) (map_eq_error.mp h)
        · split at h
          · simp at h
          · exact ih (by omega) (map_eq_error.mp h)

theorem scanFrac_length_le (s : PyStr) : (scanFrac s).2.length ≤ s.length := by
  match s with
  | [] => simp [scanFrac]
  | c :: t =>
    simp only [scanFrac]
    split
    · have := (List.dropWhile_sublist isDigit (l := t)).length_le
      simp only [List.length_cons]
      omega
    · simp

theorem scanExpDigits_length_le {sign e : ℤ} {s rest : PyStr}
    (h : scanExpDigits sign s = some (e, rest)) : rest.length ≤ s.length := by
  simp only [scanExpDigits] at h
  split at h
  · cases h
  · simp only [Option.some.injEq, Prod.mk.injEq] at h
    rw [← h.2]
    exact (List.dropWhile_sublist isDigit).length_le

theorem scanExp_length_le {e : ℤ} {s rest : PyStr} (h : scanExp s = some (e, rest)) :
    rest.length ≤ s.length := by
  match s with
  | [] => simp [scanExp] at h
  | c :: t =>
    simp only [scanExp] at h
    split at h
    · match t with
      | [] => simp at h
      | s :: t =>
        simp only at h
        simp only [List.length_cons]
        split at h
        · have := scanExpDigits_length_le h
          omega
        · split at h
          · have := scanExpDigits_length_le h
            omega
          · have := scanExpDigits_length_le h
            simp only [List.length_cons] at this
            omega
    · cases h

theorem scanInt_length_le (s : PyStr) : (scanInt s).length ≤ s.length := by
  have hsub := (List.takeWhile_sublist isDigit (l := s)).length_le
  simp only [scanInt]
  split
  · simp
  · rename_i d ds hrun
    rw [hrun, List.length_cons] at hsub
    split <;> simp only [List.length_cons, List.length_nil] <;> omega

theorem scanUnsigned_length {sign : ℤ} {s rest : PyStr} {v : PyVal}
    (h : scanUnsigned sign s = .ok (v, rest)) : rest.length < s.length := by
  have hfrac := scanFrac_length_le (s.drop (scanInt s).length)
  have hint := scanInt_length_le s
  simp only [scanUnsigned] at h
  split at h
  · cases h
  · rename_i hne
    have hpos : 0 < (scanInt s).length := List.length_pos_of_ne_nil hne
    rw [List.length_drop] at hfrac
    split at h
    · split at h
      · cases h
      · simp only [Except.ok.injEq, Prod.mk.injEq] at h
        rw [← h.2]
        omega
    · simp only [Except.ok.injEq, Prod.mk.injEq] at h
      rw [← h.2]
      cases he : scanExp (scanFrac (s.drop (scanInt s).length)).2 with
      | none => simp only [Option.getD_none]; omega
      | some p =>
        have := scanExp_length_le (show scanExp _ = some (p.1, p.2) from he)
        simp only [Option.getD_some]
        omega

theorem scanUnsigned_ne_fuel (sign : ℤ) (s : PyStr) : scanUnsigned sign s ≠ .error .fuel := by
  intro h
  simp only [scanUnsigned] at h
  split at h
  · simp at h
  · split at h
    · split at h <;> simp at h
    · cases h

theorem scanNumber_length {s rest : PyStr} {v : PyVal} (h : scanNumber s = .ok (v, rest)) :
    rest.length < s.length := by
  match s with
  | [] => simp [scanNumber] at h
  | c :: t =>
    simp only [scanNumber] at h
    split at h
    · have := scanUnsigned_length h
      simp only [List.length_cons]
      omega
    · exact scanUnsigned_length h

theorem scanNumber_ne_fuel (s : PyStr) : scanNumber s ≠ .error .fuel := by
  match s with
  | [] => simp [scanNumber]
  | c :: t =>
    simp only [scanNumber]
    split <;> exact scanUnsigned_ne_fuel _ _

theorem scanLiteral_length {c : ℕ} {s rest : PyStr} {v : PyVal}
    (h : scanLiteral (c :: s) = some (v, rest)) : rest.length < (c :: s).length := by
  simp only [scanLiteral, Option.map_eq_some_iff] at h
  obtain ⟨l, hl, heq⟩ := h
  simp only [Prod.mk.injEq] at heq
  have hpos : 0 < l.1.length := by
    have hmem := List.mem_of_find?_eq_some hl
    simp only [literals, List.mem_cons, List.not_mem_nil, or_false] at hmem
    rcases hmem with rfl | rfl | rfl | rfl | rfl | rfl <;> decide
  rw [← heq.2, List.length_drop]
  simp only [List.length_cons]
  omega

/-! The three container scanners call each other with one level of fuel less. First one call of
each, then the induction on the fuel that they share. -/

theorem skipWs_cons_length {s t : PyStr} {c : ℕ} (h : skipWs s = c :: t) : t.length < s.length := by
  have hle := skipWs_length_le s
  rw [h, List.length_cons] at hle
  exact hle

/-- What a scanner leaves of the text is shorter than the text. -/
def Consumes {α : Type} (scan : PyStr → Except ScanError (α × PyStr)) : Prop :=
  ∀ {s v rest}, scan s = .ok (v, rest) → rest.length < s.length

theorem scanString_consumes : Consumes fun s => scanString (s.length + 1) s := scanString_length

theorem Consumes.map {α β : Type} {scan : PyStr → Except ScanError (α × PyStr)}
    (hscan : Consumes scan)
    (f : α → β) : Consumes fun s => (scan s).map fun r => (f r.1, r.2) := by
  intro s v rest h
  obtain ⟨⟨_, _⟩, hs, heq⟩ := map_eq_ok.mp h
  rw [← (Prod.mk.inj heq).2]
  exact hscan hs

/-- An object or an array behind its opening bracket. -/
theorem container_length {α : Type} {scan : PyStr → Except ScanError (α × PyStr)}
    (hscan : Consumes scan) {wrap : α → PyVal} {empty v : PyVal} {close : ℕ} {t rest : PyStr}
    (h : (if (skipWs t).head? = some close then .ok (empty, (skipWs t).tail)
      else (scan (skipWs t)).map fun r => (wrap r.1, r.2)) = Except.ok (v, rest)) :
    rest.length ≤ t.length := by
  have hws := skipWs_length_le t
  split at h
  · simp only [Except.ok.injEq, Prod.mk.injEq] at h
    rw [← h.2, List.length_tail]
    omega
  · have hlt := hscan.map wrap h
    omega

theorem scanOnce_consumes {n : ℕ} (hmembers : ∀ depth, Consumes (parseMembers n depth []))
    (helements : ∀ depth, Consumes (parseElements n depth [])) (depth : ℕ) :
    Consumes (scanOnce (n + 1) depth) := by
  intro s v rest h
  match s with
  | [] => simp [scanOnce] at h
  | c :: t =>
    simp only [scanOnce] at h
    split at h
    · exact Nat.lt_succ_of_lt (scanString_consumes.map PyVal.str h)
    · split at h
      · match depth with
        | 0 => cases h
        | depth + 1 => exact Nat.lt_succ_of_le (container_length (hmembers depth) h)
      · split at h
        · match depth with
          | 0 => cases h
          | depth + 1 => exact Nat.lt_succ_of_le (container_length (helements depth) h)
        · split at h
          · next p hp =>
            rw [Except.ok.inj h] at hp
            exact scanLiteral_length hp
          · exact scanNumber_length h

theorem parseMembers_consumes {n : ℕ} (hvalue : ∀ depth, Consumes (scanOnce n depth))
    (hmembers : ∀ depth acc, Consumes (parseMembers n depth acc)) (depth : ℕ)
    (acc : List (PyStr × PyVal)) : Consumes (parseMembers (n + 1) depth acc) := by
  intro s kvs rest h
  match s with
  | [] => simp [parseMembers] at h
  | c :: t =>
    simp only [parseMembers] at h
    rw [List.length_cons]
    split at h
    · split at h
      · cases h
      · next k afterKey hkey =>
        have hk := scanString_length hkey
        split at h
        · cases h
        · next c₂ afterColon hcolon =>
          have hc := skipWs_cons_length hcolon
          have hws := skipWs_length_le afterColon
          split at h
          · split at h
            · cases h
            · next v afterValue hv =>
              have hv := hvalue depth hv
              split at h
              · cases h
              · next c₃ afterComma hcomma =>
                have hcomma := skipWs_cons_length hcomma
                have hws' := skipWs_length_le afterComma
                split at h
                · simp only [Except.ok.injEq, Prod.mk.injEq] at h
                  rw [← h.2]
                  omega
                · split at h
                  · have hlast := hmembers depth _ h
                    omega
                  · cases h
          · cases h
    · cases h

theorem parseElements_consumes {n : ℕ} (hvalue : ∀ depth, Consumes (scanOnce n depth))
    (helements : ∀ depth acc, Consumes (parseElements n depth acc)) (depth : ℕ) (acc : List PyVal) :
    Consumes (parseElements (n + 1) depth acc) := by
  intro s vs rest h
  simp only [parseElements] at h
  split at h
  · cases h
  · next v afterValue hv =>
    have hv := hvalue depth hv
    split at h
    · cases h
    · next c afterComma hcomma =>
      have hcomma := skipWs_cons_length hcomma
      have hws := skipWs_length_le afterComma
      split at h
      · simp only [Except.ok.injEq, Prod.mk.injEq] at h
        rw [← h.2]
        omega
      · split at h
        · have hlast := helements depth _ h
          omega
        · cases h

theorem scan_consumes (n : ℕ) :
    (∀ depth, Consumes (scanOnce n depth)) ∧ (∀ depth acc, Consumes (parseMembers n depth acc)) ∧
      ∀ depth acc, Consumes (parseElements n depth acc) := by
  induction n with
  | zero => simp [Consumes, scanOnce, parseMembers, parseElements]
  | succ n ih =>
    obtain ⟨hvalue, hmembers, helements⟩ := ih
    exact ⟨scanOnce_consumes (fun depth => hmembers depth []) fun depth => helements depth [],
      parseMembers_consumes hvalue hmembers, parseElements_consumes hvalue helements⟩

/-! Each call spends one level of fuel, and each value, comma or brace at least one code point. -/

/-- `k` levels beside two for each code point carry a scanner with `n` levels to an answer. -/
def Fuelled {α : Type} (n k : ℕ) (scan : PyStr → Except ScanError (α × PyStr)) : Prop :=
  ∀ s, 2 * s.length + k < n → scan s ≠ .error .fuel

theorem container_ne_fuel {α : Type} {n : ℕ} {scan : PyStr → Except ScanError (α × PyStr)}
    (hscan : Fuelled n 1 scan) {wrap : α → PyVal} {empty : PyVal} {close : ℕ} {t : PyStr}
    (hn : 2 * t.length + 1 < n) :
    (if (skipWs t).head? = some close then .ok (empty, (skipWs t).tail)
      else (scan (skipWs t)).map fun r => (wrap r.1, r.2)) ≠ Except.error .fuel := by
  have hws := skipWs_length_le t
  intro h
  split at h
  · cases h
  · exact hscan (skipWs t) (by omega) (map_eq_error.mp h)

theorem scanOnce_fuelled {n : ℕ} (hmembers : ∀ depth, Fuelled n 1 (parseMembers n depth []))
    (helements : ∀ depth, Fuelled n 1 (parseElements n depth [])) (depth : ℕ) :
    Fuelled (n + 1) 0 (scanOnce (n + 1) depth) := by
  intro s hn h
  match s with
  | [] => simp [scanOnce] at h
  | c :: t =>
    rw [List.length_cons] at hn
    simp only [scanOnce] at h
    split at h
    · exact scanString_ne_fuel (Nat.lt_succ_self _) (map_eq_error.mp h)
    · split at h
      · match depth with
        | 0 => cases h
        | depth + 1 => exact container_ne_fuel (hmembers depth) (by omega) h
      · split at h
        · match depth with
          | 0 => cases h
          | depth + 1 => exact container_ne_fuel (helements depth) (by omega) h
        · split at h
          · cases h
          · exact scanNumber_ne_fuel _ h

theorem parseMembers_fuelled {n : ℕ} (hvalue : ∀ depth, Fuelled n 0 (scanOnce n depth))
    (hmembers : ∀ depth acc, Fuelled n 1 (parseMembers n depth acc)) (depth : ℕ)
    (acc : List (PyStr × PyVal)) : Fuelled (n + 1) 1 (parseMembers (n + 1) depth acc) := by
  intro s hn h
  match s with
  | [] => simp [parseMembers] at h
  | c :: t =>
    rw [List.length_cons] at hn
    simp only [parseMembers] at h
    split at h
    · split at h
      · next e he =>
        exact scanString_ne_fuel (Nat.lt_succ_self _) (he.trans (congrArg _ (Except.error.inj h)))
      · next k afterKey hkey =>
        have hk := scanString_length hkey
        split at h
        · simp at h
        · next c₂ afterColon hcolon =>
          have hc := skipWs_cons_length hcolon
          have hws := skipWs_length_le afterColon
          split at h
          · split at h
            · next e he =>
              exact hvalue depth _ (by omega) (he.trans (congrArg _ (Except.error.inj h)))
            · next v afterValue hv =>
              have hv := (scan_consumes n).1 depth hv
              split at h
              · simp at h
              · next c₃ afterComma hcomma =>
                have hcomma := skipWs_cons_length hcomma
                have hws' := skipWs_length_le afterComma
                split at h
                · cases h
                · split at h
                  · exact hmembers depth _ _ (by omega) h
                  · simp at h
          · simp at h
    · simp at h

theorem parseElements_fuelled {n : ℕ} (hvalue : ∀ depth, Fuelled n 0 (scanOnce n depth))
    (helements : ∀ depth acc, Fuelled n 1 (parseElements n depth acc)) (depth : ℕ)
    (acc : List PyVal) : Fuelled (n + 1) 1 (parseElements (n + 1) depth acc) := by
  intro s hn h
  simp only [parseElements] at h
  split at h
  · next e he => exact hvalue depth _ (by omega) (he.trans (congrArg _ (Except.error.inj h)))
  · next v afterValue hv =>
    have hv := (scan_consumes n).1 depth hv
    split at h
    · simp at h
    · next c afterComma hcomma =>
      have hcomma := skipWs_cons_length hcomma
      have hws := skipWs_length_le afterComma
      split at h
      · cases h
      · split at h
        · exact helements depth _ _ (by omega) h
        · simp at h

theorem scan_fuelled (n : ℕ) :
    (∀ depth, Fuelled n 0 (scanOnce n depth)) ∧
      (∀ depth acc, Fuelled n 1 (parseMembers n depth acc)) ∧
        ∀ depth acc, Fuelled n 1 (parseElements n depth acc) := by
  induction n with
  | zero => simp [Fuelled]
  | succ n ih =>
    obtain ⟨hvalue, hmembers, helements⟩ := ih
    exact ⟨scanOnce_fuelled (fun depth => hmembers depth []) fun depth => helements depth [],
      parseMembers_fuelled hvalue hmembers, parseElements_fuelled hvalue helements⟩

/-- **What `json.loads` can raise.** The fuel of the model is never among it. -/
theorem loads_error_cls {depth : ℕ} {s : PyStr} {e : PyErr} (h : loads depth s = .error e) :
    e.cls = .jsonDecodeError ∨ e.cls = .valueError ∨ e.cls = .recursionError := by
  simp only [loads] at h
  split at h
  · simp only [throw, Except.error.injEq] at h
    exact Or.inl (by rw [← h])
  · split at h
    · rename_i err herr
      simp only [Except.error.injEq] at h
      have hws := skipWs_length_le s
      have hfuel : err ≠ .fuel := by
        rintro rfl
        exact (scan_fuelled (2 * s.length + 1)).1 depth (skipWs s) (by omega) herr
      rw [← h]
      cases err with
      | decode msg => exact Or.inl rfl
      | digits => exact Or.inr (Or.inl rfl)
      | recursion => exact Or.inr (Or.inr rfl)
      | fuel => exact absurd rfl hfuel
    · split at h
      · cases h
      · simp only [throw, Except.error.injEq] at h
        exact Or.inl (by rw [← h])

end Python

end ToolAgent
