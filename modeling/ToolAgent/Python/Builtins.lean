import ToolAgent.Python.Dumps

/-!
# Conversions and comparisons

`int(v)`, `float(v)`, `str(v)`, `==` and `set` on the values of `ToolAgent.Python.Value`, with the
exceptions they raise. A conversion that fails does so in one of three ways, and code that catches
only `ValueError` meets the other two:

* a string of the wrong form, and `int(nan)`, raise `ValueError`;
* `None`, lists and dictionaries raise `TypeError`;
* `int(inf)`, and `float(n)` of an integer beyond the doubles, raise `OverflowError`.

## What stays a parameter

The text `str` gives for a value that is not a string is CPython's `repr`, down to the shortest
decimal of a double and the table of printable code points. No code modelled on top of this file
computes with that text, so `Interp` holds it as a function, next to the recursion levels the
interpreter has left.
-/

namespace ToolAgent

namespace Python

/-- What the model leaves to the interpreter. -/
structure Interp where
  /-- `repr(v)`, which is also `str(v)` for a value that is not a string. -/
  repr : PyVal → PyStr
  /-- `repr(x)` of a finite float. -/
  floatRepr : ℚ → PyStr
  floatRepr_printable : ∀ q, Printable (floatRepr q)
  /-- `hashlib.md5(s.encode("utf-8")).hexdigest()`. -/
  md5 : PyStr → PyStr
  /-- `s.lower()`, which needs the case table of Unicode. -/
  lowercase : PyStr → PyStr
  /-- The recursion levels left, at least enough to enter one container. -/
  recursionLimit : ℕ
  recursionLimit_pos : 0 < recursionLimit

/-- An interpreter for examples that print nothing, hash nothing and have no upper case. -/
def Interp.silent : Interp := ⟨fun _ => [], fun _ => [], fun _ => .nil, id, id, 900, by decide⟩

/-- `json.dumps(v, ensure_ascii=False)`. -/
def Interp.dumps (py : Interp) (v : PyVal) : PyStr := Python.dumps py.floatRepr none 0 v

/-- `json.dumps(v, ensure_ascii=False, indent=2)`. -/
def Interp.dumpsIndented (py : Interp) (v : PyVal) : PyStr := Python.dumps py.floatRepr (some 2) 0 v

/-- What `json.dump(v, f, ensure_ascii=False, indent=2)` writes, piece by piece. -/
def Interp.dumpPieces (py : Interp) (v : PyVal) : List PyStr := iterencode py.floatRepr 2 0 v

theorem Interp.flatten_dumpPieces (py : Interp) (v : PyVal) :
    (py.dumpPieces v).flatten = py.dumpsIndented v := flatten_iterencode py.floatRepr 2 0 v

theorem Interp.dumps_printable (py : Interp) (v : PyVal) : Printable (py.dumps v) :=
  Python.dumps_printable py.floatRepr_printable 0 v

/-- `str(v)`. -/
def Interp.str (py : Interp) : PyVal → PyStr
  | .str s => s
  | v => py.repr v

/-! ### Character classes -/

/-- The code points that `str.strip` removes. -/
def isSpace (c : ℕ) : Bool :=
  (9 ≤ c && c ≤ 13) || (0x1C ≤ c && c ≤ 0x20) || (0x2000 ≤ c && c ≤ 0x200A) ||
    [0x85, 0xA0, 0x1680, 0x2028, 0x2029, 0x202F, 0x205F, 0x3000].contains c

/-- The zeros of Unicode's decimal digits. Each starts a run of ten. -/
def decimalZeros : List ℕ :=
  [0x30, 0x660, 0x6F0, 0x7C0, 0x966, 0x9E6, 0xA66, 0xAE6, 0xB66, 0xBE6, 0xC66, 0xCE6, 0xD66, 0xDE6,
    0xE50, 0xED0, 0xF20, 0x1040, 0x1090, 0x17E0, 0x1810, 0x1946, 0x19D0, 0x1A80, 0x1A90, 0x1B50,
    0x1BB0, 0x1C40, 0x1C50, 0xA620, 0xA8D0, 0xA900, 0xA9D0, 0xA9F0, 0xAA50, 0xABF0, 0xFF10, 0x104A0,
    0x10D30, 0x11066, 0x110F0, 0x11136, 0x111D0, 0x112F0, 0x11450, 0x114D0, 0x11650, 0x116C0,
    0x11730, 0x118E0, 0x11950, 0x11C50, 0x11D50, 0x11DA0, 0x16A60, 0x16AC0, 0x16B50, 0x1D7CE,
    0x1D7D8, 0x1D7E2, 0x1D7EC, 0x1D7F6, 0x1E140, 0x1E2F0, 0x1E950, 0x1FBF0]

def decimalDigit (c : ℕ) : Option ℕ :=
  (decimalZeros.find? fun z => z ≤ c && c < z + 10).map (c - ·)

/-- `s.strip()`. -/
def strip (s : PyStr) : PyStr := ((s.dropWhile isSpace).reverse.dropWhile isSpace).reverse

/-- `s.lower()` on ASCII letters. Beyond ASCII only the Kelvin sign and the dotted capital I have a
lower case with an ASCII letter in it. -/
def lower (s : PyStr) : PyStr := s.map fun c => if ch 'A' ≤ c ∧ c ≤ ch 'Z' then c + 32 else c

/-- Whether `s.encode("utf-8")` succeeds: no lone surrogate occurs. -/
def encodable (s : PyStr) : Bool := s.all fun c => !(isHighSurrogate c || isLowSurrogate c)

/-- The match of `re.search(r"\{.*\}", s, flags=re.DOTALL)`: from the first opening brace to the
last closing one. -/
def braceSpan (s : PyStr) : Option PyStr :=
  let upToLast := ((s.dropWhile (· ≠ ch '{')).reverse.dropWhile (· ≠ ch '}')).reverse
  if upToLast = [] then none else some upToLast

/-- `s.split(sep)`. -/
def splitOn (sep : ℕ) : PyStr → List PyStr
  | [] => [[]]
  | c :: s =>
    match splitOn sep s with
    | [] => [[c]]
    | part :: parts => if c = sep then [] :: part :: parts else (c :: part) :: parts

/-- `s.split(sep, 1)`, in the case that `sep` occurs. -/
def splitOnce (sep : ℕ) (s : PyStr) : Option (PyStr × PyStr) :=
  if s.contains sep then some (s.takeWhile (· ≠ sep), (s.dropWhile (· ≠ sep)).tail) else none

/-! ### `int` -/

/-- A sign, if there is one, and what follows it. -/
def splitSign : PyStr → ℤ × PyStr
  | [] => (1, [])
  | c :: s => if c = ch '-' then (-1, s) else if c = ch '+' then (1, s) else (1, c :: s)

/-- Decimal digits with single underscores between them. -/
def underscoredDigits : PyStr → Option (List ℕ)
  | [] => none
  | [c] => (decimalDigit c).map ([·])
  | c :: u :: rest =>
    match decimalDigit c with
    | none => none
    | some d =>
      if u = ch '_' then (underscoredDigits rest).map (d :: ·)
      else (underscoredDigits (u :: rest)).map (d :: ·)

def intOfStr (s : PyStr) : Except PyErr ℤ :=
  let (sign, body) := splitSign (strip s)
  match underscoredDigits body with
  | none => throw .valueError "invalid literal for int() with base 10"
  | some ds =>
    if maxStrDigits < ds.length then
      throw .valueError "Exceeds the limit (4300 digits) for integer string conversion"
    else .ok (sign * ((ds.foldl (fun n d => 10 * n + d) 0 : ℕ) : ℤ))

/-- `int(v)`. A float is truncated towards zero. -/
def pyInt : PyVal → Except PyErr ℤ
  | .int n => .ok n
  | .bool b => .ok (if b then 1 else 0)
  | .float (.fin q) => .ok (if 0 ≤ q then ⌊q⌋ else -⌊-q⌋)
  | .float (.inf _) => throw .overflowError "cannot convert float infinity to integer"
  | .float .nan => throw .valueError "cannot convert float NaN to integer"
  | .str s => intOfStr s
  | v => .error ⟨.typeError, PyStr.ofString ("int() argument must be a string, " ++
      "a bytes-like object or a real number, not '") ++ v.typeName ++ PyStr.ofString "'"⟩

/-! ### `float` -/

/-- Remove underscores that stand between two digits. -/
def dropUnderscores : PyStr → Option PyStr
  | a :: u :: b :: rest =>
    if u = ch '_' then
      if isDigit a ∧ isDigit b then (dropUnderscores (b :: rest)).map (a :: ·) else none
    else if a = ch '_' then none
    else (dropUnderscores (u :: b :: rest)).map (a :: ·)
  | s => if s.contains (ch '_') then none else some s

/-- An unsigned decimal literal, all of it. -/
def decimalLiteral (s : PyStr) : Option ℚ :=
  let int := s.takeWhile isDigit
  let rest := s.dropWhile isDigit
  let frac := if rest.head? = some (ch '.') then rest.tail.takeWhile isDigit else []
  let rest := if rest.head? = some (ch '.') then rest.tail.dropWhile isDigit else rest
  if int = [] ∧ frac = [] then none
  else
    match rest, scanExp rest with
    | [], _ => some (digitsValue (int ++ frac) * 10 ^ (-(frac.length : ℤ)))
    | _, some (e, []) => some (digitsValue (int ++ frac) * 10 ^ (e - frac.length))
    | _, _ => none

def floatOfStr (s : PyStr) : Except PyErr PyFloat :=
  let ascii := (strip s).map fun c => ((decimalDigit c).map (ch '0' + ·)).getD c
  match dropUnderscores ascii with
  | none => throw .valueError "could not convert string to float"
  | some t =>
    let (sign, body) := splitSign t
    if lower body = "inf" ∨ lower body = "infinity" then .ok (.inf (decide (sign < 0)))
    else if lower body = "nan" then .ok .nan
    else
      match decimalLiteral body with
      | some q => .ok (.ofRat (sign * q))
      | none => throw .valueError "could not convert string to float"

/-- `float(v)`. -/
def pyFloat : PyVal → Except PyErr PyFloat
  | .float x => .ok x
  | .bool b => .ok (.fin (if b then 1 else 0))
  | .int n =>
    match PyFloat.ofRat n with
    | .fin q => .ok (.fin q)
    | _ => throw .overflowError "int too large to convert to float"
  | .str s => floatOfStr s
  | v => .error ⟨.typeError, PyStr.ofString "float() argument must be a string or a real number, not '"
      ++ v.typeName ++ PyStr.ofString "'"⟩

theorem floatOfStr_error_cls {s : PyStr} {e : PyErr} (h : floatOfStr s = .error e) :
    e.cls = .valueError := by
  unfold floatOfStr at h
  dsimp only at h
  split at h
  · cases h
    rfl
  · split at h
    · cases h
    · split at h
      · cases h
      · split at h
        · cases h
        · cases h
          rfl

/-- What `float` can raise. -/
theorem pyFloat_error_cls {v : PyVal} {e : PyErr} (h : pyFloat v = .error e) :
    e.cls = .typeError ∨ e.cls = .valueError ∨ e.cls = .overflowError := by
  cases v with
  | int n =>
    change (match PyFloat.ofRat n with | .fin q => _ | _ => _) = _ at h
    split at h
    · cases h
    · cases h
      exact .inr (.inr rfl)
  | str s => exact .inr (.inl (floatOfStr_error_cls h))
  | null | list _ | dict _ =>
    cases h
    exact .inl rfl
  | bool _ | float _ => cases h

/-! ### Comparison -/

/-- The number a value stands for under `==`: `True == 1 == 1.0`. A `nan` is identified with
itself, since every `nan` of a JSON document is one object and containers compare by identity
first. -/
def PyVal.number? : PyVal → Option PyFloat
  | .bool b => some (.fin (if b then 1 else 0))
  | .int n => some (.fin n)
  | .float x => some x
  | _ => none

mutual

/-- `v == w`. Dictionaries are compared without regard to the order of their items. -/
def PyVal.eq : PyVal → PyVal → Bool
  | .null, w => match w with | .null => true | _ => false
  | .bool b, w => some (PyFloat.fin (if b then 1 else 0)) = w.number?
  | .int n, w => some (PyFloat.fin n) = w.number?
  | .float x, w => some x = w.number?
  | .str s, w => match w with | .str t => s = t | _ => false
  | .list xs, w => match w with | .list ys => PyVal.eqList xs ys | _ => false
  | .dict kvs, w =>
    match w with
    | .dict kvs' => kvs.length = kvs'.length && PyVal.eqItems kvs kvs'
    | _ => false

def PyVal.eqList : List PyVal → List PyVal → Bool
  | [], ys => ys.isEmpty
  | x :: xs, ys => match ys with | y :: ys => PyVal.eq x y && PyVal.eqList xs ys | [] => false

def PyVal.eqItems : List (PyStr × PyVal) → List (PyStr × PyVal) → Bool
  | [], _ => true
  | (k, v) :: kvs, kvs' =>
    (match kvs'.lookup k with
      | some w => PyVal.eq v w
      | none => false) && PyVal.eqItems kvs kvs'

end

mutual

/-- No dictionary in the value has a key twice. Values that Python builds are of this kind. -/
def PyVal.DistinctKeys : PyVal → Prop
  | .list xs => PyVal.DistinctKeysList xs
  | .dict kvs => (kvs.map Prod.fst).Nodup ∧ PyVal.DistinctKeysItems kvs
  | _ => True

def PyVal.DistinctKeysList : List PyVal → Prop
  | [] => True
  | x :: xs => PyVal.DistinctKeys x ∧ PyVal.DistinctKeysList xs

def PyVal.DistinctKeysItems : List (PyStr × PyVal) → Prop
  | [] => True
  | (_, v) :: kvs => PyVal.DistinctKeys v ∧ PyVal.DistinctKeysItems kvs

end

theorem mem_of_lookup {α : Type} {kvs : List (PyStr × α)} {k : PyStr} {v : α}
    (h : kvs.lookup k = some v) : (k, v) ∈ kvs := by
  obtain ⟨before, after, heq, -⟩ := List.lookup_eq_some_iff.mp h
  rw [heq]
  exact List.mem_append_right _ List.mem_cons_self

theorem lookup_of_mem {kvs : List (PyStr × PyVal)} (hkeys : (kvs.map Prod.fst).Nodup)
    {p : PyStr × PyVal} (hp : p ∈ kvs) : kvs.lookup p.1 = some p.2 := by
  induction kvs with
  | nil => cases hp
  | cons kv kvs ih =>
    obtain ⟨k, v⟩ := kv
    obtain ⟨hk, hkeys⟩ := List.nodup_cons.mp hkeys
    rw [lookup_cons_ite]
    rcases List.mem_cons.mp hp with rfl | hp
    · rw [if_pos rfl]
    · have hmem : p.1 ∈ kvs.map Prod.fst := List.mem_map_of_mem hp
      have hne : p.1 ≠ k := fun heq => hk (heq ▸ hmem)
      rw [if_neg hne, ih hkeys hp]

mutual

/-- A value equals itself. A NaN does too: it is compared with the same object. -/
theorem PyVal.eq_self : ∀ v : PyVal, v.DistinctKeys → v.eq v = true
  | .null, _ => rfl
  | .bool b, _ => by rw [PyVal.eq, PyVal.number?, decide_eq_true_eq]
  | .int n, _ => by rw [PyVal.eq, PyVal.number?, decide_eq_true_eq]
  | .float x, _ => by rw [PyVal.eq, PyVal.number?, decide_eq_true_eq]
  | .str s, _ => by rw [PyVal.eq, decide_eq_true_eq]
  | .list xs, h => by
    rw [PyVal.eq]
    exact PyVal.eqList_self xs h
  | .dict kvs, ⟨hkeys, hvalues⟩ => by
    rw [PyVal.eq, decide_eq_true rfl, Bool.true_and]
    exact PyVal.eqItems_self kvs kvs (fun p hp => lookup_of_mem hkeys hp) hvalues

theorem PyVal.eqList_self : ∀ xs : List PyVal, PyVal.DistinctKeysList xs → PyVal.eqList xs xs = true
  | [], _ => rfl
  | x :: xs, ⟨hx, hxs⟩ => by
    rw [PyVal.eqList, PyVal.eq_self x hx, PyVal.eqList_self xs hxs, Bool.true_and]

theorem PyVal.eqItems_self : ∀ kvs kvs' : List (PyStr × PyVal),
    (∀ p ∈ kvs, kvs'.lookup p.1 = some p.2) → PyVal.DistinctKeysItems kvs →
      PyVal.eqItems kvs kvs' = true
  | [], _, _, _ => rfl
  | (k, v) :: kvs, kvs', hlookup, ⟨hv, hkvs⟩ => by
    obtain ⟨hfirst, hrest⟩ := List.forall_mem_cons.mp hlookup
    have hk : kvs'.lookup k = some v := hfirst
    rw [PyVal.eqItems, hk, PyVal.eqItems_self kvs kvs' hrest hkvs, Bool.and_true]
    exact PyVal.eq_self v hv

end

/-- `hash(v)` exists: lists and dictionaries are unhashable. -/
def PyVal.hashable : PyVal → Bool
  | .list _ | .dict _ => false
  | _ => true

/-- The elements of `set(xs)`, in order of first occurrence. -/
def setOf (xs : List PyVal) : Except PyErr (List PyVal) :=
  match xs.find? fun v => !v.hashable with
  | some v => .error ⟨.typeError, PyStr.ofString "unhashable type: '" ++ v.typeName ++
      PyStr.ofString "'"⟩
  | none => .ok (xs.foldl (fun acc v => if acc.any (v.eq ·) then acc else acc ++ [v]) [])

end Python

end ToolAgent
