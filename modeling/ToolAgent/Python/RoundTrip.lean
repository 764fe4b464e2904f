import Mathlib.Data.List.Induction
import Mathlib.Data.List.Nodup
import Mathlib.Data.List.TakeWhile
import Mathlib.Tactic.IntervalCases
import ToolAgent.Python.Lines

/-!
# `json.loads` after `json.dumps`

What `json.dumps` has written, with or without `indent`, `json.loads` reads back, for a value that
the decoder can return at all: integers of at most `maxStrDigits` digits, no deeper nesting than the
recursion levels that are left, and no key twice in a dictionary. A finite float has to have a text
that is read as this float, which is what `repr` of a float is for.

The values that `json.loads` returns are of this kind. So reading, writing and reading again gives
what was read at first.

## Main definitions

* `ReadsBack` — a text is read as a float
* `Storable` — the values that are read back

## Main results

* `loads_dumps` — what was written is read back
* `storable_of_loads` — what was read can be stored
-/

namespace ToolAgent

namespace Python

/-! ### Strings -/

theorem hexDigit_hexChar {d : ℕ} (h : d < 16) : hexDigit (hexChar d) = some d := by
  interval_cases d <;> rfl

/-- One code point of a string. -/
theorem scanString_escapeChar (n c : ℕ) (t : PyStr) :
    scanString (n + 1) (escapeChar c ++ t) = (scanString n t).map fun r => (c :: r.1, r.2) := by
  have hescape (e : ℕ) (s : PyStr) (hs : scanEscape s = .ok (e, t)) :
      scanString (n + 1) (ch '\\' :: s) = (scanString n t).map fun r => (e :: r.1, r.2) := by
    rw [scanString, if_neg (by decide), if_pos rfl, hs]
  rw [escapeChar]
  split_ifs with h₁ h₂ h₃ h₄ h₅ h₆ h₇ h₈
  · exact h₁ ▸ hescape _ (ch '"' :: t) rfl
  · exact h₂ ▸ hescape _ (ch '\\' :: t) rfl
  · exact h₃ ▸ hescape _ (ch 'n' :: t) rfl
  · exact h₄ ▸ hescape _ (ch 'r' :: t) rfl
  · exact h₅ ▸ hescape _ (ch 't' :: t) rfl
  · exact h₆ ▸ hescape _ (ch 'b' :: t) rfl
  · exact h₇ ▸ hescape _ (ch 'f' :: t) rfl
  · refine hescape c (ch 'u' :: ch '0' :: ch '0' :: hexChar (c / 16) :: hexChar (c % 16) :: t) ?_
    have hhex : hex4 (ch '0' :: ch '0' :: hexChar (c / 16) :: hexChar (c % 16) :: t) =
        some (c, t) := by
      have hzero : hexDigit (ch '0') = some 0 := rfl
      simp only [hex4, hzero, hexDigit_hexChar (show c / 16 < 16 by omega),
        hexDigit_hexChar (show c % 16 < 16 by omega), Option.bind_eq_bind, Option.bind_some]
      congr 2
      omega
    have hhigh : isHighSurrogate c = false := by
      rw [isHighSurrogate, decide_eq_false (by omega), Bool.false_and]
    rw [scanEscape, if_pos rfl, hhex]
    simp only [hhigh, Bool.false_eq_true, if_false]
  · rw [List.singleton_append, scanString, if_neg h₁, if_neg h₂, if_neg (by omega)]

theorem scanString_flatMap (rest : PyStr) : ∀ {s : PyStr} {n : ℕ}, s.length < n →
    scanString n (s.flatMap escapeChar ++ ch '"' :: rest) = .ok (s, rest)
  | [], n + 1, _ => rfl
  | c :: s, n + 1, h => by
    rw [List.flatMap_cons, List.append_assoc, scanString_escapeChar,
      scanString_flatMap rest (Nat.lt_of_succ_lt_succ h)]
    rfl

theorem length_le_flatMap (s : PyStr) : s.length ≤ (s.flatMap escapeChar).length := by
  have hpos (c : ℕ) : 1 ≤ (escapeChar c).length := by
    rw [escapeChar]
    split_ifs <;> simp [PyStr.ofString]
  induction s with
  | nil => exact le_rfl
  | cons c s ih =>
    have hc := hpos c
    rw [List.flatMap_cons, List.length_append, List.length_cons]
    omega

/-- **A quoted string is read back**, whatever code points it has. -/
theorem scanString_quote (s rest : PyStr) :
    scanString ((s.flatMap escapeChar ++ ch '"' :: rest).length + 1)
      (s.flatMap escapeChar ++ ch '"' :: rest) = .ok (s, rest) := by
  have hlength := length_le_flatMap s
  exact scanString_flatMap rest (by rw [List.length_append]; omega)

theorem quote_append (s rest : PyStr) :
    quote s ++ rest = ch '"' :: (s.flatMap escapeChar ++ ch '"' :: rest) := by
  rw [quote, List.cons_append, List.cons_append, List.append_assoc]
  rfl

/-! ### Numbers -/

/-- What comes after a number is not read as part of it. -/
def EndsNumber (rest : PyStr) : Prop :=
  ∀ c, rest.head? = some c → isDigit c = false ∧ c ≠ ch '.' ∧ c ≠ ch 'e' ∧ c ≠ ch 'E'

theorem EndsNumber.nil : EndsNumber [] := by
  intro c h
  cases h

/-- The text of the float `q`. -/
def ReadsBack (text : PyStr) (q : ℚ) : Prop :=
  ∀ rest, EndsNumber rest → scanNumber (text ++ rest) = .ok (.float (.fin q), rest)

theorem takeWhile_digits {ds rest : PyStr} (hds : ∀ c ∈ ds, isDigit c = true)
    (hrest : ∀ c, rest.head? = some c → isDigit c = false) :
    (ds ++ rest).takeWhile isDigit = ds := by
  rw [List.takeWhile_append_of_pos hds]
  cases rest with
  | nil => rw [List.takeWhile_nil, List.append_nil]
  | cons c rest => rw [List.takeWhile_cons_of_neg (by simp [hrest c rfl]), List.append_nil]

/-- No decimal text but that of zero starts with a zero. -/
theorem toDigits_ne_zero_cons : ∀ {n : ℕ}, n ≠ 0 → ∀ ds, Nat.toDigits 10 n ≠ '0' :: ds := by
  intro n
  induction n using Nat.strongRecOn with
  | ind n ih =>
    intro hn ds h
    rw [Nat.toDigits_eq_if (by decide)] at h
    split at h
    · next hlt => interval_cases n <;> first | exact hn rfl | simp [Nat.digitChar] at h
    · have hne : Nat.toDigits 10 (n / 10) ≠ [] := List.ne_nil_of_length_pos Nat.length_toDigits_pos
      obtain ⟨c, cs, hcs⟩ := List.exists_cons_of_ne_nil hne
      rw [hcs, List.cons_append, List.cons.injEq] at h
      exact ih (n / 10) (by omega) (by omega) cs (hcs.trans (by rw [h.1]))

theorem natRepr_ne_nil (n : ℕ) : natRepr n ≠ [] := by
  rw [natRepr, ne_eq, List.map_eq_nil_iff]
  exact List.ne_nil_of_length_pos Nat.length_toDigits_pos

theorem natRepr_eq_cons (n : ℕ) : ∃ c cs, natRepr n = c :: cs ∧ c ≠ ch '-' := by
  obtain ⟨c, cs, hcs⟩ := List.exists_cons_of_ne_nil (natRepr_ne_nil n)
  refine ⟨c, cs, hcs, ?_⟩
  rintro rfl
  have hdigit : isDigit (ch '-') = true :=
    isDigit_of_mem_natRepr (n := n) (hcs ▸ List.mem_cons_self)
  exact absurd hdigit (by decide)

/-- The decimal text of a number is one integer. -/
theorem scanInt_natRepr {n : ℕ} {rest : PyStr}
    (hrest : ∀ c, rest.head? = some c → isDigit c = false) :
    scanInt (natRepr n ++ rest) = natRepr n := by
  rw [scanInt, takeWhile_digits (fun c hc => isDigit_of_mem_natRepr hc) hrest]
  split
  · next hnil => exact absurd hnil (natRepr_ne_nil n)
  · next d ds hcons =>
    split
    · next hzero =>
      rcases eq_or_ne n 0 with rfl | hn
      · have htext : natRepr 0 = [ch '0'] := rfl
        rw [htext, hzero]
      · refine absurd hcons fun heq => ?_
        rw [natRepr, List.map_eq_cons_iff] at heq
        obtain ⟨c, cs, hcs, hc, -⟩ := heq
        have hchar : c = '0' := Char.toNat_inj.mp (hc.trans hzero)
        exact toDigits_ne_zero_cons hn cs (hchar ▸ hcs)
    · exact hcons.symm

theorem EndsNumber.scanFrac_eq {rest : PyStr} (h : EndsNumber rest) :
    scanFrac rest = ([], rest) := by
  cases rest with
  | nil => rfl
  | cons c rest => rw [scanFrac, if_neg fun hdot => (h c rfl).2.1 hdot.1]

theorem EndsNumber.scanExp_eq {rest : PyStr} (h : EndsNumber rest) : scanExp rest = none := by
  cases rest with
  | nil => rfl
  | cons c rest =>
    have hne : ¬(c = ch 'e' ∨ c = ch 'E') := not_or.mpr (h c rfl).2.2
    simp only [scanExp, if_neg hne]

theorem scanUnsigned_natRepr (sign : ℤ) {n : ℕ} {rest : PyStr}
    (hdigits : (natRepr n).length ≤ maxStrDigits)
    (hrest : EndsNumber rest) :
    scanUnsigned sign (natRepr n ++ rest) = .ok (.int (sign * n), rest) := by
  simp only [scanUnsigned, scanInt_natRepr fun c hc => (hrest c hc).1, List.drop_left,
    hrest.scanFrac_eq,
    hrest.scanExp_eq, if_neg (natRepr_ne_nil n), and_self, if_true, if_neg (not_lt.mpr hdigits),
    digitsValue_natRepr]

/-- A decimal fraction without an exponent. -/
theorem readsBack_decimal {m : ℕ} {ds : PyStr} {q : ℚ} (hne : ds ≠ [])
    (hds : ∀ c ∈ ds, isDigit c = true)
    (hq : PyFloat.ofRat (digitsValue (natRepr m ++ ds) * 10 ^ (-ds.length : ℤ)) = .fin q) :
    ReadsBack (natRepr m ++ ch '.' :: ds) q := by
  intro rest hrest
  have hdot : ∀ c, (ch '.' :: (ds ++ rest)).head? = some c → isDigit c = false := by
    intro c hc
    obtain rfl : ch '.' = c := Option.some.inj hc
    rfl
  have hrun := takeWhile_digits hds fun c hc => (hrest c hc).1
  have hleft : (ds ++ rest).dropWhile isDigit = rest := by
    have hsplit := List.takeWhile_append_dropWhile (p := isDigit) (l := ds ++ rest)
    rwa [hrun, List.append_cancel_left_eq] at hsplit
  have hunsigned : scanUnsigned 1 (natRepr m ++ ch '.' :: (ds ++ rest)) =
      .ok (.float (.fin q), rest) := by
    simp only [scanUnsigned, scanInt_natRepr hdot, List.drop_left, scanFrac, hrun,
      hleft, ne_eq, hne,
      not_false_eq_true, and_true, if_true, hrest.scanExp_eq, if_neg (natRepr_ne_nil m), if_false,
      Option.getD_none, zero_sub, Int.cast_one, one_mul, hq]
  obtain ⟨c, cs, hcs, hminus⟩ := natRepr_eq_cons m
  rw [hcs, List.cons_append] at hunsigned
  rw [hcs, List.append_assoc, List.cons_append, List.cons_append, scanNumber, if_neg hminus]
  exact hunsigned

theorem scanNumber_intRepr {n : ℤ} {rest : PyStr}
    (hdigits : (natRepr n.natAbs).length ≤ maxStrDigits)
    (hrest : EndsNumber rest) : scanNumber (intRepr n ++ rest) = .ok (.int n, rest) := by
  rw [intRepr]
  split
  · next hneg =>
    rw [List.cons_append, scanNumber, if_pos rfl, scanUnsigned_natRepr (-1) hdigits hrest]
    congr 3
    omega
  · next hnonneg =>
    obtain ⟨c, cs, hcs, hminus⟩ := natRepr_eq_cons n.natAbs
    have hscan := scanUnsigned_natRepr 1 hdigits hrest
    rw [hcs, List.cons_append] at hscan ⊢
    rw [scanNumber, if_neg hminus, hscan]
    congr 3
    omega

/-- A number starts with a digit, or with a minus and a digit. -/
theorem start_of_scanNumber {s : PyStr} {r : PyVal × PyStr} (h : scanNumber s = .ok r) :
    ∃ c t, s = c :: t ∧ (isDigit c = true ∨ c = ch '-' ∧
      ∃ d t', t = d :: t' ∧ isDigit d = true) := by
  have hdigit {sign : ℤ} {t : PyStr} (ht : scanUnsigned sign t = .ok r) :
      ∃ d t', t = d :: t' ∧ isDigit d = true := by
    simp only [scanUnsigned] at ht
    split at ht
    · cases ht
    · next hne =>
      cases t with
      | nil => exact absurd rfl hne
      | cons d t =>
        refine ⟨d, t, rfl, ?_⟩
        by_contra hd
        exact hne (by rw [scanInt, List.takeWhile_cons_of_neg hd])
  cases s with
  | nil => cases h
  | cons c t =>
    rw [scanNumber] at h
    refine ⟨c, t, rfl, ?_⟩
    split at h
    · next hminus => exact .inr ⟨hminus, hdigit h⟩
    · obtain ⟨d, t', heq, hd⟩ := hdigit h
      rw [List.cons.injEq] at heq
      exact .inl (heq.1 ▸ hd)

/-- A number is not taken for anything else. -/
theorem scanOnce_of_scanNumber {s : PyStr} {r : PyVal × PyStr} (h : scanNumber s = .ok r)
    (n depth : ℕ) :
    scanOnce (n + 1) depth s = .ok r := by
  obtain ⟨c, t, rfl, hstart⟩ := start_of_scanNumber h
  have hliteral : scanLiteral (c :: t) = none := by
    rw [scanLiteral, Option.map_eq_none_iff, List.find?_eq_none]
    intro l hl
    simp only [literals, List.mem_cons, List.not_mem_nil, or_false] at hl
    rcases hstart with hd | ⟨rfl, d, t', rfl, hd⟩
    · rcases hl with rfl | rfl | rfl | rfl | rfl | rfl <;>
        simp [PyStr.ofString, List.isPrefixOf] <;> rintro rfl <;> exact absurd hd (by decide)
    · rcases hl with rfl | rfl | rfl | rfl | rfl | rfl <;>
        simp [PyStr.ofString, List.isPrefixOf, ch]
      rintro rfl
      exact absurd hd (by decide)
  have hne (d : ℕ) (hd : isDigit d = false) (hminus : d ≠ ch '-') : c ≠ d := by
    rintro rfl
    rcases hstart with hdigit | ⟨heq, -⟩
    · rw [hd] at hdigit
      cases hdigit
    · exact hminus heq
  simp only [scanOnce, if_neg (hne (ch '"') rfl (by decide)), if_neg (hne (ch '{') rfl (by decide)),
    if_neg (hne (ch '[') rfl (by decide)), hliteral, h]

/-! ### Layout -/

theorem skipWs_blanks {blanks : PyStr} (h : ∀ c ∈ blanks, isWs c = true) (s : PyStr) :
    skipWs (blanks ++ s) = skipWs s :=
  List.dropWhile_append_of_pos h

theorem isWs_of_mem_newline {indent : Option ℕ} {level : ℕ} :
    ∀ c ∈ newline indent level, isWs c = true := by
  intro c hc
  cases indent with
  | none => cases hc
  | some k =>
    rcases List.mem_cons.mp hc with rfl | hc
    · rfl
    · rw [List.eq_of_mem_replicate hc]
      rfl

/-- What stands between two items: a comma and blanks. -/
theorem itemSeparator_eq (indent : Option ℕ) (level : ℕ) :
    ∃ blanks, itemSeparator indent level = ch ',' :: blanks ∧ ∀ c ∈ blanks, isWs c = true := by
  cases indent with
  | none => exact ⟨[ch ' '], rfl, by decide⟩
  | some k => exact ⟨newline (some k) level, rfl, isWs_of_mem_newline⟩

theorem EndsNumber.blanks {blanks : PyStr} (h : ∀ c ∈ blanks, isWs c = true) {s : PyStr}
    (hs : EndsNumber s) :
    EndsNumber (blanks ++ s) := by
  intro c hc
  cases blanks with
  | nil => exact hs c hc
  | cons b blanks =>
    obtain rfl : b = c := Option.some.inj hc
    have hws := h b List.mem_cons_self
    simp only [isWs, Bool.or_eq_true, decide_eq_true_eq] at hws
    rcases hws with ((rfl | rfl) | rfl) | rfl <;> decide

theorem EndsNumber.cons {c : ℕ} (h : isDigit c = false ∧ c ≠ ch '.' ∧ c ≠ ch 'e' ∧ c ≠ ch 'E')
    (s : PyStr) :
    EndsNumber (c :: s) := by
  intro d hd
  obtain rfl : c = d := Option.some.inj hd
  exact h

/-- A value can begin here: neither a blank nor a closing bracket nor a byte order mark. -/
def StartsValue (s : PyStr) : Prop :=
  ∃ c t, s = c :: t ∧ isWs c = false ∧ c ≠ ch ']' ∧ c ≠ 0xFEFF

theorem StartsValue.cons {c : ℕ} (h : isWs c = false ∧ c ≠ ch ']' ∧ c ≠ 0xFEFF) (t : PyStr) :
    StartsValue (c :: t) := ⟨c, t, rfl, h⟩

theorem StartsValue.append {s : PyStr} (h : StartsValue s) (t : PyStr) : StartsValue (s ++ t) := by
  obtain ⟨c, s, rfl, hc⟩ := h
  exact ⟨c, s ++ t, rfl, hc⟩

theorem StartsValue.skipWs {s : PyStr} (h : StartsValue s) : skipWs s = s := by
  obtain ⟨c, t, rfl, hws, -⟩ := h
  exact List.dropWhile_cons_of_neg (by rw [hws]; decide)

theorem StartsValue.length_pos {s : PyStr} (h : StartsValue s) : 0 < s.length := by
  obtain ⟨c, t, rfl, -⟩ := h
  exact Nat.succ_pos _

theorem startsValue_of_scanNumber {s : PyStr} {r : PyVal × PyStr} (h : scanNumber s = .ok r) :
    StartsValue s := by
  obtain ⟨c, t, rfl, hstart⟩ := start_of_scanNumber h
  refine .cons ?_ t
  rcases hstart with hdigit | ⟨rfl, -⟩
  · have hnot (d : ℕ) (hd : isDigit d = false) : c ≠ d := by
      rintro rfl
      rw [hd] at hdigit
      cases hdigit
    refine ⟨?_, hnot _ rfl, hnot _ rfl⟩
    simp only [isWs, Bool.or_eq_false_iff, decide_eq_false_iff_not]
    exact ⟨⟨⟨hnot _ rfl, hnot _ rfl⟩, hnot _ rfl⟩, hnot _ rfl⟩
  · decide

/-! ### Values -/

/-- The float `q` occurs in a value. -/
inductive HasFloat (q : ℚ) : PyVal → Prop
  | float : HasFloat q (.float (.fin q))
  | list {xs : List PyVal} {x : PyVal} : x ∈ xs → HasFloat q x → HasFloat q (.list xs)
  | dict {items : List (PyStr × PyVal)} {k : PyStr} {v : PyVal} :
      (k, v) ∈ items → HasFloat q v → HasFloat q (.dict items)

section HasFloat

variable {q : ℚ}

@[simp] theorem hasFloat_null : ¬HasFloat q .null := fun h => by cases h

@[simp] theorem hasFloat_bool (b : Bool) : ¬HasFloat q (.bool b) := fun h => by cases h

@[simp] theorem hasFloat_int (n : ℤ) : ¬HasFloat q (.int n) := fun h => by cases h

@[simp] theorem hasFloat_str (s : PyStr) : ¬HasFloat q (.str s) := fun h => by cases h

@[simp] theorem hasFloat_float {x : PyFloat} : HasFloat q (.float x) ↔ x = .fin q := by
  constructor
  · rintro ⟨⟩
    rfl
  · rintro rfl
    exact .float

@[simp] theorem hasFloat_list {xs : List PyVal} :
    HasFloat q (.list xs) ↔ ∃ x ∈ xs, HasFloat q x := by
  constructor
  · rintro (_ | ⟨hx, h⟩)
    exact ⟨_, hx, h⟩
  · rintro ⟨x, hx, h⟩
    exact .list hx h

@[simp] theorem hasFloat_dict {items : List (PyStr × PyVal)} :
    HasFloat q (.dict items) ↔ ∃ kv ∈ items, HasFloat q kv.2 := by
  constructor
  · rintro (_ | _ | ⟨hkv, h⟩)
    exact ⟨_, hkv, h⟩
  · rintro ⟨⟨k, v⟩, hkv, h⟩
    exact .dict hkv h

end HasFloat

/-- A value that a decoder with `depth` levels of recursion left can return. -/
inductive Storable : ℕ → PyVal → Prop
  | null {depth : ℕ} : Storable depth .null
  | bool {depth : ℕ} (b : Bool) : Storable depth (.bool b)
  | int {depth : ℕ} {n : ℤ} : (natRepr n.natAbs).length ≤ maxStrDigits → Storable depth (.int n)
  | float {depth : ℕ} (x : PyFloat) : Storable depth (.float x)
  | str {depth : ℕ} (s : PyStr) : Storable depth (.str s)
  | list {depth : ℕ} {xs : List PyVal} : (∀ x ∈ xs, Storable depth x) →
    Storable (depth + 1) (.list xs)
  | dict {depth : ℕ} {items : List (PyStr × PyVal)} : (items.map Prod.fst).Nodup →
      (∀ kv ∈ items, Storable depth kv.2) → Storable (depth + 1) (.dict items)

theorem Storable.mono {depth depth' : ℕ} {v : PyVal} (h : Storable depth v) (hle : depth ≤ depth') :
    Storable depth' v := by
  induction h generalizing depth' with
  | null => exact .null
  | bool b => exact .bool b
  | int hdigits => exact .int hdigits
  | float x => exact .float x
  | str s => exact .str s
  | list _ ih =>
    obtain ⟨d, rfl⟩ := Nat.exists_eq_add_of_lt hle
    exact .list fun x hx => ih x hx (by omega)
  | dict hnodup _ ih =>
    obtain ⟨d, rfl⟩ := Nat.exists_eq_add_of_lt hle
    exact .dict hnodup fun kv hkv => ih kv hkv (by omega)

/-- What a dictionary holds is stored one level deeper. -/
theorem Storable.dict_inv {depth : ℕ} {items : List (PyStr × PyVal)}
    (h : Storable (depth + 1) (.dict items)) :
    (items.map Prod.fst).Nodup ∧ ∀ kv ∈ items, Storable depth kv.2 := by
  cases h with
  | dict hnodup hitems => exact ⟨hnodup, hitems⟩

theorem Storable.list_inv {depth : ℕ} {xs : List PyVal} (h : Storable (depth + 1) (.list xs)) :
    ∀ x ∈ xs, Storable depth x := by
  cases h with
  | list hxs => exact hxs

theorem Storable.of_mem_dict {depth : ℕ} {items : List (PyStr × PyVal)} {kv : PyStr × PyVal}
    (h : Storable depth (.dict items)) (hkv : kv ∈ items) : Storable depth kv.2 :=
  ((h.mono (Nat.le_succ _)).dict_inv.2 kv hkv)

section Written

variable {floatRepr : ℚ → PyStr} {indent : Option ℕ}

theorem startsValue_dumps {depth level : ℕ} {v : PyVal} (h : Storable depth v)
    (hfloat : ∀ q, HasFloat q v → ReadsBack (floatRepr q) q) :
    StartsValue (dumps floatRepr indent level v) := by
  cases h with
  | null => exact .cons (by decide) _
  | bool b => cases b <;> exact .cons (by decide) _
  | int hdigits =>
    have hscan := scanNumber_intRepr hdigits EndsNumber.nil
    rw [List.append_nil] at hscan
    exact startsValue_of_scanNumber hscan
  | float x =>
    cases x with
    | nan => exact .cons (by decide) _
    | inf neg => cases neg <;> exact .cons (by decide) _
    | fin q =>
      have hscan := hfloat q .float [] EndsNumber.nil
      rw [List.append_nil] at hscan
      exact startsValue_of_scanNumber hscan
  | str s => exact .cons (by decide) _
  | list hxs =>
    rw [dumps]
    split <;> exact .cons (by decide) _
  | dict hnodup hitems =>
    rw [dumps]
    split <;> exact .cons (by decide) _

/-- `v` is read back at `depth`, in front of anything that does not go on with a number. -/
def Recovered (floatRepr : ℚ → PyStr) (indent : Option ℕ) (depth : ℕ) (v : PyVal) : Prop :=
  ∀ (level n : ℕ) (rest : PyStr), (dumps floatRepr indent level v).length ≤ n → EndsNumber rest →
    scanOnce n depth (dumps floatRepr indent level v ++ rest) = .ok (v, rest)

/-- The elements of a list and the bracket behind them. -/
theorem parseElements_dumpsList {depth level : ℕ} {blanks : PyStr}
    (hblanks : ∀ c ∈ blanks, isWs c = true)
    (rest : PyStr) {xs : List PyVal} (hxs : ∀ x ∈ xs, Recovered floatRepr indent depth x)
    (hstarts : ∀ x ∈ xs, StartsValue (dumps floatRepr indent level x)) :
    ∀ {n : ℕ} (acc : List PyVal), xs ≠ [] → (dumpsList floatRepr indent level xs).length < n →
      parseElements n depth acc (dumpsList floatRepr indent level xs ++ (blanks ++ ch ']' :: rest)) =
        .ok (acc ++ xs, rest) := by
  induction xs with
  | nil => exact fun acc hne _ => absurd rfl hne
  | cons x xs ih =>
    intro n acc _ hn
    obtain ⟨hx, hxs⟩ := List.forall_mem_cons.mp hxs
    obtain ⟨hstart, hstarts⟩ := List.forall_mem_cons.mp hstarts
    cases n with
    | zero => exact absurd hn (Nat.not_lt_zero _)
    | succ n =>
      rw [dumpsList, List.length_append] at hn
      rw [dumpsList, List.append_assoc]
      cases xs with
      | nil =>
        have hvalue := hx level n (blanks ++ ch ']' :: rest) (by omega)
          (.blanks hblanks (.cons (by decide) rest))
        have hclose : skipWs (ch ']' :: rest) = ch ']' :: rest := rfl
        simp only [parseElements, List.isEmpty_nil, if_true, List.nil_append, hvalue,
          skipWs_blanks hblanks,
          hclose]
      | cons y ys =>
        obtain ⟨sep, hsep, hsepBlanks⟩ := itemSeparator_eq indent level
        have hnext : StartsValue (dumpsList floatRepr indent level (y :: ys)) := by
          rw [dumpsList]
          exact (hstarts y List.mem_cons_self).append _
        simp only [List.isEmpty_cons, Bool.false_eq_true, if_false, hsep, List.cons_append,
          List.length_cons,
          List.append_assoc, List.length_append] at hn ⊢
        have hpos := hstart.length_pos
        have hvalue := hx level n
          (ch ',' :: (sep ++ (dumpsList floatRepr indent level (y :: ys) ++ (blanks ++ ch ']' :: rest))))
          (by omega) (.cons (by decide) _)
        have hcomma (s : PyStr) : skipWs (ch ',' :: s) = ch ',' :: s := rfl
        simp only [parseElements, hvalue, hcomma, skipWs_blanks hsepBlanks, (hnext.append _).skipWs]
        rw [if_neg (by decide), if_pos trivial, ih hxs hstarts (acc ++ [x]) (List.cons_ne_nil y ys) (by omega),
          List.append_assoc, List.singleton_append]

theorem dictSet_of_not_mem {α : Type} {items : List (PyStr × α)} {k : PyStr}
    (h : k ∉ items.map Prod.fst) (v : α) :
    dictSet items k v = items ++ [(k, v)] := by
  induction items with
  | nil => rfl
  | cons kv items ih =>
    rw [List.map_cons, List.mem_cons, not_or] at h
    rw [dictSet, if_neg (Ne.symm h.1), ih h.2, List.cons_append]

/-- The members of a dictionary and the brace behind them. -/
theorem parseMembers_dumpsItems {depth level : ℕ} {blanks : PyStr}
    (hblanks : ∀ c ∈ blanks, isWs c = true)
    (rest : PyStr) {items : List (PyStr × PyVal)}
    (hitems : ∀ kv ∈ items, Recovered floatRepr indent depth kv.2)
    (hstarts : ∀ kv ∈ items, StartsValue (dumps floatRepr indent level kv.2)) :
    ∀ {n : ℕ} (acc : List (PyStr × PyVal)), items ≠ [] → ((acc ++ items).map Prod.fst).Nodup →
      (dumpsItems floatRepr indent level items).length < n →
        parseMembers n depth acc (dumpsItems floatRepr indent level items ++ (blanks ++ ch '}' :: rest)) =
          .ok (acc ++ items, rest) := by
  induction items with
  | nil => exact fun acc hne _ _ => absurd rfl hne
  | cons kv items ih =>
    obtain ⟨k, v⟩ := kv
    intro n acc _ hnodup hn
    obtain ⟨hv, hitems⟩ := List.forall_mem_cons.mp hitems
    obtain ⟨hstart, hstarts⟩ := List.forall_mem_cons.mp hstarts
    dsimp only at hv hstart
    have hfresh : dictSet acc k v = acc ++ [(k, v)] := by
      refine dictSet_of_not_mem (fun hk => ?_) v
      rw [List.map_append, List.map_cons, List.nodup_append] at hnodup
      exact hnodup.2.2 k hk k List.mem_cons_self rfl
    have hcolon (s : PyStr) : skipWs (ch ':' :: s) = ch ':' :: s := rfl
    have hblank (s : PyStr) : skipWs (ch ' ' :: s) = skipWs s := rfl
    have hsplit : PyStr.ofString ": " = [ch ':', ch ' '] := rfl
    cases n with
    | zero => exact absurd hn (Nat.not_lt_zero _)
    | succ n =>
      rw [dumpsItems, List.length_append, List.length_append] at hn
      simp only [dumpsItems, List.append_assoc, quote_append, hsplit, List.cons_append,
        List.nil_append]
      have hkey (s : PyStr) := scanString_quote k (ch ':' :: ch ' ' :: s)
      cases items with
      | nil =>
        have hvalue := hv level n (blanks ++ ch '}' :: rest) (by omega)
          (.blanks hblanks (.cons (by decide) rest))
        have hclose : skipWs (ch '}' :: rest) = ch '}' :: rest := rfl
        simp only [parseMembers, List.isEmpty_nil, if_true, List.nil_append, hkey, hcolon, hblank,
          (hstart.append _).skipWs, hvalue, skipWs_blanks hblanks, hclose, hfresh]
      | cons kv items =>
        obtain ⟨sep, hsep, hsepBlanks⟩ := itemSeparator_eq indent level
        have hnext : ∀ s, skipWs (dumpsItems floatRepr indent level (kv :: items) ++ s) =
            dumpsItems floatRepr indent level (kv :: items) ++ s := by
          intro s
          rw [dumpsItems, List.append_assoc, List.append_assoc, List.append_assoc, quote_append]
          rfl
        simp only [List.isEmpty_cons, Bool.false_eq_true, if_false, hsep, List.cons_append,
          List.length_cons,
          List.append_assoc, List.length_append] at hn ⊢
        have hpos := hstart.length_pos
        have hvalue := hv level n
          (ch ',' :: (sep ++ (dumpsItems floatRepr indent level (kv :: items) ++ (blanks ++ ch '}' :: rest))))
          (by omega) (.cons (by decide) _)
        have hcomma (s : PyStr) : skipWs (ch ',' :: s) = ch ',' :: s := rfl
        have hrest := ih hitems hstarts (n := n) (acc ++ [(k, v)]) (List.cons_ne_nil kv items)
          (by rwa [List.append_assoc, List.singleton_append]) (by omega)
        rw [List.append_assoc, List.singleton_append] at hrest
        simp only [parseMembers, hkey, hcolon, hblank, (hstart.append _).skipWs, hvalue, hcomma,
          skipWs_blanks hsepBlanks, hnext, hfresh]
        rw [if_pos trivial, if_pos trivial, if_neg (by decide), if_pos trivial, hrest]

theorem Recovered.of_succ {depth : ℕ} {v : PyVal}
    (hstart : ∀ level, StartsValue (dumps floatRepr indent level v))
    (h : ∀ level n rest, (dumps floatRepr indent level v).length ≤ n + 1 → EndsNumber rest →
      scanOnce (n + 1) depth (dumps floatRepr indent level v ++ rest) = .ok (v, rest)) :
    Recovered floatRepr indent depth v := by
  intro level n rest hn hrest
  cases n with
  | zero => exact absurd ((hstart level).length_pos.trans_le hn) (Nat.lt_irrefl 0)
  | succ n => exact h level n rest hn hrest

theorem recovered_list {depth : ℕ} {xs : List PyVal}
    (hxs : ∀ x ∈ xs, Recovered floatRepr indent depth x)
    (hstarts : ∀ x ∈ xs, ∀ level, StartsValue (dumps floatRepr indent level x))
    (hstart : ∀ level, StartsValue (dumps floatRepr indent level (.list xs))) :
    Recovered floatRepr indent (depth + 1) (.list xs) := by
  refine .of_succ hstart fun level n rest hn _ => ?_
  cases xs with
  | nil => rw [dumps]; rfl
  | cons x xs =>
    rw [dumps] at hn ⊢
    simp only [List.isEmpty_cons, Bool.false_eq_true, if_false, List.cons_append, List.append_assoc,
      List.nil_append, List.length_cons, List.length_append] at hn ⊢
    have hstarts (y : PyVal) (hy : y ∈ x :: xs) := hstarts y hy (level + 1)
    have hfirst : StartsValue (dumpsList floatRepr indent (level + 1) (x :: xs)) := by
      rw [dumpsList]
      exact (hstarts x List.mem_cons_self).append _
    have hblanks : ∀ c ∈ newline indent level, isWs c = true := isWs_of_mem_newline
    have helements := parseElements_dumpsList hblanks rest hxs hstarts (n := n) []
      (List.cons_ne_nil x xs) (by omega)
    have hopen : ∀ s, (dumpsList floatRepr indent (level + 1) (x :: xs) ++ s).head? ≠ some
        (ch ']') := by
      obtain ⟨c, t, heq, -, hbracket, -⟩ := hfirst
      intro s hs
      rw [heq] at hs
      exact hbracket (Option.some.inj hs)
    simp only [scanOnce, skipWs_blanks isWs_of_mem_newline, (hfirst.append _).skipWs,
      if_neg (hopen _), helements,
      List.nil_append]
    rfl

theorem recovered_dict {depth : ℕ} {items : List (PyStr × PyVal)}
    (hnodup : (items.map Prod.fst).Nodup)
    (hitems : ∀ kv ∈ items, Recovered floatRepr indent depth kv.2)
    (hstarts : ∀ kv ∈ items, ∀ level, StartsValue (dumps floatRepr indent level kv.2))
    (hstart : ∀ level, StartsValue (dumps floatRepr indent level (.dict items))) :
    Recovered floatRepr indent (depth + 1) (.dict items) := by
  refine .of_succ hstart fun level n rest hn _ => ?_
  cases items with
  | nil => rw [dumps]; rfl
  | cons kv items =>
    rw [dumps] at hn ⊢
    simp only [List.isEmpty_cons, Bool.false_eq_true, if_false, List.cons_append, List.append_assoc,
      List.nil_append, List.length_cons, List.length_append] at hn ⊢
    have hblanks : ∀ c ∈ newline indent level, isWs c = true := isWs_of_mem_newline
    have hmembers := parseMembers_dumpsItems hblanks rest hitems
      (fun kv hkv => hstarts kv hkv (level + 1)) (n := n) [] (List.cons_ne_nil kv items)
        hnodup (by omega)
    have hquote : ∀ s, ∃ t, dumpsItems floatRepr indent (level + 1) (kv :: items) ++ s =
        ch '"' :: t := by
      intro s
      rw [dumpsItems, List.append_assoc, List.append_assoc, List.append_assoc, quote_append]
      exact ⟨_, rfl⟩
    have hopen : ∀ s, skipWs (dumpsItems floatRepr indent (level + 1) (kv :: items) ++ s) =
        dumpsItems floatRepr indent (level + 1) (kv :: items) ++ s := by
      intro s
      obtain ⟨t, ht⟩ := hquote s
      rw [ht]
      rfl
    have hbrace : ∀ s, (dumpsItems floatRepr indent (level + 1) (kv :: items) ++ s).head? ≠ some
        (ch '}') := by
      intro s hs
      obtain ⟨t, ht⟩ := hquote s
      rw [ht] at hs
      exact absurd (Option.some.inj hs) (by decide)
    simp only [scanOnce, skipWs_blanks isWs_of_mem_newline, hopen, if_neg (hbrace _), hmembers,
      List.nil_append]
    rfl

theorem recovered_of_storable {depth : ℕ} {v : PyVal} (h : Storable depth v)
    (hfloat : ∀ q, HasFloat q v → ReadsBack (floatRepr q) q) :
    Recovered floatRepr indent depth v := by
  have hstart (level : ℕ) : StartsValue (dumps floatRepr indent level v) :=
    startsValue_dumps h hfloat
  induction h with
  | null =>
    refine .of_succ hstart fun level n rest _ _ => ?_
    rw [dumps]
    rfl
  | bool b =>
    refine .of_succ hstart fun level n rest _ _ => ?_
    cases b <;> rw [dumps] <;> rfl
  | int hdigits =>
    refine .of_succ hstart fun level n rest _ hrest => ?_
    rw [dumps]
    exact scanOnce_of_scanNumber (scanNumber_intRepr hdigits hrest) n _
  | float x =>
    refine .of_succ hstart fun level n rest _ hrest => ?_
    cases x with
    | nan => rw [dumps]; rfl
    | inf neg => cases neg <;> rw [dumps] <;> rfl
    | fin q =>
      rw [dumps]
      exact scanOnce_of_scanNumber (hfloat q .float rest hrest) n _
  | str s =>
    refine .of_succ hstart fun level n rest _ _ => ?_
    rw [dumps, quote_append]
    simp only [scanOnce, if_true, scanString_quote, Except.map]
  | list hxs ih =>
    have hstarts {x : PyVal} (hx : x ∈ _) (level : ℕ) :
        StartsValue (dumps floatRepr indent level x) :=
      startsValue_dumps (hxs x hx) fun q hq => hfloat q (.list hx hq)
    exact recovered_list (fun x hx => ih x hx (fun q hq => hfloat q (.list hx hq)) (hstarts hx))
      (fun x hx => hstarts hx) hstart
  | dict hnodup hitems ih =>
    have hstarts {kv : PyStr × PyVal} (hkv : kv ∈ _) (level : ℕ) :
        StartsValue (dumps floatRepr indent level kv.2) :=
      startsValue_dumps (hitems kv hkv) fun q hq => hfloat q (.dict hkv hq)
    exact recovered_dict hnodup
      (fun kv hkv => ih kv hkv (fun q hq => hfloat q (.dict hkv hq)) (hstarts hkv))
        (fun kv hkv => hstarts hkv)
      hstart

/-- **What was written is read back**, with blanks around it or not. -/
theorem loads_dumps {depth : ℕ} {v : PyVal} (h : Storable depth v)
    (hfloat : ∀ q, HasFloat q v → ReadsBack (floatRepr q) q) {before after : PyStr}
    (hbefore : ∀ c ∈ before, isWs c = true) (hafter : ∀ c ∈ after, isWs c = true) (level : ℕ) :
    loads depth (before ++ (dumps floatRepr indent level v ++ after)) = .ok v := by
  have hstart : StartsValue (dumps floatRepr indent level v) := startsValue_dumps h hfloat
  have hrecovered : Recovered floatRepr indent depth v := recovered_of_storable h hfloat
  have hscan := hrecovered level
    (2 * (before ++ (dumps floatRepr indent level v ++ after)).length + 1) (after ++ [])
    (by simp only [List.length_append]; omega) (.blanks hafter .nil)
  have hmark : (before ++ (dumps floatRepr indent level v ++ after)).head? ≠ some 0xFEFF := by
    intro hs
    cases before with
    | nil =>
      obtain ⟨c, t, heq, -, -, hc⟩ := hstart
      rw [List.nil_append, heq] at hs
      exact hc (Option.some.inj hs)
    | cons b before =>
      have hb := hbefore b List.mem_cons_self
      rw [Option.some.inj hs] at hb
      exact absurd hb (by decide)
  have hrest : skipWs after = [] := List.dropWhile_eq_nil_iff.mpr hafter
  rw [List.append_nil] at hscan
  rw [loads, if_neg hmark, skipWs_blanks hbefore, (hstart.append _).skipWs, hscan]
  exact if_pos hrest

end Written

/-! ### What was read -/

theorem digitsValue_lt {ds : PyStr} (h : ∀ c ∈ ds, isDigit c = true) :
    digitsValue ds < 10 ^ ds.length := by
  induction ds using List.reverseRecOn with
  | nil => exact Nat.one_pos
  | append_singleton ds c ih =>
    have hds := ih fun d hd => h d (List.mem_append_left _ hd)
    have hc := h c (List.mem_append_right _ List.mem_cons_self)
    simp only [isDigit, Bool.and_eq_true, decide_eq_true_eq] at hc
    have hzero : ch '0' = 48 := rfl
    have hnine : ch '9' = 57 := rfl
    rw [digitsValue, List.foldl_concat, List.length_append, List.length_singleton, Nat.pow_succ]
    change 10 * digitsValue ds + (c - ch '0') < _
    omega

theorem isDigit_of_mem_scanInt {s : PyStr} {c : ℕ} (h : c ∈ scanInt s) : isDigit c = true := by
  have hrun : ∀ d ∈ s.takeWhile isDigit, isDigit d = true := fun d hd => List.mem_takeWhile_imp hd
  rw [scanInt] at h
  split at h
  · cases h
  · next d ds heq =>
    rw [heq] at hrun
    split at h
    · exact List.mem_singleton.mp h ▸ hrun d List.mem_cons_self
    · exact hrun c h

theorem storable_of_scanUnsigned {sign : ℤ} (hsign : sign.natAbs = 1) {s rest : PyStr} {v : PyVal}
    (h : scanUnsigned sign s = .ok (v, rest)) (depth : ℕ) : Storable depth v := by
  simp only [scanUnsigned] at h
  split at h
  · cases h
  · split at h
    · split at h
      · cases h
      · next hle =>
        rw [← (Prod.mk.inj (Except.ok.inj h)).1]
        refine .int ?_
        have hlt := digitsValue_lt fun c hc => isDigit_of_mem_scanInt (s := s) hc
        rw [Int.natAbs_mul, hsign, Nat.one_mul, Int.natAbs_natCast, natRepr, List.length_map,
          Nat.length_toDigits_le_iff (by decide) (by decide)]
        exact hlt.trans_le (Nat.pow_le_pow_right (by decide) (not_lt.mp hle))
    · rw [← (Prod.mk.inj (Except.ok.inj h)).1]
      exact .float _

theorem storable_of_scanNumber {s rest : PyStr} {v : PyVal} (h : scanNumber s = .ok (v, rest))
    (depth : ℕ) :
    Storable depth v := by
  cases s with
  | nil => cases h
  | cons c s =>
    rw [scanNumber] at h
    split at h
    · exact storable_of_scanUnsigned rfl h depth
    · exact storable_of_scanUnsigned rfl h depth

theorem storable_of_scanLiteral {s rest : PyStr} {v : PyVal} (h : scanLiteral s = some (v, rest))
    (depth : ℕ) :
    Storable depth v := by
  obtain ⟨l, hl, heq⟩ := Option.map_eq_some_iff.mp h
  have hmem := List.mem_of_find?_eq_some hl
  rw [← (Prod.mk.inj heq).1]
  simp only [literals, List.mem_cons, List.not_mem_nil, or_false] at hmem
  rcases hmem with rfl | rfl | rfl | rfl | rfl | rfl
  · exact .null
  · exact .bool true
  · exact .bool false
  all_goals exact .float _

theorem map_fst_dictSet {α : Type} {items : List (PyStr × α)} {k : PyStr}
    (h : k ∈ items.map Prod.fst) (v : α) :
    (dictSet items k v).map Prod.fst = items.map Prod.fst := by
  induction items with
  | nil => cases h
  | cons kv items ih =>
    rw [dictSet]
    split
    · next heq => rw [List.map_cons, List.map_cons, heq]
    · next hne => rw [List.map_cons, List.map_cons, ih ((List.mem_cons.mp h).resolve_left (Ne.symm hne))]

theorem nodup_dictSet {α : Type} {items : List (PyStr × α)} (h : (items.map Prod.fst).Nodup)
    (k : PyStr) (v : α) :
    ((dictSet items k v).map Prod.fst).Nodup := by
  by_cases hk : k ∈ items.map Prod.fst
  · rwa [map_fst_dictSet hk]
  · rw [dictSet_of_not_mem hk, List.map_append, List.nodup_append]
    exact ⟨h, List.nodup_singleton k, fun a ha b hb hab => hk (by rwa [hab, List.mem_singleton.mp hb] at ha)⟩

theorem mem_dictSet {α : Type} {items : List (PyStr × α)} {k : PyStr} {v : α} {kv : PyStr × α}
    (h : kv ∈ dictSet items k v) : kv ∈ items ∨ kv = (k, v) := by
  induction items with
  | nil => exact .inr (List.mem_singleton.mp h)
  | cons kv' items ih =>
    rw [dictSet] at h
    split at h
    · exact (List.mem_cons.mp h).symm.imp_left (List.mem_cons_of_mem _)
    · rcases List.mem_cons.mp h with rfl | h
      · exact .inl List.mem_cons_self
      · exact (ih h).imp_left (List.mem_cons_of_mem _)

/-- What the scanner returns satisfies `P`. -/
def Returns {α : Type} (P : α → Prop) (scan : PyStr → Except ScanError (α × PyStr)) : Prop :=
  ∀ {s v rest}, scan s = .ok (v, rest) → P v

/-- Different keys and storable values. -/
def StorableItems (depth : ℕ) (items : List (PyStr × PyVal)) : Prop :=
  (items.map Prod.fst).Nodup ∧ ∀ kv ∈ items, Storable depth kv.2

theorem StorableItems.nil (depth : ℕ) : StorableItems depth [] :=
  ⟨List.nodup_nil, fun _ hkv => absurd hkv List.not_mem_nil⟩

theorem StorableItems.dictSet {depth : ℕ} {items : List (PyStr × PyVal)}
    (h : StorableItems depth items) {k : PyStr}
    {v : PyVal} (hv : Storable depth v) : StorableItems depth (dictSet items k v) := by
  refine ⟨nodup_dictSet h.1 k v, fun kv hkv => ?_⟩
  rcases mem_dictSet hkv with hkv | rfl
  · exact h.2 kv hkv
  · exact hv

theorem container_returns {α : Type} {Q : α → Prop} {P : PyVal → Prop}
    {scan : PyStr → Except ScanError (α × PyStr)} (hscan : Returns Q scan) {wrap : α → PyVal}
    (hwrap : ∀ a, Q a → P (wrap a)) {empty v : PyVal} (hempty : P empty) {close : ℕ}
    {t rest : PyStr}
    (h : (if (skipWs t).head? = some close then .ok (empty, (skipWs t).tail)
      else (scan (skipWs t)).map fun r => (wrap r.1, r.2)) = Except.ok (v, rest)) : P v := by
  split at h
  · exact (Prod.mk.inj (Except.ok.inj h)).1 ▸ hempty
  · obtain ⟨⟨a, _⟩, hs, heq⟩ := map_eq_ok.mp h
    exact (Prod.mk.inj heq).1 ▸ hwrap a (hscan hs)

theorem scanOnce_returns {n : ℕ}
    (hmembers : ∀ depth, Returns (StorableItems depth) (parseMembers n depth []))
    (helements : ∀ depth, Returns (fun xs => ∀ x ∈ xs, Storable depth x) (parseElements n depth []))
    (depth : ℕ) :
    Returns (Storable depth) (scanOnce (n + 1) depth) := by
  intro s v rest h
  cases s with
  | nil => simp [scanOnce] at h
  | cons c t =>
    simp only [scanOnce] at h
    split at h
    · obtain ⟨⟨a, _⟩, -, heq⟩ := map_eq_ok.mp h
      exact (Prod.mk.inj heq).1 ▸ .str a
    · split at h
      · cases depth with
        | zero => cases h
        | succ depth =>
          exact container_returns (hmembers depth) (fun _ hitems => .dict hitems.1 hitems.2)
            (.dict (StorableItems.nil depth).1 (StorableItems.nil depth).2) h
      · split at h
        · cases depth with
          | zero => cases h
          | succ depth =>
            exact container_returns (helements depth) (fun _ hxs => .list hxs)
              (.list fun _ hx => absurd hx List.not_mem_nil) h
        · split at h
          · next r hr =>
            rw [Except.ok.inj h] at hr
            exact storable_of_scanLiteral hr depth
          · exact storable_of_scanNumber h depth

theorem parseMembers_returns {n depth : ℕ} (hvalue : Returns (Storable depth) (scanOnce n depth))
    (hmembers : ∀ {acc}, StorableItems depth acc → Returns (StorableItems depth) (parseMembers n depth acc))
    {acc : List (PyStr × PyVal)} (hacc : StorableItems depth acc) :
    Returns (StorableItems depth) (parseMembers (n + 1) depth acc) := by
  intro s items rest h
  cases s with
  | nil => simp [parseMembers] at h
  | cons c t =>
    simp only [parseMembers] at h
    split at h
    · split at h
      · cases h
      · split at h
        · cases h
        · split at h
          · split at h
            · cases h
            · next v afterValue hv =>
              have hset (k : PyStr) := hacc.dictSet (k := k) (hvalue hv)
              split at h
              · cases h
              · split at h
                · exact (Prod.mk.inj (Except.ok.inj h)).1 ▸ hset _
                · split at h
                  · exact hmembers (hset _) h
                  · cases h
          · cases h
    · cases h

theorem parseElements_returns {n depth : ℕ} (hvalue : Returns (Storable depth) (scanOnce n depth))
    (helements : ∀ {acc : List PyVal}, (∀ x ∈ acc, Storable depth x) →
      Returns (fun xs => ∀ x ∈ xs, Storable depth x) (parseElements n depth acc))
    {acc : List PyVal} (hacc : ∀ x ∈ acc, Storable depth x) :
    Returns (fun xs => ∀ x ∈ xs, Storable depth x) (parseElements (n + 1) depth acc) := by
  intro s xs rest h
  simp only [parseElements] at h
  split at h
  · cases h
  · next v afterValue hv =>
    have happend : ∀ x ∈ acc ++ [v], Storable depth x := by
      intro x hx
      rcases List.mem_append.mp hx with hx | hx
      · exact hacc x hx
      · exact List.mem_singleton.mp hx ▸ hvalue hv
    split at h
    · cases h
    · split at h
      · exact (Prod.mk.inj (Except.ok.inj h)).1 ▸ happend
      · split at h
        · exact helements happend h
        · cases h

theorem scan_returns (n : ℕ) :
    (∀ depth, Returns (Storable depth) (scanOnce n depth)) ∧
      (∀ depth acc, StorableItems depth acc → Returns (StorableItems depth) (parseMembers n depth acc)) ∧
        ∀ depth (acc : List PyVal), (∀ x ∈ acc, Storable depth x) →
          Returns (fun xs => ∀ x ∈ xs, Storable depth x) (parseElements n depth acc) := by
  induction n with
  | zero => simp [Returns, scanOnce, parseMembers, parseElements]
  | succ n ih =>
    obtain ⟨hvalue, hmembers, helements⟩ := ih
    refine ⟨scanOnce_returns (fun depth => hmembers depth [] (.nil depth)) fun depth => helements depth [] ?_,
      fun depth acc hacc => parseMembers_returns (hvalue depth) (hmembers depth _) hacc,
      fun depth acc hacc => parseElements_returns (hvalue depth) (helements depth _) hacc⟩
    exact fun _ hx => absurd hx List.not_mem_nil

/-- **What was read can be stored.** -/
theorem storable_of_loads {depth : ℕ} {s : PyStr} {v : PyVal} (h : loads depth s = .ok v) :
    Storable depth v := by
  rw [loads] at h
  split at h
  · cases h
  · split at h
    · cases h
    · next hscan =>
      split at h
      · exact Except.ok.inj h ▸ (scan_returns _).1 depth hscan
      · cases h

/-- **Exactly the storable values survive** being written and read. -/
theorem loads_dumps_iff {floatRepr : ℚ → PyStr} {v : PyVal}
    (hfloat : ∀ q, HasFloat q v → ReadsBack (floatRepr q) q)
    (depth : ℕ) (indent : Option ℕ) (level : ℕ) :
    loads depth (dumps floatRepr indent level v) = .ok v ↔ Storable depth v := by
  refine ⟨storable_of_loads, fun h => ?_⟩
  have hloads : loads depth ([] ++ (dumps floatRepr indent level v ++ [])) = .ok v :=
    loads_dumps h hfloat (List.forall_mem_nil _) (List.forall_mem_nil _) level
  rwa [List.nil_append, List.append_nil] at hloads

end Python

end ToolAgent
