import ToolAgent.Python.RoundTrip

/-!
# Documents that are cut short

A file can be cut short while a document is written to it. A number that is cut short can still be
one, but an object has to be closed: what the decoder has read of a text does not change when the
text goes on, so a text in which it finds a whole object has nothing but blanks behind that object.

## Main definitions

* `Persists` — a scanner reads the same when the text goes on

## Main results

* `scan_persists` — members and elements are read the same, and values that have an end
* `loads_cut_short` — an object that is cut short is not read
-/

namespace ToolAgent

namespace Python

/-- What `scan` has read, `scan'` reads when the text goes on. -/
def Persists {α : Type} (scan scan' : PyStr → Except ScanError (α × PyStr)) : Prop :=
  ∀ {s v rest}, scan s = .ok (v, rest) → ∀ more, scan' (s ++ more) = .ok (v, rest ++ more)

/-! ### Strings that go on -/

theorem hex4_append {s rest : PyStr} {u : ℕ} (h : hex4 s = some (u, rest)) (more : PyStr) :
    hex4 (s ++ more) = some (u, rest ++ more) := by
  rcases s with - | ⟨a, - | ⟨b, - | ⟨c, - | ⟨d, s⟩⟩⟩⟩
  iterate 4 cases h
  simp only [hex4, Option.bind_eq_bind, Option.bind_eq_some_iff, Option.some.injEq,
    Prod.mk.injEq] at h
  obtain ⟨a', ha, b', hb, c', hc, d', hd, rfl, rfl⟩ := h
  simp only [List.cons_append, hex4, ha, hb, hc, hd, Option.bind_eq_bind, Option.bind_some]

theorem lowSurrogate?_append {s rest : PyStr} {l : ℕ} (h : lowSurrogate? s = some (l, rest))
    (more : PyStr) : lowSurrogate? (s ++ more) = some (l, rest ++ more) := by
  rcases s with - | ⟨a, - | ⟨b, s⟩⟩
  iterate 2 cases h
  simp only [lowSurrogate?] at h
  split at h
  · next hescape =>
    split at h
    · next c r hr =>
      split at h
      · next hlow =>
        simp only [Option.some.injEq, Prod.mk.injEq] at h
        obtain ⟨rfl, rfl⟩ := h
        simp only [List.cons_append, lowSurrogate?, if_pos hescape, hex4_append hr, if_pos hlow]
      · cases h
    · cases h
  · cases h

theorem lowSurrogate?_of_ne {a : ℕ} (h : a ≠ ch '\\') (s : PyStr) :
    lowSurrogate? (a :: s) = none := by
  cases s with
  | nil => rfl
  | cons b s => rw [lowSurrogate?, if_neg fun hescape => h hescape.1]

/-- A high surrogate stays alone, if a string ends behind it. -/
theorem lowSurrogate?_append_none {n : ℕ} {s : PyStr} {r : PyStr × PyStr}
    (h : lowSurrogate? s = none) (hs : scanString n s = .ok r) (more : PyStr) :
    lowSurrogate? (s ++ more) = none := by
  cases n with
  | zero => cases hs
  | succ n =>
    cases s with
    | nil => cases hs
    | cons a s =>
      by_cases hbackslash : a = ch '\\'
      · rw [scanString, if_neg (hbackslash ▸ by decide), if_pos hbackslash] at hs
        cases s with
        | nil => cases hs
        | cons b s =>
          by_cases hu : b = ch 'u'
          · rw [scanEscape, if_pos hu] at hs
            cases hhex : hex4 s with
            | none =>
              rw [hhex] at hs
              cases hs
            | some p =>
              obtain ⟨c, rest⟩ := p
              rw [lowSurrogate?, if_pos ⟨hbackslash, hu⟩, hhex] at h
              rw [List.cons_append, List.cons_append, lowSurrogate?, if_pos ⟨hbackslash, hu⟩,
                hex4_append hhex]
              dsimp only at h ⊢
              split at h
              · cases h
              · next hlow => rw [if_neg hlow]
          · rw [List.cons_append, List.cons_append, lowSurrogate?, if_neg fun hescape => hu hescape.2]
      · exact lowSurrogate?_of_ne hbackslash _

theorem scanEscape_append {n c : ℕ} {s rest : PyStr} {r : PyStr × PyStr}
    (h : scanEscape s = .ok (c, rest)) (hrest : scanString n rest = .ok r) (more : PyStr) :
    scanEscape (s ++ more) = .ok (c, rest ++ more) := by
  cases s with
  | nil => cases h
  | cons a s =>
    rw [List.cons_append]
    simp only [scanEscape] at h ⊢
    split at h
    · next hu =>
      rw [if_pos hu]
      split at h
      · cases h
      · next u after hhex =>
        simp only [hex4_append hhex]
        split at h
        · next hhigh =>
          rw [if_pos hhigh]
          split at h
          · next l after' hlow =>
            simp only [Except.ok.injEq, Prod.mk.injEq] at h
            obtain ⟨rfl, rfl⟩ := h
            simp only [lowSurrogate?_append hlow]
          · next hlow =>
            simp only [Except.ok.injEq, Prod.mk.injEq] at h
            obtain ⟨rfl, rfl⟩ := h
            simp only [lowSurrogate?_append_none hlow hrest]
        · next hhigh =>
          rw [if_neg hhigh]
          simp only [Except.ok.injEq, Prod.mk.injEq] at h
          obtain ⟨rfl, rfl⟩ := h
          rfl
    · next hu =>
      rw [if_neg hu]
      split at h
      · next e he =>
        simp only [Except.ok.injEq, Prod.mk.injEq] at h
        obtain ⟨rfl, rfl⟩ := h
        rfl
      · cases h

theorem scanString_persists : ∀ {n m : ℕ}, n ≤ m → Persists (scanString n) (scanString m) := by
  intro n
  induction n with
  | zero =>
    intro m _ s v rest h
    cases h
  | succ n ih =>
    intro m hm s v rest h more
    obtain ⟨m, rfl⟩ := Nat.exists_eq_add_of_le' (Nat.one_le_of_lt hm)
    have hle : n ≤ m := Nat.le_of_succ_le_succ hm
    cases s with
    | nil => cases h
    | cons c s =>
      rw [List.cons_append]
      simp only [scanString] at h ⊢
      split at h
      · next hquote =>
        rw [if_pos hquote]
        simp only [Except.ok.injEq, Prod.mk.injEq] at h
        obtain ⟨rfl, rfl⟩ := h
        rfl
      · next hquote =>
        rw [if_neg hquote]
        split at h
        · next hbackslash =>
          rw [if_pos hbackslash]
          split at h
          · cases h
          · next d after hescape =>
            obtain ⟨⟨t, r⟩, hs, heq⟩ := map_eq_ok.mp h
            obtain ⟨rfl, rfl⟩ := Prod.mk.inj heq
            simp only [scanEscape_append hescape hs, ih hle hs more]
            rfl
        · next hbackslash =>
          rw [if_neg hbackslash]
          split at h
          · cases h
          · next hcontrol =>
            rw [if_neg hcontrol]
            obtain ⟨⟨t, r⟩, hs, heq⟩ := map_eq_ok.mp h
            obtain ⟨rfl, rfl⟩ := Prod.mk.inj heq
            rw [ih hle hs more]
            rfl

/-! ### Numbers that have an end -/

/-- Something follows that is not read as part of a number. -/
def Ended (rest : PyStr) : Prop := rest ≠ [] ∧ EndsNumber rest

theorem EndsNumber.append {rest : PyStr} (h : EndsNumber rest) (hne : rest ≠ []) (more : PyStr) :
    EndsNumber (rest ++ more) := by
  cases rest with
  | nil => exact absurd rfl hne
  | cons c rest => exact h

theorem Ended.append {rest : PyStr} (h : Ended rest) (more : PyStr) : Ended (rest ++ more) :=
  ⟨List.append_ne_nil_of_left_ne_nil h.1 more, h.2.append h.1 more⟩

theorem digits_append {s : PyStr} (h : s.dropWhile isDigit ≠ []) (more : PyStr) :
    (s ++ more).takeWhile isDigit = s.takeWhile isDigit ∧
      (s ++ more).dropWhile isDigit = s.dropWhile isDigit ++ more := by
  have hlength : (s.takeWhile isDigit).length ≠ s.length := by
    intro hlength
    have hall := congrArg List.length (List.takeWhile_append_dropWhile (p := isDigit) (l := s))
    rw [List.length_append, hlength] at hall
    exact h (List.length_eq_zero_iff.mp (by omega))
  rw [List.takeWhile_append, if_neg hlength, List.dropWhile_append,
    if_neg (by simpa using h)]
  exact ⟨rfl, rfl⟩

theorem scanFrac_append {s : PyStr} (hne : (scanFrac s).2 ≠ [])
    (hend : (scanFrac s).1 = [] → s.head? ≠ some (ch '.')) (more : PyStr) :
    scanFrac (s ++ more) = ((scanFrac s).1, (scanFrac s).2 ++ more) := by
  cases s with
  | nil => exact absurd rfl hne
  | cons c s =>
    rw [List.cons_append]
    by_cases hdot : c = ch '.' ∧ s.takeWhile isDigit ≠ []
    · rw [scanFrac, if_pos hdot] at hne
      obtain ⟨htake, hdrop⟩ := digits_append hne more
      rw [scanFrac, scanFrac, htake, hdrop, if_pos hdot, if_pos hdot]
    · have hc : c ≠ ch '.' := by
        rw [scanFrac, if_neg hdot] at hend
        exact fun hc => hend rfl (congrArg some hc)
      rw [scanFrac, scanFrac, if_neg hdot, if_neg fun h => hc h.1]
      rfl

theorem scanExpDigits_append {sign e : ℤ} {s rest : PyStr}
    (h : scanExpDigits sign s = some (e, rest)) (hne : rest ≠ []) (more : PyStr) :
    scanExpDigits sign (s ++ more) = some (e, rest ++ more) := by
  rw [scanExpDigits] at h
  split at h
  · cases h
  · next hdigits =>
    simp only [Option.some.injEq, Prod.mk.injEq] at h
    obtain ⟨rfl, rfl⟩ := h
    obtain ⟨htake, hdrop⟩ := digits_append hne more
    rw [scanExpDigits, htake, hdrop, if_neg hdigits]

theorem scanExp_append {e : ℤ} {s rest : PyStr} (h : scanExp s = some (e, rest)) (hne : rest ≠ [])
    (more : PyStr) : scanExp (s ++ more) = some (e, rest ++ more) := by
  rcases s with - | ⟨c, - | ⟨d, s⟩⟩
  · cases h
  · simp only [scanExp] at h
    split at h
    · cases h
    · cases h
  · rw [List.cons_append, List.cons_append]
    simp only [scanExp] at h ⊢
    split at h
    · next he =>
      rw [if_pos he]
      split at h
      · next hplus =>
        rw [if_pos hplus]
        exact scanExpDigits_append h hne more
      · next hplus =>
        rw [if_neg hplus]
        split at h
        · next hminus =>
          rw [if_pos hminus]
          exact scanExpDigits_append h hne more
        · next hminus =>
          rw [if_neg hminus]
          exact scanExpDigits_append h hne more
    · cases h

theorem scanInt_append {s : PyStr} (h : s.dropWhile isDigit ≠ []) (more : PyStr) :
    scanInt (s ++ more) = scanInt s := by
  rw [scanInt, scanInt, (digits_append h more).1]

theorem scanFrac_eq_self {s : PyStr} (h : (scanFrac s).1 = []) : scanFrac s = ([], s) := by
  cases s with
  | nil => rfl
  | cons c s =>
    rw [scanFrac] at h ⊢
    split at h
    · next hdot => exact absurd h hdot.2
    · next hdot => rw [if_neg hdot]

/-- Fraction and exponent, when something else follows. -/
theorem scanTail_append {s rest : PyStr}
    (h : ((scanExp (scanFrac s).2).getD (0, (scanFrac s).2)).2 = rest) (hrest : Ended rest)
    (more : PyStr) :
    scanFrac (s ++ more) = ((scanFrac s).1, (scanFrac s).2 ++ more) ∧
      scanExp ((scanFrac s).2 ++ more) =
        (scanExp (scanFrac s).2).map fun p => (p.1, p.2 ++ more) := by
  cases hexp : scanExp (scanFrac s).2 with
  | none =>
    rw [hexp, Option.getD_none] at h
    dsimp only at h
    rw [h, (hrest.append more).2.scanExp_eq]
    refine ⟨h ▸ scanFrac_append (h ▸ hrest.1) (fun hnil hdot => ?_) more, rfl⟩
    rw [scanFrac_eq_self hnil] at h
    exact (hrest.2 _ (h ▸ hdot)).2.1 rfl
  | some p =>
    obtain ⟨e, r⟩ := p
    rw [hexp, Option.getD_some] at h
    dsimp only at h
    have hlength := scanExp_length_le hexp
    have hpos := List.length_pos_iff.mpr (h ▸ hrest.1)
    refine ⟨scanFrac_append (List.length_pos_iff.mp (by omega)) (fun hnil hdot => ?_) more,
      scanExp_append hexp (h ▸ hrest.1) more⟩
    -- a dot without a digit behind it ends the number
    rw [scanFrac_eq_self hnil] at hexp
    obtain ⟨t, rfl⟩ := List.head?_eq_some_iff.mp hdot
    cases hexp

/-- What a number leaves is what is left behind its fraction and its exponent. -/
theorem scanUnsigned_rest {sign : ℤ} {s rest : PyStr} {v : PyVal}
    (h : scanUnsigned sign s = .ok (v, rest)) :
    ((scanExp (scanFrac (s.drop (scanInt s).length)).2).getD
      (0, (scanFrac (s.drop (scanInt s).length)).2)).2 = rest := by
  simp only [scanUnsigned] at h
  split at h
  · cases h
  · split at h
    · next hnone =>
      split at h
      · cases h
      · rw [hnone.2]
        exact (Prod.mk.inj (Except.ok.inj h)).2
    · exact (Prod.mk.inj (Except.ok.inj h)).2

/-- The digits of a text without anything else would be followed by a digit or by nothing. -/
theorem dropWhile_isDigit_ne_nil {s rest : PyStr} {n : ℕ}
    (h : ((scanExp (scanFrac (s.drop n)).2).getD (0, (scanFrac (s.drop n)).2)).2 = rest)
    (hrest : Ended rest) : s.dropWhile isDigit ≠ [] := by
  intro hnil
  have hall : ∀ c ∈ s.drop n, isDigit c = true := fun c hc =>
    List.dropWhile_eq_nil_iff.mp hnil c (List.mem_of_mem_drop hc)
  generalize s.drop n = x at h hall
  cases x with
  | nil => exact hrest.1 h.symm
  | cons c x =>
    have hc := hall c List.mem_cons_self
    have hstart : c ≠ ch '.' ∧ c ≠ ch 'e' ∧ c ≠ ch 'E' := by
      refine ⟨?_, ?_, ?_⟩ <;> rintro rfl <;> exact absurd hc (by decide)
    rw [scanFrac, if_neg fun hdot => hstart.1 hdot.1] at h
    have hexp : scanExp (c :: x) = none := by
      simp only [scanExp, if_neg (not_or.mpr hstart.2)]
    rw [hexp, Option.getD_none] at h
    rw [← h] at hrest
    exact absurd ((hrest.2 c rfl).1.symm.trans hc) Bool.false_ne_true

theorem scanUnsigned_append {sign : ℤ} {s rest : PyStr} {v : PyVal}
    (h : scanUnsigned sign s = .ok (v, rest)) (hrest : Ended rest) (more : PyStr) :
    scanUnsigned sign (s ++ more) = .ok (v, rest ++ more) := by
  have hbehind := scanUnsigned_rest h
  have hdigits : s.dropWhile isDigit ≠ [] := dropWhile_isDigit_ne_nil hbehind hrest
  have hdrop : (s ++ more).drop (scanInt s).length = s.drop (scanInt s).length ++ more :=
    List.drop_append_of_le_length (scanInt_length_le s)
  obtain ⟨hfrac, hexp⟩ := scanTail_append hbehind hrest more
  simp only [scanUnsigned, scanInt_append hdigits, hdrop, hfrac, hexp, Option.map_eq_none_iff] at h ⊢
  split at h
  · cases h
  · next hint =>
    rw [if_neg hint]
    split at h
    · next hnone =>
      rw [if_pos hnone]
      split at h
      · cases h
      · next hshort =>
        rw [if_neg hshort]
        obtain ⟨rfl, hr⟩ := Prod.mk.inj (Except.ok.inj h)
        rw [hr]
    · next hsome =>
      rw [if_neg hsome]
      obtain ⟨hv, hr⟩ := Prod.mk.inj (Except.ok.inj h)
      cases hp : scanExp (scanFrac (s.drop (scanInt s).length)).2 with
      | none =>
        rw [hp] at hv hr
        simp only [Option.map_none, Option.getD_none] at hv hr ⊢
        rw [hv, hr]
      | some p =>
        rw [hp] at hv hr
        simp only [Option.map_some, Option.getD_some] at hv hr ⊢
        rw [hv, hr]

theorem scanNumber_append {s rest : PyStr} {v : PyVal} (h : scanNumber s = .ok (v, rest))
    (hrest : Ended rest) (more : PyStr) : scanNumber (s ++ more) = .ok (v, rest ++ more) := by
  cases s with
  | nil => cases h
  | cons c s =>
    rw [List.cons_append]
    simp only [scanNumber] at h ⊢
    split at h
    · next hminus =>
      rw [if_pos hminus]
      exact scanUnsigned_append h hrest more
    · next hminus =>
      rw [if_neg hminus]
      exact scanUnsigned_append h hrest more

theorem scanLiteral_append {s rest : PyStr} {v : PyVal} (h : scanLiteral s = some (v, rest))
    (more : PyStr) : scanLiteral (s ++ more) = some (v, rest ++ more) := by
  obtain ⟨l, hl, heq⟩ := Option.map_eq_some_iff.mp h
  have hmem := List.mem_of_find?_eq_some hl
  have hstart : l.1.isPrefixOf s = true :=
    List.find?_some (p := fun l : PyStr × PyVal => l.1.isPrefixOf s) hl
  obtain ⟨t, rfl⟩ := List.isPrefixOf_iff_prefix.mp hstart
  rw [List.drop_left] at heq
  obtain ⟨rfl, rfl⟩ := Prod.mk.inj heq
  simp only [literals, List.mem_cons, List.not_mem_nil, or_false] at hmem
  rcases hmem with rfl | rfl | rfl | rfl | rfl | rfl <;> rfl

/-! ### Containers that go on -/

theorem skipWs_append {s t : PyStr} {c : ℕ} (h : skipWs s = c :: t) (more : PyStr) :
    skipWs (s ++ more) = c :: (t ++ more) := by
  have hne : (skipWs s).isEmpty = false := by rw [h]; rfl
  rw [skipWs, List.dropWhile_append, if_neg (by rw [← skipWs, hne]; exact Bool.false_ne_true),
    ← skipWs, h, List.cons_append]

/-- A scanner that has read something did not start at the end. -/
theorem Consumes.ne_nil {α : Type} {scan : PyStr → Except ScanError (α × PyStr)}
    (hconsumes : Consumes scan) {s rest : PyStr} {a : α} (h : scan s = .ok (a, rest)) : s ≠ [] := by
  rintro rfl
  exact absurd (hconsumes h) (Nat.not_lt_zero _)

/-- The blanks before something are the same ones when the text goes on. -/
theorem skipWs_append_of_ne {s : PyStr} (h : skipWs s ≠ []) (more : PyStr) :
    skipWs (s ++ more) = skipWs s ++ more := by
  obtain ⟨c, t, hs⟩ := List.exists_cons_of_ne_nil h
  rw [skipWs_append hs, hs, List.cons_append]

/-- A comma or a closing bracket is no part of a number. -/
theorem Ended.of_skipWs {s t : PyStr} {c : ℕ} (h : skipWs s = c :: t)
    (hc : isDigit c = false ∧ c ≠ ch '.' ∧ c ≠ ch 'e' ∧ c ≠ ch 'E') : Ended s := by
  have hs : s = s.takeWhile isWs ++ c :: t := by
    rw [← h, skipWs, List.takeWhile_append_dropWhile]
  refine ⟨?_, ?_⟩
  · rintro rfl
    cases h
  · rw [hs]
    exact .blanks (fun c hc => List.mem_takeWhile_imp hc) (.cons hc t)

/-- An object or an array behind its opening bracket. -/
theorem container_append {α : Type} {scan scan' : PyStr → Except ScanError (α × PyStr)}
    (hscan : Persists scan scan') (hconsumes : Consumes scan) {wrap : α → PyVal}
    {empty v : PyVal} {close : ℕ} {t rest : PyStr}
    (h : (if (skipWs t).head? = some close then .ok (empty, (skipWs t).tail)
      else (scan (skipWs t)).map fun r => (wrap r.1, r.2)) = Except.ok (v, rest)) (more : PyStr) :
    (if (skipWs (t ++ more)).head? = some close then .ok (empty, (skipWs (t ++ more)).tail)
      else (scan' (skipWs (t ++ more))).map fun r => (wrap r.1, r.2)) =
        Except.ok (v, rest ++ more) := by
  split at h
  · next hclose =>
    obtain ⟨t', ht⟩ := List.head?_eq_some_iff.mp hclose
    obtain ⟨rfl, rfl⟩ := Prod.mk.inj (Except.ok.inj h)
    rw [skipWs_append ht, ht]
    exact if_pos rfl
  · next hclose =>
    obtain ⟨⟨a, r⟩, hs, heq⟩ := map_eq_ok.mp h
    obtain ⟨rfl, rfl⟩ := Prod.mk.inj heq
    have hne : skipWs t ≠ [] := hconsumes.ne_nil hs
    rw [skipWs_append_of_ne hne, if_neg (by rwa [List.head?_append_of_ne_nil _ hne]), hscan hs more]
    rfl

/-- What is read of `s` is an object, or something else follows. -/
def Closed (s rest : PyStr) : Prop := s.head? = some (ch '{') ∨ Ended rest

/-- `Persists` for values: a number has to have an end. -/
def PersistsClosed (scan scan' : PyStr → Except ScanError (PyVal × PyStr)) : Prop :=
  ∀ {s v rest}, scan s = .ok (v, rest) → Closed s rest → ∀ more,
    scan' (s ++ more) = .ok (v, rest ++ more)

theorem scanOnce_append {n m : ℕ}
    (hmembers : ∀ depth, Persists (parseMembers n depth []) (parseMembers m depth []))
    (helements : ∀ depth, Persists (parseElements n depth []) (parseElements m depth []))
    (depth : ℕ) : PersistsClosed (scanOnce (n + 1) depth) (scanOnce (m + 1) depth) := by
  intro s v rest h hclosed more
  cases s with
  | nil => cases h
  | cons c s =>
    rw [List.cons_append]
    simp only [scanOnce] at h ⊢
    split at h
    · next hquote =>
      rw [if_pos hquote]
      obtain ⟨⟨t, r⟩, hs, heq⟩ := map_eq_ok.mp h
      obtain ⟨rfl, rfl⟩ := Prod.mk.inj heq
      rw [scanString_persists (by rw [List.length_append]; omega) hs more]
      rfl
    · next hquote =>
      rw [if_neg hquote]
      split at h
      · next hbrace =>
        rw [if_pos hbrace]
        cases depth with
        | zero => cases h
        | succ depth =>
          exact container_append (hmembers depth) ((scan_consumes n).2.1 depth []) h more
      · next hbrace =>
        rw [if_neg hbrace]
        split at h
        · next hbracket =>
          rw [if_pos hbracket]
          cases depth with
          | zero => cases h
          | succ depth =>
            exact container_append (helements depth) ((scan_consumes n).2.2 depth []) h more
        · next hbracket =>
          rw [if_neg hbracket]
          split at h
          · next r hr =>
            obtain ⟨a, b⟩ := r
            obtain ⟨rfl, rfl⟩ := Prod.mk.inj (Except.ok.inj h)
            rw [← List.cons_append, scanLiteral_append hr more]
          · have hended : Ended rest := hclosed.resolve_left fun hopen =>
              hbrace (Option.some.inj hopen)
            have hnumber := scanNumber_append h hended more
            have hscan := scanOnce_of_scanNumber hnumber m depth
            rw [List.cons_append] at hscan
            simp only [scanOnce, if_neg hquote, if_neg hbrace, if_neg hbracket] at hscan
            exact hscan

theorem parseMembers_append {n m : ℕ}
    (hvalue : ∀ depth, PersistsClosed (scanOnce n depth) (scanOnce m depth))
    (hmembers : ∀ depth acc, Persists (parseMembers n depth acc) (parseMembers m depth acc))
    (depth : ℕ) (acc : List (PyStr × PyVal)) :
    Persists (parseMembers (n + 1) depth acc) (parseMembers (m + 1) depth acc) := by
  intro s kvs rest h more
  cases s with
  | nil => cases h
  | cons c s =>
    rw [List.cons_append]
    simp only [parseMembers] at h ⊢
    split at h
    · next hquote =>
      rw [if_pos hquote]
      split at h
      · cases h
      · next k afterKey hkey =>
        have hkey' := scanString_persists (m := (s ++ more).length + 1)
          (by rw [List.length_append]; omega) hkey more
        simp only [hkey']
        split at h
        · cases h
        · next c₂ afterColon hcolon =>
          simp only [skipWs_append hcolon more]
          split at h
          · next hcolon' =>
            rw [if_pos hcolon']
            split at h
            · cases h
            · next v afterValue hv =>
              split at h
              · cases h
              · next c₃ afterComma hcomma =>
                have hvalue' : c₃ = ch '}' ∨ c₃ = ch ',' →
                    scanOnce m depth (skipWs (afterColon ++ more)) =
                      .ok (v, afterValue ++ more) := by
                  intro hc₃
                  have hended : Ended afterValue :=
                    .of_skipWs hcomma (by rcases hc₃ with rfl | rfl <;> decide)
                  rw [skipWs_append_of_ne (Consumes.ne_nil ((scan_consumes n).1 depth) hv)]
                  exact hvalue depth hv (.inr hended) more
                split at h
                · next hbrace =>
                  obtain ⟨rfl, rfl⟩ := Prod.mk.inj (Except.ok.inj h)
                  simp only [hvalue' (.inl hbrace), skipWs_append hcomma more, if_pos hbrace]
                · next hbrace =>
                  split at h
                  · next hnext =>
                    have hne : skipWs afterComma ≠ [] :=
                      Consumes.ne_nil ((scan_consumes n).2.1 depth _) h
                    simp only [hvalue' (.inr hnext), skipWs_append hcomma more, if_neg hbrace,
                      if_pos hnext, skipWs_append_of_ne hne]
                    exact hmembers depth _ h more
                  · cases h
          · cases h
    · cases h

theorem parseElements_append {n m : ℕ}
    (hvalue : ∀ depth, PersistsClosed (scanOnce n depth) (scanOnce m depth))
    (helements : ∀ depth acc, Persists (parseElements n depth acc) (parseElements m depth acc))
    (depth : ℕ) (acc : List PyVal) :
    Persists (parseElements (n + 1) depth acc) (parseElements (m + 1) depth acc) := by
  intro s vs rest h more
  simp only [parseElements] at h ⊢
  split at h
  · cases h
  · next v afterValue hv =>
    split at h
    · cases h
    · next c afterComma hcomma =>
      have hvalue' : c = ch ']' ∨ c = ch ',' →
          scanOnce m depth (s ++ more) = .ok (v, afterValue ++ more) := fun hc =>
        hvalue depth hv (.inr (.of_skipWs hcomma (by rcases hc with rfl | rfl <;> decide))) more
      split at h
      · next hbracket =>
        obtain ⟨rfl, rfl⟩ := Prod.mk.inj (Except.ok.inj h)
        simp only [hvalue' (.inl hbracket), skipWs_append hcomma more, if_pos hbracket]
      · next hbracket =>
        split at h
        · next hnext =>
          have hne : skipWs afterComma ≠ [] := Consumes.ne_nil ((scan_consumes n).2.2 depth _) h
          simp only [hvalue' (.inr hnext), skipWs_append hcomma more, if_neg hbracket,
            if_pos hnext, skipWs_append_of_ne hne]
          exact helements depth _ h more
        · cases h

/-- **What was read stays what it is** when the text goes on, with as much fuel or more. -/
theorem scan_persists : ∀ {n m : ℕ}, n ≤ m →
    (∀ depth, PersistsClosed (scanOnce n depth) (scanOnce m depth)) ∧
      (∀ depth acc, Persists (parseMembers n depth acc) (parseMembers m depth acc)) ∧
        ∀ depth acc, Persists (parseElements n depth acc) (parseElements m depth acc) := by
  intro n
  induction n with
  | zero => simp [PersistsClosed, Persists, scanOnce, parseMembers, parseElements]
  | succ n ih =>
    intro m hm
    obtain ⟨m, rfl⟩ := Nat.exists_eq_add_of_le' (Nat.one_le_of_lt hm)
    obtain ⟨hvalue, hmembers, helements⟩ := ih (Nat.le_of_succ_le_succ hm)
    exact ⟨scanOnce_append (fun depth => hmembers depth []) fun depth => helements depth [],
      parseMembers_append hvalue hmembers, parseElements_append hvalue helements⟩

/-- **An object that is cut short is not read**: if the whole text is, and more than blanks are
missing, the decoder raises. -/
theorem loads_cut_short {depth : ℕ} {s more : PyStr} {v : PyVal}
    (h : loads depth (ch '{' :: s ++ more) = .ok v) (hmore : ∃ c ∈ more, isWs c = false) :
    ∃ e, loads depth (ch '{' :: s) = .error e := by
  cases hcut : loads depth (ch '{' :: s) with
  | error e => exact ⟨e, rfl⟩
  | ok v' =>
    have hmark : ∀ t : PyStr, (ch '{' :: t).head? ≠ some 0xFEFF := fun t ht =>
      absurd (Option.some.inj ht) (by decide)
    have hws : ∀ t : PyStr, skipWs (ch '{' :: t) = ch '{' :: t := fun t => rfl
    rw [loads, if_neg (hmark s), hws] at hcut
    rw [List.cons_append, loads, if_neg (hmark _), hws] at h
    cases hscan : scanOnce (2 * (ch '{' :: s).length + 1) depth (ch '{' :: s) with
    | error e =>
      rw [hscan] at hcut
      cases hcut
    | ok r =>
      obtain ⟨w, rest⟩ := r
      have hwhole := (scan_persists (m := 2 * (ch '{' :: (s ++ more)).length + 1)
        (by simp only [List.length_cons, List.length_append]; omega)).1 depth hscan (.inl rfl) more
      rw [← List.cons_append] at h
      rw [← List.cons_append] at hwhole
      rw [hwhole] at h
      dsimp only at h
      split at h
      · next hblank =>
        obtain ⟨c, hc, hne⟩ := hmore
        have hall := List.dropWhile_eq_nil_iff.mp hblank c (List.mem_append_right rest hc)
        rw [hne] at hall
        cases hall
      · cases h

end Python

end ToolAgent
