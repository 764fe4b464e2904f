import ToolAgent.Sft.Policy

/-!
# The budget of a request

What `_truncate_messages` owes to its budget: the request is not longer than `max_context_chars`, it
is the system message and the last of the other messages, and `was_truncated` tells whether anything
is missing.

The size of a message counts its content, its tool calls, its name and its id, and a cut shortens
the content only. So a message that has to be cut must not have any size besides its content.

## Main definitions

* `Shape`, `Respects` — what a request owes
* `otherChars` — the size that a cut cannot touch
* `Cuttable` — the histories that can be brought within the budget

## Main results

* `recentMessages_fits` — the messages that are kept are the last ones, and they fit
* `truncateMessages_respects_iff` — when the budget is respected
-/

namespace ToolAgent

namespace Policy

open Python

/-! ### What a request owes -/

/-- `str(message.get("content", ""))` -/
def contentText (py : Interp) (message : Message) : PyStr :=
  py.str (dictGet message "content" (.str []))

/-- `cut` is `message` with a suffix of its content. -/
def IsCut (py : Interp) (message cut : Message) : Prop :=
  ∃ text, text <:+ contentText py message ∧ cut = dictSet message "content" (.str text)

/-- The size of several messages. -/
def totalChars (py : Interp) (messages : List Message) : ℕ := (messages.map (charsOf py)).sum

/-- What follows the system message. -/
def afterSystem (messages : List Message) : List Message :=
  messages.drop (systemMessages messages).length

/-- The system message, if there is one, and the last of the other messages, of which the only one
can be cut. A system message that is longer than the budget can be cut too. -/
def Shape (py : Interp) (limit : ℤ) (messages out : List Message) : Prop :=
  (∃ kept, kept <:+ afterSystem messages ∧ out = systemMessages messages ++ kept) ∨
  (∃ last cut, [last] <:+ afterSystem messages ∧ IsCut py last cut ∧
    out = systemMessages messages ++ [cut]) ∨
  ∃ system cut kept, systemMessages messages = [system] ∧ limit < charsOf py system ∧
    IsCut py system cut ∧ kept <:+ afterSystem messages ∧ out = cut :: kept

/-- The request `out` respects the budget. -/
structure Respects (py : Interp) (limit : ℤ) (messages out : List Message) (truncated : Bool) :
    Prop where
  size_le : ∃ sizes, out.mapM (messageChars py) = .ok sizes ∧ (sizes.sum : ℤ) ≤ limit
  shape : Shape py limit messages out
  truncated_iff : truncated = true ↔ out ≠ messages

/-! ### What can be cut -/

/-- The size of a message besides its content: its tool calls, its name and its id. -/
def otherChars (py : Interp) (message : Message) : ℕ :=
  charsOf py message - (textOf py message "content").length

/-- Either nothing has to be cut, or what has to be cut has no size besides its content. A system
message that fills the budget is not cut, but its content is written anew. -/
def Cuttable (py : Interp) (limit : ℤ) (messages : List Message) : Prop :=
  (totalChars py messages : ℤ) ≤ limit ∨
    if (totalChars py (systemMessages messages) : ℤ) < limit then
      ∀ last, messages.getLast? = some last →
        (charsOf py last : ℤ) ≤ limit - totalChars py (systemMessages messages) ∨
          otherChars py last = 0
    else ∀ first, messages.head? = some first →
      if limit < charsOf py first then otherChars py first = 0
      else ∃ text, List.lookup ("content" : PyStr) first = some (.str text)

section Cut

variable {py : Interp} {message : Message}

theorem textOf_dictSet_self (k text : PyStr) :
    textOf py (dictSet message k (.str text)) k = text := by
  rw [textOf, dictGet_dictSet_self]
  cases text <;> rfl

theorem textOf_dictSet_of_ne {k k' : PyStr} (h : k' ≠ k) (v : PyVal) :
    textOf py (dictSet message k v) k' = textOf py message k' := by
  rw [textOf, dictGet_dictSet_of_ne h, textOf]

/-- The text that is counted is the whole content, or nothing. -/
theorem textOf_content : textOf py message "content" = contentText py message ∨
    textOf py message "content" = [] := by
  rw [textOf, PyVal.or, contentText]
  split
  · exact .inl rfl
  · exact .inr rfl

theorem textOf_suffix : textOf py message "content" <:+ contentText py message := by
  have hor : textOf py message "content" = _ ∨ _ := textOf_content
  rcases hor with h | h
  · simp [h]
  · simp [h]

/-- A content that is a text. -/
theorem text_of_lookup {text : PyStr}
    (h : List.lookup ("content" : PyStr) message = some (.str text)) :
    contentText py message = text ∧ textOf py message "content" = text := by
  have hget : dictGet message "content" (.str []) = .str text := by
    rw [dictGet, h, Option.getD_some]
  rw [contentText, textOf, hget]
  cases text <;> exact ⟨rfl, rfl⟩

/-- Of the size of a message, its content and the rest. -/
theorem charsOf_eq (h : messageChars py message = .ok (charsOf py message)) :
    charsOf py message = (textOf py message "content").length + otherChars py message := by
  have hle : (textOf py message "content").length ≤ charsOf py message := by
    rw [messageChars] at h
    obtain ⟨calls, -, h⟩ := bind_eq_ok.mp h
    obtain ⟨sizes, -, h⟩ := bind_eq_ok.mp h
    rw [← Except.ok.inj h]
    omega
  rw [otherChars]
  omega

/-- **A new content** changes nothing else about the size. -/
theorem messageChars_dictSet (h : messageChars py message = .ok (charsOf py message))
    (text : PyStr) : messageChars py (dictSet message "content" (.str text)) =
      .ok (text.length + otherChars py message) := by
  have hcalls : ("tool_calls" : PyStr) ≠ "content" := by decide
  have hname : ("name" : PyStr) ≠ "content" := by decide
  have hid : ("tool_call_id" : PyStr) ≠ "content" := by decide
  have hsplit := charsOf_eq h
  rw [messageChars] at h
  obtain ⟨calls, hiter, h⟩ := bind_eq_ok.mp h
  obtain ⟨sizes, hsizes, h⟩ := bind_eq_ok.mp h
  rw [messageChars, dictGet_dictSet_of_ne hcalls, hiter, textOf_dictSet_self,
    textOf_dictSet_of_ne hname, textOf_dictSet_of_ne hid]
  show (calls.mapM (callChars py) >>= _) = _
  rw [hsizes]
  have hsum := Except.ok.inj h
  refine congrArg Except.ok ?_
  omega

/-- The last characters of a text. -/
theorem sliceFrom_neg {keep : ℤ} (hkeep : 0 < keep) (text : PyStr) :
    sliceFrom text (-keep) <:+ text ∧
      ((sliceFrom text (-keep)).length : ℤ) = min keep text.length := by
  rw [sliceFrom, if_neg (by omega), neg_neg]
  refine ⟨List.drop_suffix _ _, ?_⟩
  rw [List.length_drop]
  omega

end Cut

/-! ### The messages that are kept -/

section Scan

variable {py : Interp}

theorem totalChars_append (ms ms' : List Message) :
    totalChars py (ms ++ ms') = totalChars py ms + totalChars py ms' := by
  rw [totalChars, List.map_append, List.sum_append, totalChars, totalChars]

/-- The scan keeps the first of its messages, as many as fit. -/
theorem recentMessages_fits (messages : List Message) : ∀ (recent : List Message) (budget : ℤ),
    recent ≠ [] → 0 ≤ budget → (∀ m ∈ messages, messageChars py m = .ok (charsOf py m)) →
    ∃ kept, recentMessages py budget recent messages = .ok (recent ++ kept) ∧
      kept <+: messages ∧ (totalChars py kept : ℤ) ≤ budget := by
  induction messages with
  | nil =>
    intro recent budget _ hbudget _
    exact ⟨[], by rw [recentMessages, List.append_nil], List.nil_prefix, hbudget⟩
  | cons message earlier ih =>
    intro recent budget hne hbudget hsizes
    obtain ⟨hsize, hrest⟩ := List.forall_mem_cons.mp hsizes
    rw [recentMessages, hsize]
    simp only [bind, Except.bind]
    by_cases hfits : (charsOf py message : ℤ) ≤ budget
    · obtain ⟨kept, hrun, hprefix, htotal⟩ := ih (recent ++ [message])
        (budget - charsOf py message) (by simp) (by omega) hrest
      refine ⟨message :: kept, ?_, ?_, ?_⟩
      · rw [if_pos hfits, hrun, List.append_assoc]
        rfl
      · exact List.cons_prefix_cons.mpr ⟨rfl, hprefix⟩
      · rw [totalChars] at htotal ⊢
        rw [List.map_cons, List.sum_cons]
        omega
    · refine ⟨[], ?_, List.nil_prefix, hbudget⟩
      rw [if_neg hfits, if_neg (by simpa using hne), List.append_nil]

/-- The scan of a history that ends in `last`. -/
theorem recentMessages_concat {front : List Message} {last : Message} {budget : ℤ}
    (hbudget : 0 < budget) (hsizes : ∀ m ∈ front ++ [last], messageChars py m = .ok (charsOf py m)) :
    ∃ recent, recentMessages py budget [] (front ++ [last]).reverse = .ok recent ∧
      if (charsOf py last : ℤ) ≤ budget then
        recent.reverse <:+ front ++ [last] ∧ (totalChars py recent.reverse : ℤ) ≤ budget
      else recent = [clipContent last (textOf py last "content") budget] := by
  have hlast : messageChars py last = .ok (charsOf py last) := hsizes last (by simp)
  rw [List.reverse_concat, recentMessages, hlast]
  simp only [bind, Except.bind]
  by_cases hfits : (charsOf py last : ℤ) ≤ budget
  · obtain ⟨kept, hrun, hprefix, htotal⟩ := recentMessages_fits front.reverse [last]
      (budget - charsOf py last) (by simp) (by omega)
      (fun m hm => hsizes m (List.mem_append_left _ (List.mem_reverse.mp hm)))
    refine ⟨last :: kept, ?_, ?_⟩
    · rw [if_pos hfits]
      exact hrun
    · rw [if_pos hfits, List.reverse_cons]
      have hsuffix := List.reverse_suffix.mpr hprefix
      rw [List.reverse_reverse] at hsuffix
      obtain ⟨dropped, rfl⟩ := hsuffix
      refine ⟨⟨dropped, by rw [List.append_assoc]⟩, ?_⟩
      rw [totalChars_append, totalChars, List.map_reverse, List.sum_reverse]
      rw [totalChars] at htotal
      rw [totalChars, List.map_singleton, List.sum_singleton]
      omega
  · refine ⟨[clipContent last (textOf py last "content") budget], ?_, ?_⟩
    · rw [if_neg hfits, List.isEmpty_nil, if_pos rfl, max_eq_right hbudget.le]
    · rw [if_neg hfits]

end Scan

/-! ### Each way to cut -/

section Ways

variable {py : Interp} {limit : ℤ} {messages out : List Message}

theorem messages_eq (messages : List Message) :
    messages = systemMessages messages ++ afterSystem messages := by
  rw [afterSystem]
  rcases messages with - | ⟨message, rest⟩
  · rfl
  · rw [systemMessages]
    split
    · rfl
    · rfl

theorem systemMessages_subset : ∀ m ∈ systemMessages messages, m ∈ messages := by
  intro m hm
  rw [messages_eq messages]
  exact List.mem_append_left _ hm

theorem respects_complete (hsizes : ∀ m ∈ messages, messageChars py m = .ok (charsOf py m))
    (htotal : (totalChars py messages : ℤ) ≤ limit) :
    Respects py limit messages messages false where
  size_le := ⟨_, mapM_eq_ok_map hsizes, htotal⟩
  shape := .inl ⟨_, List.suffix_rfl, messages_eq messages⟩
  truncated_iff := by simp

/-- A request that is within the budget, of a history that is not, differs from it. -/
theorem respects_true_iff (hlong : limit < totalChars py messages) :
    Respects py limit messages out true ↔
      (∃ sizes, out.mapM (messageChars py) = .ok sizes ∧ (sizes.sum : ℤ) ≤ limit) ∧
        Shape py limit messages out := by
  refine ⟨fun h => ⟨h.size_le, h.shape⟩, ?_⟩
  rintro ⟨hsize, hshape⟩
  refine ⟨hsize, hshape, iff_of_true rfl fun heq => ?_⟩
  obtain ⟨sizes, hout, hle⟩ := hsize
  rw [heq] at hout
  obtain ⟨-, rfl⟩ := mapM_messageChars hout
  exact absurd hle (not_le.mpr hlong)

theorem totalChars_singleton (message : Message) : totalChars py [message] =
    charsOf py message := by
  rw [totalChars, List.map_singleton, List.sum_singleton]

/-- A request of one message that has been cut. -/
theorem mapM_cut (limit : ℤ) (text : PyStr) {before : List Message} {message : Message}
    (hbefore : ∀ m ∈ before, messageChars py m = .ok (charsOf py m))
    (hsize : messageChars py message = .ok (charsOf py message)) :
    (∃ sizes, (before ++ [dictSet message "content" (.str text)]).mapM (messageChars py) =
      .ok sizes ∧ (sizes.sum : ℤ) ≤ limit) ↔
      (totalChars py before + text.length + otherChars py message : ℤ) ≤ limit := by
  have hrun : (before ++ [dictSet message "content" (.str text)]).mapM (messageChars py) =
      .ok (before.map (charsOf py) ++ [text.length + otherChars py message]) := by
    rw [mapM_eq_ok_iff, List.map_append, List.map_append, List.map_singleton, List.map_singleton,
      messageChars_dictSet hsize, ← mapM_eq_ok_iff.mp (mapM_eq_ok_map hbefore)]
    rfl
  constructor
  · rintro ⟨sizes, hsizes, hle⟩
    rw [hrun, Except.ok.injEq] at hsizes
    rw [← hsizes, List.sum_append, List.sum_singleton] at hle
    rw [totalChars]
    omega
  · intro hle
    refine ⟨_, hrun, ?_⟩
    rw [List.sum_append, List.sum_singleton]
    rw [totalChars] at hle
    omega

/-- **Cutting the system message.** -/
theorem respects_cutSystem_iff {first : Message} {rest : List Message} (hlimit : 0 < limit)
    (hsystem : systemMessages (first :: rest) = [first])
    (hsize : messageChars py first = .ok (charsOf py first))
    (hlong : limit < totalChars py (first :: rest)) (hfull : limit ≤ charsOf py first) :
    Respects py limit (first :: rest) [clipContent first (contentText py first) limit] true ↔
      if limit < charsOf py first then otherChars py first = 0
      else ∃ text, List.lookup ("content" : PyStr) first = some (.str text) := by
  obtain ⟨hsuffix, hlen⟩ := sliceFrom_neg hlimit (contentText py first)
  have hsplit := charsOf_eq hsize
  have htext : (textOf py first "content").length ≤ (contentText py first).length :=
    textOf_suffix.length_le
  have hcut := mapM_cut limit (sliceFrom (contentText py first) (-limit))
    (List.forall_mem_nil _) hsize
  rw [respects_true_iff hlong, clipContent, ← List.nil_append [dictSet first _ _], hcut]
  rw [show totalChars py [] = 0 from rfl]
  clear hcut
  split
  · next hlt =>
    constructor
    · rintro ⟨hle, -⟩
      omega
    · intro hother
      refine ⟨by omega, .inr (.inr ⟨first, _, [], hsystem, hlt, ?_, List.nil_suffix, rfl⟩)⟩
      exact ⟨_, hsuffix, rfl⟩
  · next hle =>
    constructor
    · rintro ⟨-, ⟨kept, -, hout⟩ | ⟨last, cut, -, -, hout⟩ | ⟨system, cut, kept, hsys, hlt, -⟩⟩
      · rw [hsystem, List.nil_append, List.singleton_append, List.cons.injEq] at hout
        have hlookup := congrArg (List.lookup ("content" : PyStr)) hout.1
        rw [lookup_dictSet, if_pos rfl] at hlookup
        exact ⟨_, hlookup.symm⟩
      · rw [hsystem] at hout
        exact absurd (congrArg List.length hout) (by simp)
      · rw [hsystem, List.cons.injEq] at hsys
        rw [hsys.1] at hle
        exact absurd hlt hle
    · rintro ⟨text, hlookup⟩
      obtain ⟨hcontent, hcounted⟩ : contentText py first = text ∧ _ := text_of_lookup hlookup
      rw [hcounted, ← hcontent] at hsplit
      have hslice : sliceFrom (contentText py first) (-limit) = contentText py first :=
        hsuffix.eq_of_length (by omega)
      rw [hslice]
      refine ⟨by omega, .inl ⟨[], List.nil_suffix, ?_⟩⟩
      rw [hcontent, dictSet_of_lookup hlookup, hsystem]
      rfl

/-- **Keeping the last messages.** -/
theorem respects_kept (hsizes : ∀ m ∈ messages, messageChars py m = .ok (charsOf py m))
    (hlong : limit < totalChars py messages) {kept : List Message}
    (hkept : kept <:+ afterSystem messages)
    (hle : (totalChars py (systemMessages messages) + totalChars py kept : ℤ) ≤ limit) :
    Respects py limit messages (systemMessages messages ++ kept) true := by
  have hall : ∀ m ∈ systemMessages messages ++ kept, messageChars py m = .ok (charsOf py m) := by
    intro m hm
    refine hsizes m ?_
    rw [messages_eq messages]
    exact List.mem_append.mpr ((List.mem_append.mp hm).imp_right fun h => hkept.subset h)
  refine (respects_true_iff hlong).mpr ⟨⟨_, mapM_eq_ok_map hall, ?_⟩, .inl ⟨kept, hkept, rfl⟩⟩
  show (totalChars py _ : ℤ) ≤ limit
  rw [totalChars_append, Nat.cast_add]
  exact hle

/-- **Cutting the last message.** -/
theorem respects_cutLast_iff (hsizes : ∀ m ∈ messages, messageChars py m = .ok (charsOf py m))
    (hlong : limit < totalChars py messages) {last : Message}
    (hlast : [last] <:+ afterSystem messages)
    (hbudget : (totalChars py (systemMessages messages) : ℤ) < limit)
    (hbig : limit - totalChars py (systemMessages messages) < charsOf py last) :
    Respects py limit messages (systemMessages messages ++
      [clipContent last (textOf py last "content") (limit - totalChars py (systemMessages messages))])
      true ↔ otherChars py last = 0 := by
  have hsize : messageChars py last = .ok (charsOf py last) := by
    refine hsizes last ?_
    rw [messages_eq messages]
    exact List.mem_append_right _ (hlast.subset (List.mem_singleton_self _))
  have hsystem : ∀ m ∈ systemMessages messages, messageChars py m = .ok (charsOf py m) :=
    fun m hm => hsizes m (systemMessages_subset m hm)
  have hsplit := charsOf_eq hsize
  obtain ⟨hsuffix, hlen⟩ := sliceFrom_neg (sub_pos.mpr hbudget) (textOf py last "content")
  rw [respects_true_iff hlong, clipContent, mapM_cut limit _ hsystem hsize]
  constructor
  · rintro ⟨hle, -⟩
    omega
  · intro hother
    refine ⟨by omega, .inr (.inl ⟨last, _, hlast, ?_, rfl⟩)⟩
    exact ⟨_, hsuffix.trans textOf_suffix, rfl⟩

end Ways

/-! ### When the budget is respected -/

section Budget

variable {py : Interp} {limit : ℤ} {messages : List Message}

/-- A run on a history that is too long. -/
theorem truncateMessages_long (hlimit : 0 < limit)
    (hsizes : ∀ m ∈ messages, messageChars py m = .ok (charsOf py m))
    (hlong : limit < totalChars py messages) :
    truncateMessages py (some limit) messages =
      if limit ≤ totalChars py (systemMessages messages) then
        (item messages 0).map fun first =>
          ([clipContent first (contentText py first) limit], true)
      else
        (recentMessages py (limit - totalChars py (systemMessages messages)) []
          (afterSystem messages).reverse).map fun recent =>
            (systemMessages messages ++ recent.reverse, true) := by
  have hsystem : ∀ m ∈ systemMessages messages, messageChars py m = .ok (charsOf py m) :=
    fun m hm => hsizes m (systemMessages_subset m hm)
  have hnot : ¬((messages.map (charsOf py)).sum : ℤ) ≤ limit := not_le.mpr hlong
  rw [truncateMessages, if_neg (by omega), mapM_eq_ok_map hsizes]
  simp only [bind, Except.bind, hnot, if_false, mapM_eq_ok_map hsystem]
  by_cases hfull : limit ≤ totalChars py (systemMessages messages)
  · have hzero : limit - ((systemMessages messages).map (charsOf py)).sum ≤ 0 :=
      sub_nonpos.mpr hfull
    rw [if_pos hfull, if_pos hzero]
    cases item messages 0 <;> rfl
  · have hpos : ¬limit - ((systemMessages messages).map (charsOf py)).sum ≤ 0 :=
      fun h => hfull (sub_nonpos.mp h)
    rw [if_neg hfull, if_neg hpos, afterSystem, totalChars]
    cases recentMessages py _ [] _ <;> rfl

/-- A system message that fills the budget is the first message. -/
theorem exists_first (hlimit : 0 < limit)
    (hfull : limit ≤ totalChars py (systemMessages messages)) :
    ∃ first rest, messages = first :: rest ∧ systemMessages messages = [first] := by
  rcases messages with - | ⟨first, rest⟩
  · exact absurd hfull (not_le.mpr hlimit)
  · refine ⟨first, rest, rfl, ?_⟩
    rw [systemMessages] at hfull ⊢
    split
    · rfl
    · next hother =>
      rw [if_neg hother] at hfull
      exact absurd hfull (not_le.mpr hlimit)

/-- A history that is too long has a last message after the system message, if that is not too long
by itself. -/
theorem exists_last (hlong : limit < totalChars py messages)
    (hbudget : (totalChars py (systemMessages messages) : ℤ) < limit) :
    ∃ front last, afterSystem messages = front ++ [last] ∧ messages.getLast? = some last := by
  rcases List.eq_nil_or_concat (afterSystem messages) with hnil | ⟨front, last, hconcat⟩
  · have hall := messages_eq messages
    rw [hnil, List.append_nil] at hall
    rw [← hall] at hbudget
    exact absurd hbudget (not_lt.mpr hlong.le)
  · rw [List.concat_eq_append] at hconcat
    refine ⟨front, last, hconcat, ?_⟩
    rw [messages_eq messages, hconcat, ← List.append_assoc, List.getLast?_concat]

/-- All results of a run that returns. -/
theorem forall_result_iff {run : Except PyErr (List Message × Bool)} {out : List Message}
    {truncated : Bool} {P : List Message → Bool → Prop} (hrun : run = .ok (out, truncated)) :
    (∀ out truncated, run = .ok (out, truncated) → P out truncated) ↔ P out truncated := by
  constructor
  · exact fun h => h out truncated hrun
  · intro h out' truncated' hrun'
    rw [hrun, Except.ok.injEq, Prod.mk.injEq] at hrun'
    rwa [← hrun'.1, ← hrun'.2]

/-- **When the budget is respected.** Whatever `_truncate_messages` returns for a positive limit
respects it exactly when what has to be cut can be cut.

Messages are values here, so that the messages that are passed in stay as they are is not a
statement of this model. The source clips deep copies of them. -/
theorem truncateMessages_respects_iff (py : Interp) {limit : ℤ} (hlimit : 0 < limit)
    (messages : List Message) :
    (∀ out truncated, truncateMessages py (some limit) messages = .ok (out, truncated) →
      Respects py limit messages out truncated) ↔
    ∀ sizes, messages.mapM (messageChars py) = .ok sizes → Cuttable py limit messages := by
  rcases hrun : messages.mapM (messageChars py) with e | sizes
  · refine iff_of_true (fun out truncated h => ?_) fun sizes h => ?_
    · rw [truncateMessages, if_neg (by omega), hrun] at h
      cases h
    · cases h
  obtain ⟨hsizes, rfl⟩ := mapM_messageChars hrun
  have hexists : (∀ sizes, (.ok (messages.map (charsOf py)) : Except PyErr (List ℕ)) = .ok sizes →
      Cuttable py limit messages) ↔ Cuttable py limit messages :=
    ⟨fun h => h _ rfl, fun h _ _ => h⟩
  rw [hexists]
  by_cases htotal : (totalChars py messages : ℤ) ≤ limit
  · have hwhole : truncateMessages py (some limit) messages = .ok (messages, false) := by
      rw [truncateMessages, if_neg (by omega), hrun]
      exact if_pos htotal
    rw [forall_result_iff hwhole]
    exact iff_of_true (respects_complete hsizes htotal) (.inl htotal)
  have hlong := not_le.mp htotal
  have hcut := truncateMessages_long hlimit hsizes hlong
  rw [Cuttable, or_iff_right htotal]
  by_cases hfull : limit ≤ totalChars py (systemMessages messages)
  · -- The system message fills the budget, and nothing else is kept.
    obtain ⟨first, rest, rfl, hsystem⟩ := exists_first hlimit hfull
    rw [if_pos hfull] at hcut
    rw [forall_result_iff hcut, if_neg (not_lt.mpr hfull)]
    rw [hsystem, totalChars_singleton] at hfull
    rw [respects_cutSystem_iff hlimit hsystem (hsizes first List.mem_cons_self) hlong hfull]
    simp
  · -- The last messages are kept, or the last one is cut.
    have hbudget := not_le.mp hfull
    obtain ⟨front, last, hafter, hgetLast⟩ := exists_last hlong hbudget
    have hsuffix : [last] <:+ afterSystem messages := ⟨front, hafter.symm⟩
    have hrest : ∀ m ∈ front ++ [last], messageChars py m = .ok (charsOf py m) := by
      intro m hm
      refine hsizes m ?_
      rw [messages_eq messages, hafter]
      exact List.mem_append_right _ hm
    obtain ⟨recent, hrecent, hkept⟩ := recentMessages_concat (sub_pos.mpr hbudget) hrest
    rw [if_neg hfull, hafter, hrecent] at hcut
    rw [forall_result_iff hcut, if_pos hbudget, hgetLast]
    simp only [Option.some.injEq, forall_eq']
    split at hkept
    · next hfits =>
      rw [← hafter] at hkept
      have hle := hkept.2
      exact iff_of_true (respects_kept hsizes hlong hkept.1 (by omega)) (.inl hfits)
    · next hbig =>
      rw [hkept, List.reverse_singleton, or_iff_right hbig]
      exact respects_cutLast_iff hsizes hlong hsuffix hbudget (not_le.mp hbig)

/-! ### A tool message of ten characters -/

/-- A message of a tool that is called `abc`. -/
def sampleMessage : Message :=
  [("role", .str "tool"), ("content", .str "0123456789"), ("name", .str "abc")]

def questionMessage : Message := [("role", .str "user"), ("content", .str "0123456789")]

/-- The last message fits and both do not. -/
theorem truncateMessages_respects_sample :
    truncateMessages .silent (some 13) [questionMessage, sampleMessage] =
      .ok ([sampleMessage], true) ∧
    Respects .silent 13 [questionMessage, sampleMessage] [sampleMessage] true := by
  have hrun : truncateMessages .silent (some 13) [questionMessage, sampleMessage] =
      .ok ([sampleMessage], true) := by decide +kernel
  refine ⟨hrun, (truncateMessages_respects_iff .silent (by decide)
    [questionMessage, sampleMessage]).mpr (fun sizes _ => .inr ?_) [sampleMessage] true hrun⟩
  rw [if_pos (by decide +kernel)]
  intro last hlast
  obtain rfl := Option.some.inj hlast
  exact .inl (by decide +kernel)

/-- The content fits and the name does not: the message is returned as it is, as a cut one. -/
theorem truncateMessages_too_long : ¬∀ out truncated,
    truncateMessages .silent (some 10) [sampleMessage] = .ok (out, truncated) →
      Respects .silent 10 [sampleMessage] out truncated := by
  intro h
  have hrun : truncateMessages .silent (some 10) [sampleMessage] = .ok ([sampleMessage], true) := by
    rfl
  exact (h [sampleMessage] true hrun).truncated_iff.mp rfl rfl

end Budget

end Policy

end ToolAgent
