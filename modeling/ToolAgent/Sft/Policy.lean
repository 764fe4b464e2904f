import ToolAgent.Python.Builtins

/-!
# The context of a teacher call

`OpenAICompatPolicy` of `toolagent.evaluation`, up to the request that it sends: a history that is
longer than `max_context_chars` is cut, and `was_truncated` says so. A cut keeps the system message
and as many of the last messages as fit, or the end of the last one where none does.

## Main results

* `truncateMessages_iff` — for a conversation, `was_truncated` is off exactly when the request is
  the whole history
-/

namespace ToolAgent

namespace Policy

open Python

/-- A message: the items of a dictionary. -/
abbrev Message := List (PyStr × PyVal)

/-- `str(message.get(key, "") or "")`. -/
def textOf (py : Interp) (message : Message) (key : PyStr) : PyStr :=
  py.str ((dictGet message key (.str [])).or (.str []))

/-- The characters of one tool call. -/
def callChars (py : Interp) (tc : PyVal) : Except PyErr ℕ := do
  let fn ← tc.get "function" (.dict [])
  let name ← fn.get "name" (.str [])
  let arguments ← fn.get "arguments" (.str [])
  .ok ((py.str name).length + (py.str arguments).length)

/-- `_message_chars`. -/
def messageChars (py : Interp) (message : Message) : Except PyErr ℕ := do
  let calls ← ((dictGet message "tool_calls").or (.list [])).iter
  let sizes ← calls.mapM (callChars py)
  .ok ((textOf py message "content").length + sizes.sum + (textOf py message "name").length +
    (textOf py message "tool_call_id").length)

/-- The end of the content. -/
def clipContent (message : Message) (content : PyStr) (keep : ℤ) : Message :=
  dictSet message "content" (.str (sliceFrom content (-keep)))

/-- The loop over the messages from the last one on. `recent` grows towards the first one. -/
def recentMessages (py : Interp) (budget : ℤ) (recent : List Message) :
    List Message → Except PyErr (List Message)
  | [] => .ok recent
  | message :: earlier => do
    let size ← messageChars py message
    if (size : ℤ) ≤ budget then recentMessages py (budget - size) (recent ++ [message]) earlier
    else if recent.isEmpty then
      .ok [clipContent message (textOf py message "content") (max 0 budget)]
    else .ok recent

/-- `messages[0]`, if it is a system message. -/
def systemMessages : List Message → List Message
  | [] => []
  | message :: _ => if dictGet message "role" = .str "system" then [message] else []

/-- `_truncate_messages`: the messages of the request, and `was_truncated`. -/
def truncateMessages (py : Interp) (maxContextChars : Option ℤ) (messages : List Message) :
    Except PyErr (List Message × Bool) :=
  match maxContextChars with
  | none => .ok (messages, false)
  | some limit =>
    if limit = 0 then .ok (messages, false)
    else do
      let sizes ← messages.mapM (messageChars py)
      if (sizes.sum : ℤ) ≤ limit then .ok (messages, false)
      else
        let system := systemMessages messages
        let systemSizes ← system.mapM (messageChars py)
        let budget := limit - systemSizes.sum
        if budget ≤ 0 then do
          let first ← item messages 0
          .ok ([clipContent first (py.str (dictGet first "content" (.str []))) limit], true)
        else do
          let recent ← recentMessages py budget [] (messages.drop system.length).reverse
          .ok (system ++ recent.reverse, true)

/-! ### Cut or complete -/

section Truncate

variable {py : Interp}

/-- The size of a message whose size can be computed. -/
def charsOf (py : Interp) (message : Message) : ℕ := (messageChars py message).toOption.getD 0

theorem messageChars_eq_charsOf {message : Message} {size : ℕ}
    (h : messageChars py message = .ok size) : messageChars py message =
    .ok (charsOf py message) := by
  rw [charsOf, h]
  rfl

theorem mapM_messageChars {messages : List Message} {sizes : List ℕ}
    (h : messages.mapM (messageChars py) = .ok sizes) :
    (∀ m ∈ messages, messageChars py m = .ok (charsOf py m)) ∧
      sizes = messages.map (charsOf py) := by
  have hall : ∀ m ∈ messages, messageChars py m = .ok (charsOf py m) := fun m hm => by
    obtain ⟨size, hsize⟩ := exists_of_mapM h m hm
    exact messageChars_eq_charsOf hsize
  refine ⟨hall, ?_⟩
  rw [mapM_eq_ok_map hall, Except.ok.injEq] at h
  exact h.symm

/-- After a message that fits, one that does not ends the loop, and is dropped. -/
theorem length_recentMessages_lt {messages : List Message} :
    ∀ {budget : ℤ} {recent out : List Message}, recent ≠ [] → 0 ≤ budget →
      (∀ m ∈ messages, messageChars py m = .ok (charsOf py m)) →
      budget < (messages.map (charsOf py)).sum →
      recentMessages py budget recent messages = .ok out →
      out.length < recent.length + messages.length := by
  induction messages with
  | nil =>
    intro budget recent out _ hnonneg _ hbudget _
    rw [List.map_nil, List.sum_nil] at hbudget
    omega
  | cons message earlier ih =>
    intro budget recent out hne hnonneg hsizes hbudget h
    obtain ⟨hsize, hrest⟩ := List.forall_mem_cons.mp hsizes
    rw [List.map_cons, List.sum_cons] at hbudget
    rw [recentMessages, hsize] at h
    simp only [bind, Except.bind] at h
    rw [List.length_cons]
    split at h
    · next hfits =>
      have hlt := ih (by simp) (by omega) hrest (by omega) h
      rw [List.length_append, List.length_singleton] at hlt
      omega
    · rw [if_neg (by simpa using hne), Except.ok.injEq] at h
      rw [← h]
      omega

/-- The user's first message. -/
def userMessage (text : PyStr) : Message := [("role", .str "user"), ("content", .str text)]

def systemMessage (text : PyStr) : Message := [("role", .str "system"), ("content", .str text)]

theorem textOf_userMessage (text : PyStr) : textOf py (userMessage text) "content" = text := by
  rcases text with - | ⟨c, text⟩
  · rfl
  · rfl

theorem messageChars_userMessage (text : PyStr) :
    messageChars py (userMessage text) = .ok text.length := by
  have hnone : ∀ key : PyStr, dictGet (userMessage text) key (.str []) = .str [] →
      textOf py (userMessage text) key = [] := fun key hkey => by
    rw [textOf, hkey]
    rfl
  show Except.ok _ = _
  rw [textOf_userMessage, hnone "name" rfl, hnone "tool_call_id" rfl]
  rfl

/-- A first message that is too long is cut to another one. -/
theorem clipContent_userMessage_ne {budget : ℤ} (hbudget : 0 < budget) {first : PyStr}
    (hlong : budget < first.length) :
    clipContent (userMessage first) (textOf py (userMessage first) "content") (max 0 budget) ≠
      userMessage first := by
  rw [textOf_userMessage, max_eq_right hbudget.le]
  intro heq
  have hcontent : sliceFrom first (-budget) = first := by
    have hget := congrArg (dictGet · "content") heq
    exact PyVal.str.inj hget
  have hlength := congrArg List.length hcontent
  rw [sliceFrom, if_neg (by omega), List.length_drop, neg_neg] at hlength
  omega

/-- What the loop keeps of a conversation that is too long is never all of it. -/
theorem recentMessages_ne {budget : ℤ} (hbudget : 0 < budget) {first : PyStr}
    {rest out : List Message}
    (hsizes : ∀ m ∈ userMessage first :: rest, messageChars py m = .ok (charsOf py m))
    (hlong : budget < ((userMessage first :: rest).map (charsOf py)).sum)
    (h : recentMessages py budget [] (userMessage first :: rest).reverse = .ok out) :
    out.reverse ≠ userMessage first :: rest := by
  have hrev : ∀ m ∈ (userMessage first :: rest).reverse, messageChars py m = .ok (charsOf py m) :=
    fun m hm => hsizes m (List.mem_reverse.mp hm)
  have hsum : budget < ((userMessage first :: rest).reverse.map (charsOf py)).sum := by
    rwa [List.map_reverse, List.sum_reverse]
  rcases hlast : (userMessage first :: rest).reverse with - | ⟨last, earlier⟩
  · simp at hlast
  have hlen : (userMessage first :: rest).length = earlier.length + 1 := by
    rw [← List.length_reverse, hlast, List.length_cons]
  rw [hlast] at hrev hsum h
  obtain ⟨hsize, hearlier⟩ := List.forall_mem_cons.mp hrev
  rw [recentMessages, hsize] at h
  simp only [bind, Except.bind] at h
  rw [List.map_cons, List.sum_cons] at hsum
  intro heq
  have hlenOut : out.length = earlier.length + 1 := by
    rw [← hlen, ← heq, List.length_reverse]
  split at h
  · next hfits =>
    -- the last message fits, so one before it is dropped
    have hlt := length_recentMessages_lt (by simp) (by omega) hearlier (by omega) h
    rw [List.nil_append, List.length_singleton] at hlt
    omega
  · next hfits =>
    -- the last message is cut: it is the only one, and it is shorter than before
    rw [List.isEmpty_nil, if_pos rfl, Except.ok.injEq] at h
    rw [← h, List.length_singleton] at hlenOut
    have hrest : rest = [] := by
      rw [List.length_cons] at hlen
      exact List.length_eq_zero_iff.mp (by omega)
    subst hrest
    rw [List.reverse_singleton, List.cons.injEq] at hlast
    obtain ⟨rfl, -⟩ := hlast
    rw [messageChars_userMessage, Except.ok.injEq] at hsize
    rw [← h, List.reverse_singleton, List.cons.injEq] at heq
    exact clipContent_userMessage_ne hbudget (by omega) heq.1

/-- **Cut or complete.** In a conversation that starts with a system and a user message,
`was_truncated` is off exactly when the request is the whole history. -/
theorem truncateMessages_iff {limit : Option ℤ} {system first : PyStr} {rest request : List Message}
    {truncated : Bool}
    (h : truncateMessages py limit (systemMessage system :: userMessage first :: rest) =
      .ok (request, truncated)) :
    truncated = false ↔ request = systemMessage system :: userMessage first :: rest := by
  have hcomplete : ∀ {m : List Message},
      (Except.ok (m, false) : Except PyErr (List Message × Bool)) = .ok (request, truncated) →
      (truncated = false ↔ request = m) := by
    intro m hm
    rw [Except.ok.injEq, Prod.mk.injEq] at hm
    exact iff_of_true hm.2.symm hm.1.symm
  rcases limit with - | limit
  · exact hcomplete h
  rw [truncateMessages] at h
  split at h
  · exact hcomplete h
  obtain ⟨sizes, hsizes, h⟩ := bind_eq_ok.mp h
  obtain ⟨hall, rfl⟩ := mapM_messageChars hsizes
  split at h
  · exact hcomplete h
  · next hlong =>
    have hsystem : systemMessages (systemMessage system :: userMessage first :: rest) =
        [systemMessage system] := rfl
    obtain ⟨systemSizes, hsystemSizes, h⟩ := bind_eq_ok.mp h
    rw [hsystem] at hsystemSizes h
    obtain ⟨-, rfl⟩ := mapM_messageChars hsystemSizes
    rw [List.map_cons, List.sum_cons] at hlong
    rw [List.map_singleton, List.sum_singleton] at h
    dsimp only at h
    split at h
    · -- only the end of the system message is left
      obtain ⟨message, -, h⟩ := bind_eq_ok.mp h
      rw [Except.ok.injEq, Prod.mk.injEq] at h
      refine iff_of_false (by simp [← h.2]) fun heq => ?_
      have hlen := congrArg List.length (h.1.trans heq)
      simp at hlen
    · next hbudget =>
      obtain ⟨recent, hrecent, h⟩ := bind_eq_ok.mp h
      rw [Except.ok.injEq, Prod.mk.injEq] at h
      refine iff_of_false (by simp [← h.2]) fun heq => ?_
      rw [← h.1, List.singleton_append, List.cons.injEq] at heq
      exact recentMessages_ne (by omega) (List.forall_mem_cons.mp hall).2
        (by push_cast at hlong ⊢; omega)
        hrecent heq.2

end Truncate

end Policy

end ToolAgent
