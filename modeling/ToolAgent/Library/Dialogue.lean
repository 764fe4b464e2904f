import Mathlib.Data.List.Basic
import Mathlib.Data.List.TakeWhile

/-!
# Dialogues

A log of messages. Some of them *open* a round and ask for answers, each under a key, and others
answer to a key. A log is paired when every key that is asked for is answered once, before the next
round is opened, and when every answer is to a key that its round has asked for.

A log that is written round by round is paired exactly when each of its rounds is. Every log can be
read as one that is written so: it is split at the messages that open a round.

## Main definitions

* `AllAnswered`, `AllAsked`, `Paired` — for all positions of a log
* `ofRounds` — a log that is written round by round
* `startOf`, `roundsOf` — what comes before the first round of a log, and its rounds
* `RoundPaired` — the same for one round

## Main results

* `locate` — where in the rounds a position of the log is
* `ofRounds_roundsOf` — a log is its rounds
* `paired_ofRounds_iff` — a log is paired when its rounds are
-/

namespace ToolAgent

namespace Dialogue

variable {α κ : Type} [DecidableEq κ]

section Paired

variable (opens : α → Bool) (asks : α → List κ) (answers : α → Option κ)

/-- What is asked for is answered once before the next round. -/
def AllAnswered (log : List α) : Prop :=
  ∀ before m after, log = before ++ m :: after → opens m = true → ∀ k ∈ asks m,
    ((after.takeWhile (!opens ·)).filterMap answers).count k = 1

/-- What is answered has been asked for by the message that opened the round. -/
def AllAsked (log : List α) : Prop :=
  ∀ before m after k, log = before ++ m :: after → answers m = some k →
    ∃ earlier opener between, before = earlier ++ opener :: between ∧ opens opener = true ∧
      (∀ x ∈ between, opens x = false) ∧ k ∈ asks opener

structure Paired (log : List α) : Prop where
  answered : AllAnswered opens asks answers log
  asked : AllAsked opens asks answers log

/-- One round: what opens it, and the rest. -/
structure RoundPaired (round : α × List α) : Prop where
  answered : ∀ k ∈ asks round.1, (round.2.filterMap answers).count k = 1
  asked : ∀ k ∈ round.2.filterMap answers, k ∈ asks round.1

end Paired

/-- What comes before the first round, and the rounds. -/
def ofRounds (start : List α) (rounds : List (α × List α)) : List α :=
  start ++ rounds.flatMap fun r => r.1 :: r.2

theorem ofRounds_cons (start : List α) (r : α × List α) (rounds : List (α × List α)) :
    ofRounds start (r :: rounds) = start ++ r.1 :: ofRounds r.2 rounds := by
  rw [ofRounds, List.flatMap_cons, List.cons_append, ofRounds]

theorem ofRounds_append (start : List α) (rounds rounds' : List (α × List α)) :
    ofRounds start (rounds ++ rounds') = ofRounds (ofRounds start rounds) rounds' := by
  rw [ofRounds, List.flatMap_append, ← List.append_assoc, ofRounds, ofRounds]

/-- **Where a message is.** It is in what comes before the rounds, or opens a round, or is in the
rest of one. -/
theorem locate (rounds : List (α × List α)) : ∀ {start before after : List α} {m : α},
    ofRounds start rounds = before ++ m :: after →
      (∃ rest, start = before ++ m :: rest) ∨
      ∃ first r last, rounds = first ++ r :: last ∧
        ((m = r.1 ∧ before = ofRounds start first ∧ after = ofRounds r.2 last) ∨
          ∃ inner rest, r.2 = inner ++ m :: rest ∧
            before = ofRounds start first ++ r.1 :: inner) := by
  induction rounds with
  | nil =>
    intro start before after m h
    exact .inl ⟨after, (List.append_nil start).symm.trans h⟩
  | cons r rounds ih =>
    intro start before after m h
    rw [ofRounds_cons] at h
    obtain ⟨between, hbefore, hrest⟩ | ⟨between, hstart, hrest⟩ := List.append_eq_append_iff.mp h
    · right
      rcases between with - | ⟨opener, between⟩
      · obtain ⟨hm, hafter⟩ := List.cons.inj hrest
        rw [List.append_nil] at hbefore
        refine ⟨[], r, rounds, rfl, .inl ⟨hm.symm, ?_, hafter.symm⟩⟩
        rw [hbefore, ofRounds, List.flatMap_nil, List.append_nil]
      · obtain ⟨rfl, hinner⟩ := List.cons.inj hrest
        obtain ⟨rest, hr⟩ | ⟨first, r', last, hrounds, hcase⟩ := ih hinner
        · refine ⟨[], r, rounds, rfl, .inr ⟨between, rest, hr, ?_⟩⟩
          rw [hbefore, ofRounds, List.flatMap_nil, List.append_nil]
        · refine ⟨r :: first, r', last, by rw [hrounds, List.cons_append], ?_⟩
          rw [ofRounds_cons, hbefore]
          obtain ⟨hm, hbetween, hafter⟩ | ⟨inner, rest, hr', hbetween⟩ := hcase
          · exact .inl ⟨hm, by rw [hbetween], hafter⟩
          · exact .inr ⟨inner, rest, hr', by rw [hbetween, List.append_assoc, List.cons_append]⟩
    · rcases between with - | ⟨opener, between⟩
      · obtain ⟨hm, hafter⟩ := List.cons.inj hrest
        rw [List.append_nil] at hstart
        refine .inr ⟨[], r, rounds, rfl, .inl ⟨hm, ?_, hafter⟩⟩
        rw [← hstart, ofRounds, List.flatMap_nil, List.append_nil]
      · obtain ⟨rfl, -⟩ := List.cons.inj hrest
        exact .inl ⟨between, hstart⟩

/-! ### The rounds of a log -/

section Split

variable (opens : α → Bool)

/-- What comes before the first message that opens a round. -/
def startOf (log : List α) : List α := log.takeWhile (!opens ·)

/-- A log is split at the messages that open a round. -/
def roundsOf : List α → List (α × List α)
  | [] => []
  | x :: log => if opens x then (x, startOf opens log) :: roundsOf log else roundsOf log

variable {opens}

theorem startOf_cons_of_opens {x : α} (h : opens x = true) (log : List α) :
    startOf opens (x :: log) = [] :=
  List.takeWhile_cons_of_neg (p := (!opens ·)) (by rw [h, Bool.not_true]; exact Bool.false_ne_true)

theorem startOf_cons_of_not {x : α} (h : opens x = false) (log : List α) :
    startOf opens (x :: log) = x :: startOf opens log :=
  List.takeWhile_cons_of_pos (p := (!opens ·)) (by rw [h, Bool.not_false])

theorem opens_of_mem_startOf {log : List α} {x : α} (h : x ∈ startOf opens log) :
    opens x = false := by
  have hinside := List.mem_takeWhile_imp h
  rwa [Bool.not_eq_true'] at hinside

theorem opens_of_mem_roundsOf {log : List α} :
    ∀ {r : α × List α}, r ∈ roundsOf opens log →
      opens r.1 = true ∧ ∀ x ∈ r.2, opens x = false := by
  induction log with
  | nil => exact fun hr => absurd hr List.not_mem_nil
  | cons x log ih =>
    intro r hr
    rw [roundsOf] at hr
    split at hr
    · next hx =>
      rcases List.mem_cons.mp hr with rfl | hr
      · exact ⟨hx, fun y hy => opens_of_mem_startOf hy⟩
      · exact ih hr
    · exact ih hr

/-- **A log is what comes before its first round, and its rounds.** -/
theorem ofRounds_roundsOf (log : List α) :
    ofRounds (startOf opens log) (roundsOf opens log) = log := by
  induction log with
  | nil => rfl
  | cons x log ih =>
    rw [roundsOf]
    split
    · next hx => rw [startOf_cons_of_opens hx, ofRounds_cons, List.nil_append, ih]
    · next hx =>
      rw [startOf_cons_of_not (Bool.eq_false_iff.mpr hx), ofRounds, List.cons_append,
        ← ofRounds, ih]

theorem length_roundsOf (log : List α) : (roundsOf opens log).length = log.countP opens := by
  induction log with
  | nil => rfl
  | cons x log ih =>
    rw [roundsOf]
    split
    · next hx => rw [List.length_cons, ih, List.countP_cons_of_pos hx]
    · next hx => rw [ih, List.countP_cons_of_neg hx]

/-- The rounds are the log from the first message on that opens one. -/
theorem flatMap_roundsOf (log : List α) :
    ((roundsOf opens log).flatMap fun r => r.1 :: r.2) = log.dropWhile (!opens ·) := by
  have hlog : log.takeWhile (!opens ·) ++ ((roundsOf opens log).flatMap fun r => r.1 :: r.2) =
      log.takeWhile (!opens ·) ++ log.dropWhile (!opens ·) := by
    rw [List.takeWhile_append_dropWhile]
    exact ofRounds_roundsOf log
  exact List.append_cancel_left hlog

end Split

section Rounds

variable {opens : α → Bool} {asks : α → List κ} {answers : α → Option κ}

/-- The messages of a round up to the next one. -/
theorem takeWhile_ofRounds {start : List α} {rounds : List (α × List α)}
    (hstart : ∀ x ∈ start, opens x = false) (hopens : ∀ r ∈ rounds, opens r.1 = true) :
    (ofRounds start rounds).takeWhile (!opens ·) = start := by
  have hinside : ∀ x ∈ start, (!opens x) = true := fun x hx => by rw [hstart x hx, Bool.not_false]
  rw [ofRounds, List.takeWhile_append_of_pos hinside]
  rcases rounds with - | ⟨r, rounds⟩
  · exact List.append_nil start
  · have hstop : ¬(!opens r.1) = true := by
      rw [hopens r List.mem_cons_self, Bool.not_true]
      exact Bool.false_ne_true
    rw [List.flatMap_cons, List.cons_append, List.takeWhile_cons_of_neg (p := (!opens ·)) hstop,
      List.append_nil]

/-- The last message that opens a round. -/
theorem last_opener_unique {earlier earlier' between between' : List α} {opener opener' : α}
    (h : earlier ++ opener :: between = earlier' ++ opener' :: between')
    (hopens : opens opener = true) (hopens' : opens opener' = true)
    (hbetween : ∀ x ∈ between, opens x = false) (hbetween' : ∀ x ∈ between', opens x = false) :
    opener = opener' := by
  have hlast : ∀ {earlier between : List α} {opener : α}, opens opener = true →
      (∀ x ∈ between, opens x = false) →
      (earlier ++ opener :: between).reverse.dropWhile (!opens ·) = opener :: earlier.reverse := by
    intro earlier between opener hopens hbetween
    have hinside : ∀ x ∈ between.reverse, (!opens x) = true := fun x hx => by
      rw [hbetween x (List.mem_reverse.mp hx), Bool.not_false]
    have hstop : ¬(!opens opener) = true := by
      rw [hopens, Bool.not_true]
      exact Bool.false_ne_true
    rw [List.reverse_append, List.reverse_cons, List.append_assoc, List.singleton_append,
      List.dropWhile_append_of_pos hinside, List.dropWhile_cons_of_neg (p := (!opens ·)) hstop]
  have hboth := congrArg (fun log => log.reverse.dropWhile (!opens ·)) h
  rw [hlast hopens hbetween, hlast hopens' hbetween'] at hboth
  exact (List.cons.inj hboth).1

section Structure

variable {start : List α} {rounds : List (α × List α)}
  (hopens : ∀ r ∈ rounds, opens r.1 = true ∧ answers r.1 = none)
  (hrest : ∀ r ∈ rounds, ∀ x ∈ r.2, opens x = false)

include hopens hrest

omit [DecidableEq κ] in
/-- What follows the message that opens a round, up to the next such message. -/
theorem takeWhile_round {first last : List (α × List α)} {r : α × List α}
    (h : rounds = first ++ r :: last) : (ofRounds r.2 last).takeWhile (!opens ·) = r.2 := by
  refine takeWhile_ofRounds (hrest r ?_) fun r' hr' => (hopens r' ?_).1
  · rw [h]
    exact List.mem_append_right _ List.mem_cons_self
  · rw [h]
    exact List.mem_append_right _ (List.mem_cons_of_mem _ hr')

theorem Paired.roundPaired (h : Paired opens asks answers (ofRounds start rounds)) :
    ∀ r ∈ rounds, RoundPaired asks answers r := by
  intro r hr
  obtain ⟨first, last, hrounds⟩ := List.append_of_mem hr
  have hlog : ofRounds start rounds = ofRounds start first ++ r.1 :: ofRounds r.2 last := by
    rw [hrounds, ofRounds_append, ofRounds_cons]
  refine ⟨fun k hk => ?_, fun k hk => ?_⟩
  · rw [← takeWhile_round hopens hrest hrounds]
    exact h.answered _ _ _ hlog (hopens r hr).1 k hk
  · obtain ⟨x, hx, hanswers⟩ := List.mem_filterMap.mp hk
    obtain ⟨inner, rest, hinner⟩ := List.append_of_mem hx
    have hposition : ofRounds start rounds =
        (ofRounds start first ++ r.1 :: inner) ++ x :: ofRounds rest last := by
      rw [hlog, hinner, ofRounds, ofRounds]
      simp only [ofRounds, List.append_assoc, List.cons_append]
    obtain ⟨earlier, opener, between, hbefore, hopener, hbetween, hasked⟩ :=
      h.asked _ _ _ k hposition hanswers
    have hsame : r.1 = opener := by
      refine last_opener_unique hbefore (hopens r hr).1 hopener (fun y hy => ?_) hbetween
      refine hrest r hr y ?_
      rw [hinner]
      exact List.mem_append_left _ hy
    rw [hsame]
    exact hasked

theorem paired_of_rounds (hstart : ∀ x ∈ start, opens x = false ∧ answers x = none)
    (h : ∀ r ∈ rounds, RoundPaired asks answers r) :
    Paired opens asks answers (ofRounds start rounds) := by
  have hmem : ∀ {first last : List (α × List α)} {r : α × List α}, rounds = first ++ r :: last →
      r ∈ rounds := by
    intro first last r hrounds
    rw [hrounds]
    exact List.mem_append_right _ List.mem_cons_self
  constructor
  · intro before m after hlog hm k hk
    obtain ⟨rest, rfl⟩ | ⟨first, r, last, hrounds, hcase⟩ := locate rounds hlog
    · rw [(hstart m (by simp)).1] at hm
      cases hm
    obtain ⟨rfl, -, rfl⟩ | ⟨inner, rest, hinner, -⟩ := hcase
    · rw [takeWhile_round hopens hrest hrounds]
      exact (h r (hmem hrounds)).answered k hk
    · rw [hrest r (hmem hrounds) m (by rw [hinner]; simp)] at hm
      cases hm
  · intro before m after k hlog hanswers
    obtain ⟨rest, rfl⟩ | ⟨first, r, last, hrounds, hcase⟩ := locate rounds hlog
    · rw [(hstart m (by simp)).2] at hanswers
      cases hanswers
    have hr := hmem hrounds
    obtain ⟨rfl, -, -⟩ | ⟨inner, rest, hinner, hbefore⟩ := hcase
    · rw [(hopens r hr).2] at hanswers
      cases hanswers
    · refine ⟨_, r.1, inner, hbefore, (hopens r hr).1, fun x hx => ?_, ?_⟩
      · refine hrest r hr x ?_
        rw [hinner]
        exact List.mem_append_left _ hx
      · refine (h r hr).asked k (List.mem_filterMap.mpr ⟨m, ?_, hanswers⟩)
        rw [hinner]
        exact List.mem_append_right _ List.mem_cons_self

/-- **A log is paired when its rounds are.** -/
theorem paired_ofRounds_iff (hstart : ∀ x ∈ start, opens x = false ∧ answers x = none) :
    Paired opens asks answers (ofRounds start rounds) ↔
      ∀ r ∈ rounds, RoundPaired asks answers r :=
  ⟨Paired.roundPaired hopens hrest, paired_of_rounds hopens hrest hstart⟩

end Structure

end Rounds

end Dialogue

end ToolAgent
