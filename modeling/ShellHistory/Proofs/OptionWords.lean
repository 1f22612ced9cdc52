import ShellHistory.Search
import Mathlib.Data.List.TakeWhile
import Mathlib.Tactic.SplitIfs

/-! How the selector splits a text of options into words: along blanks and line breaks, by the quoting
rules of a shell. A `#` where a word would begin makes a comment of the rest of its line. Texts that
are put behind each other split into the words of each, but a comment takes in what comes next. -/

namespace ShellHistory

/-- Where a splitter stands. Behind a backslash it is `escaped`, or `guarded` between double quotes. -/
inductive Splitter.Mode
  | bare
  | escaped
  | single
  | double
  | guarded
  | comment
  deriving DecidableEq, Repr

/-- What has been split off: a word, if one has begun, and the words before it. -/
structure Splitter where
  mode : Splitter.Mode
  word : Option (List Char)
  words : List String
  deriving DecidableEq, Repr

namespace Splitter

def start : Splitter := ⟨.bare, none, []⟩

def isGap (c : Char) : Bool := c = ' ' || c = '\t' || c = '\n'

def guardable : List Char := ['"', '\\', '$', '\x60']

def opened (r : Splitter) : List Char := r.word.getD []

def add (r : Splitter) (c : Char) : Splitter := { r with word := some (r.opened ++ [c]) }

def endWord (r : Splitter) : Splitter :=
  match r.word with
  | none => r
  | some w => { r with word := none, words := r.words ++ [String.ofList w] }

def step (r : Splitter) (c : Char) : Splitter :=
  match r.mode with
  | .bare =>
    if isGap c then r.endWord
    else if c = '\\' then { r with mode := .escaped }
    else if c = '\'' then { r with mode := .single, word := some r.opened }
    else if c = '"' then { r with mode := .double, word := some r.opened }
    else if c = '#' ∧ r.word = none then { r with mode := .comment }
    else r.add c
  | .escaped => if c = '\n' then { r with mode := .bare } else { r.add c with mode := .bare }
  | .single => if c = '\'' then { r with mode := .bare } else r.add c
  | .double =>
    if c = '"' then { r with mode := .bare }
    else if c = '\\' then { r with mode := .guarded }
    else r.add c
  | .guarded =>
    if c = '\n' then { r with mode := .double }
    else if c ∈ guardable then { r.add c with mode := .double }
    else { (r.add '\\').add c with mode := .double }
  | .comment => if c = '\n' then { r with mode := .bare } else r

def run (r : Splitter) (s : List Char) : Splitter := s.foldl step r

/-- The words, at the end of a text that leaves no quote open and has no backslash there. -/
def result (r : Splitter) : Option (List String) :=
  if r.mode = .bare ∨ r.mode = .comment then some r.endWord.words else none

def behind (before : List String) (r : Splitter) : Splitter := { r with words := before ++ r.words }

variable {before : List String} {r : Splitter} {s : List Char}

theorem run_append (r : Splitter) (s t : List Char) : run r (s ++ t) = run (run r s) t :=
  List.foldl_append

theorem run_cons (r : Splitter) (c : Char) (s : List Char) : run r (c :: s) = run (step r c) s := rfl

theorem endWord_behind : (r.behind before).endWord = r.endWord.behind before := by
  unfold endWord behind
  dsimp only
  split <;> simp

theorem step_behind (c : Char) : step (r.behind before) c = (step r c).behind before := by
  have hend := @endWord_behind before r
  obtain ⟨mode, word, words⟩ := r
  cases mode <;> dsimp only [step, behind] at hend ⊢ <;> split_ifs <;> first | exact hend | rfl

/-- The words that have been split off do not matter for those that follow. -/
theorem run_behind (s : List Char) : run (r.behind before) s = (run r s).behind before := by
  induction s generalizing r with
  | nil => rfl
  | cons c s ih => rw [run_cons, run_cons, step_behind, ih]

theorem result_behind : (r.behind before).result = r.result.map (before ++ ·) := by
  unfold result
  rw [endWord_behind]
  by_cases h : r.mode = .bare ∨ r.mode = .comment
  · have hb : (r.behind before).mode = .bare ∨ (r.behind before).mode = .comment := h
    rw [if_pos h, if_pos hb]
    rfl
  · have hb : ¬((r.behind before).mode = .bare ∨ (r.behind before).mode = .comment) := h
    rw [if_neg h, if_neg hb]
    rfl

theorem endWord_fresh (r : Splitter) : r.endWord.word = none ∧ r.endWord.mode = r.mode := by
  unfold endWord
  split
  · next hw => exact ⟨hw, rfl⟩
  · exact ⟨rfl, rfl⟩

theorem word_of_comment_step {c : Char} (h : r.mode = .comment → r.word = none)
    (hc : (step r c).mode = .comment) : (step r c).word = none := by
  obtain ⟨mode, word, words⟩ := r
  cases mode with
  | bare =>
    simp only [step] at hc ⊢
    split_ifs at hc ⊢ with hgap _ _ _ hhash
    · exact (endWord_fresh _).1
    · exact hhash.2
    · cases hc
  | comment =>
    simp only [step] at hc ⊢
    split_ifs at hc ⊢
    exact h rfl
  | escaped | single | double | guarded =>
    simp only [step] at hc
    split_ifs at hc <;> cases hc

theorem word_of_comment (h : r.mode = .comment → r.word = none) (s : List Char) :
    (run r s).mode = .comment → (run r s).word = none := by
  induction s generalizing r with
  | nil => exact h
  | cons c s ih => exact ih (word_of_comment_step h)

/-- A comment goes on to the next line break, and what is split off does not change on the way. -/
theorem result_comment (words : List String) (s : List Char) :
    (run ⟨.comment, none, words⟩ s).result =
      (run ⟨.bare, none, words⟩ (s.dropWhile (· ≠ '\n'))).result := by
  induction s with
  | nil => rfl
  | cons c s ih =>
    by_cases hc : c = '\n'
    · subst hc
      rfl
    · have hstep : step ⟨.comment, none, words⟩ c = ⟨.comment, none, words⟩ := by simp [step, hc]
      rw [run_cons, hstep, ih, List.dropWhile_cons_of_pos (by simpa using hc)]

theorem run_gaps (words : List String) (hs : ∀ c ∈ s, isGap c) :
    run ⟨.bare, none, words⟩ s = ⟨.bare, none, words⟩ := by
  induction s with
  | nil => rfl
  | cons c s ih =>
    obtain ⟨hc, hs⟩ := List.forall_mem_cons.1 hs
    have hstep : step ⟨.bare, none, words⟩ c = ⟨.bare, none, words⟩ := by simp [step, hc, endWord]
    rw [run_cons, hstep, ih hs]

/-- A gap ends the last word of a text that splits by itself. -/
theorem step_gap {c : Char} {words : List String} (hr : r.result = some words)
    (hm : r.mode ≠ .comment) (hc : isGap c) : step r c = ⟨.bare, none, words⟩ := by
  obtain ⟨mode, word, done⟩ := r
  cases mode with
  | bare =>
    cases hr
    cases word <;> simp [step, hc, endWord]
  | comment => exact absurd rfl hm
  | escaped | single | double | guarded => cases hr

theorem eq_comment {words : List String} (hr : r.result = some words) (hm : r.mode = .comment)
    (hw : r.word = none) : r = ⟨.comment, none, words⟩ := by
  obtain ⟨mode, word, done⟩ := r
  cases hm
  cases hw
  cases hr
  rfl

/-- Gaps at the end of a text that splits by itself add nothing to its words. -/
theorem result_gaps (hr : r.result.isSome) (h : r.mode = .comment → r.word = none)
    (hs : ∀ c ∈ s, isGap c) : (run r s).result = r.result := by
  obtain ⟨words, hwords⟩ := Option.isSome_iff_exists.1 hr
  by_cases hm : r.mode = .comment
  · have hleft : ∀ c ∈ s.dropWhile (· ≠ '\n'), isGap c := fun c hc =>
      hs c ((List.dropWhile_sublist _).subset hc)
    rw [hwords, eq_comment hwords hm (h hm), result_comment, run_gaps words hleft]
    rfl
  · cases s with
    | nil => rfl
    | cons c s =>
      obtain ⟨hc, hs⟩ := List.forall_mem_cons.1 hs
      rw [run_cons, step_gap hwords hm hc, run_gaps words hs, hwords]
      rfl

end Splitter

/-- The words of a text of options, if it splits by itself. -/
def optionWords (s : String) : Option (List String) := (Splitter.run .start s.toList).result

def wordsIn (s : String) : List String := (optionWords s).getD []

/-- A text ends in a comment: there is no line break behind the comment. -/
def EndsInComment (s : String) : Prop := (Splitter.run .start s.toList).mode = .comment

instance (s : String) : Decidable (EndsInComment s) :=
  inferInstanceAs (Decidable (_ = _))

def pastLine (s : String) : String := String.ofList (s.toList.dropWhile (· ≠ '\n'))

section Joined

variable {s t : String} {front rest : List String}

/-- Behind a text that splits by itself and a blank, the next text is split by itself, or the line
that it begins with belongs to a comment. -/
theorem optionWords_append (hs : (optionWords s).isSome) (t : String) :
    optionWords (s ++ " " ++ t) =
      (optionWords (if EndsInComment s then pastLine t else t)).map (wordsIn s ++ ·) := by
  obtain ⟨words, hwords⟩ := Option.isSome_iff_exists.1 hs
  have hbehind (u : String) : (Splitter.run ⟨.bare, none, wordsIn s⟩ u.toList).result =
      (optionWords u).map (wordsIn s ++ ·) := by
    rw [optionWords, ← Splitter.result_behind, ← Splitter.run_behind]
    simp [Splitter.behind, Splitter.start]
  have hjoined : optionWords (s ++ " " ++ t) =
      (Splitter.run (Splitter.step (Splitter.run .start s.toList) ' ') t.toList).result := by
    rw [optionWords, String.toList_append, String.toList_append, Splitter.run_append,
      Splitter.run_append]
    rfl
  rw [hjoined, ← hbehind, wordsIn, hwords, Option.getD_some]
  by_cases hm : EndsInComment s
  · have hnone := Splitter.word_of_comment (r := .start) nofun s.toList hm
    rw [if_pos hm, Splitter.eq_comment hwords hm hnone, pastLine, String.toList_ofList]
    exact Splitter.result_comment words t.toList
  · rw [if_neg hm, Splitter.step_gap hwords hm rfl]

/-- A text that splits by itself and leaves no comment open. -/
structure Closed (s : String) : Prop where
  splits : (optionWords s).isSome
  ended : ¬ EndsInComment s

theorem Closed.optionWords_append (hs : Closed s) (t : String) :
    optionWords (s ++ " " ++ t) = (optionWords t).map (wordsIn s ++ ·) := by
  rw [ShellHistory.optionWords_append hs.splits, if_neg hs.ended]

/-- Closed texts before others add their words before those of the others. -/
theorem optionWords_intercalate (hfront : ∀ s ∈ front, Closed s) (hrest : rest ≠ []) :
    optionWords (String.intercalate " " (front ++ rest)) =
      (optionWords (String.intercalate " " rest)).map (front.flatMap wordsIn ++ ·) := by
  induction front with
  | nil => simp
  | cons s front ih =>
    obtain ⟨hs, hfront⟩ := List.forall_mem_cons.1 hfront
    rw [List.cons_append, String.intercalate_cons_of_ne_nil (by simp [hrest]),
      hs.optionWords_append, ih hfront, Option.map_map, List.flatMap_cons]
    congr 1
    funext words
    exact (List.append_assoc _ _ words).symm

/-- A text that ends in a comment takes in the line that the next one begins with. -/
theorem optionWords_intercalate_comment (hfront : ∀ s ∈ front, Closed s)
    (hs : (optionWords s).isSome) (hc : EndsInComment s) (hrest : rest ≠ []) :
    optionWords (String.intercalate " " (front ++ s :: rest)) =
      (optionWords (pastLine (String.intercalate " " rest))).map
        ((front ++ [s]).flatMap wordsIn ++ ·) := by
  rw [optionWords_intercalate hfront (List.cons_ne_nil s rest),
    String.intercalate_cons_of_ne_nil hrest, optionWords_append hs, if_pos hc, Option.map_map,
    List.flatMap_append, List.flatMap_singleton]
  congr 1
  funext words
  exact (List.append_assoc _ _ words).symm

/-- Where nothing but gaps is cut off at the ends of a text, its words stay. -/
theorem optionWords_strip (hgaps : Text.trim Splitter.isGap s.toList = Text.trim Text.isBlank s.toList)
    (hs : (optionWords (Text.strip s)).isSome) : optionWords (Text.strip s) = optionWords s := by
  have hcut : ∃ before after, (∀ c ∈ before, Splitter.isGap c) ∧ (∀ c ∈ after, Splitter.isGap c) ∧
      s.toList = before ++ (Text.strip s).toList ++ after := by
    refine ⟨s.toList.takeWhile Splitter.isGap,
      ((s.toList.dropWhile Splitter.isGap).reverse.takeWhile Splitter.isGap).reverse,
      fun c hc => List.mem_takeWhile_imp hc,
      fun c hc => List.mem_takeWhile_imp (List.mem_reverse.1 hc), ?_⟩
    rw [Text.strip, String.toList_ofList, ← hgaps, Text.trim, Text.dropEndWhile, List.append_assoc,
      ← List.reverse_append, List.takeWhile_append_dropWhile, List.reverse_reverse,
      List.takeWhile_append_dropWhile]
  obtain ⟨before, after, hbefore, hafter, hcut⟩ := hcut
  have hcomment := Splitter.word_of_comment (r := .start) nofun (Text.strip s).toList
  unfold optionWords at hs ⊢
  rw [hcut, Splitter.run_append, Splitter.run_append, Splitter.start,
    Splitter.run_gaps [] hbefore]
  exact (Splitter.result_gaps hs hcomment hafter).symm

end Joined

end ShellHistory
