import ShellHistory.Words

/-! A text quoted so that a POSIX shell reads it as one word: left bare when every character is
harmless, else inside single quotes, where a single quote closes them, stands alone inside double
quotes, and opens them again. -/

namespace ShellHistory.Words

def isHarmless (c : Char) : Bool :=
  c.isAlphanum || c = '_' || c = '@' || c = '%' || c = '+' || c = '=' || c = ':' || c = ',' ||
    c = '.' || c = '/' || c = '-'

def quotedChar (c : Char) : List Char :=
  if c = '\'' then ['\'', '"', '\'', '"', '\''] else [c]

def quoteChars (s : List Char) : List Char :=
  if s = [] then ['\'', '\'']
  else if s.all isHarmless then s
  else '\'' :: s.flatMap quotedChar ++ ['\'']

def quote (s : String) : String := String.ofList (quoteChars s.toList)

theorem isSeparator_of_isHarmless {c : Char} (hc : isHarmless c) : isSeparator c = false := by
  cases hs : isSeparator c with
  | false => rfl
  | true =>
    simp only [isSeparator, Bool.or_eq_true, decide_eq_true_eq] at hs
    rcases hs with ((rfl | rfl) | rfl) | rfl <;> exact absurd hc (by decide)

theorem splitFrom_bare_harmless {s : List Char} (h : s.all isHarmless) (word rest : List Char) :
    splitFrom .bare word (s ++ rest) = splitFrom .bare (s.reverse ++ word) rest := by
  induction s generalizing word with
  | nil => rfl
  | cons c s ih =>
    simp only [List.all_cons, Bool.and_eq_true] at h
    have hne : c ≠ '\'' ∧ c ≠ '"' ∧ c ≠ '\\' := by
      refine ⟨?_, ?_, ?_⟩ <;> rintro rfl <;> exact absurd h.1 (by decide)
    obtain ⟨h1, h2, h3⟩ := hne
    rw [List.cons_append, splitFrom, if_neg (by simp [isSeparator_of_isHarmless h.1]), if_neg h1,
      if_neg h2, if_neg h3, ih h.2]
    simp

theorem splitFrom_single_quoted (s word rest : List Char) :
    splitFrom .single word (s.flatMap quotedChar ++ '\'' :: rest) =
      splitFrom .bare (s.reverse ++ word) rest := by
  induction s generalizing word with
  | nil => simp [splitFrom]
  | cons c s ih =>
    by_cases h : c = '\''
    · subst h
      simp only [List.flatMap_cons, quotedChar, if_pos, List.cons_append, List.nil_append]
      simp [splitFrom, isSeparator, ih]
    · simp [quotedChar, h, splitFrom, ih]

theorem splitFrom_bare_quoteChars (s word rest : List Char) :
    splitFrom .bare word (quoteChars s ++ rest) = splitFrom .bare (s.reverse ++ word) rest := by
  unfold quoteChars
  split
  · next h => subst h; simp [splitFrom, isSeparator]
  · split
    · next h => exact splitFrom_bare_harmless h word rest
    · simp only [List.cons_append, List.append_assoc, List.nil_append]
      rw [splitFrom, if_neg (by simp [isSeparator]), if_pos rfl]
      exact splitFrom_single_quoted s word rest

end ShellHistory.Words
