import ShellHistory.Dialect

/-! How a shell reads statements, character by character. Outside of quotes a line break ends a
statement, a blank ends a word, and every other character stands for itself. Single quotes keep all
that is between them, but fish lets a backslash escape a quote or a backslash there. -/

namespace ShellHistory

inductive Guard
  | bare
  | single
  | double
  deriving DecidableEq, Repr

structure Glyph where
  char : Char
  guard : Guard
  deriving DecidableEq, Repr

abbrev Word := List Glyph

abbrev Statement := List Word

/-- Characters that mean something to a shell outside of quotes. -/
def activeMarks : List Char :=
  ['\n', ' ', '\t', '\\', '\'', '"', '$', '\x60', '|', '&', ';', '(', ')', '<', '>', '*', '?', '[',
    ']', '\x7b', '\x7d', '~', '#', '!', '^']

def Glyph.isInert (g : Glyph) : Bool :=
  match g.guard with
  | .bare => g.char ∉ activeMarks
  | .single => true
  | .double => g.char ∉ ['"', '$', '\x60', '\\', '!']

def Word.text (w : Word) : String := String.ofList (w.map Glyph.char)

def Word.bare (s : String) : Word := s.toList.map fun c => ⟨c, .bare⟩

/-- Where a reader stands. After a backslash between the quotes of fish it is `escaped`. -/
inductive Mode
  | bare
  | single
  | escaped
  | double
  deriving DecidableEq, Repr

/-- What has been read: a word, if one has begun, the words before it, and the statements before
those. -/
structure Reader where
  mode : Mode
  word : Option Word
  words : Statement
  done : List Statement
  deriving DecidableEq, Repr

namespace Reader

def atStatement (done : List Statement) : Reader := ⟨.bare, none, [], done⟩

/-- The word with nothing added to it yet. Quotes begin a word even if nothing is between them. -/
def opened (r : Reader) : Word := r.word.getD []

def add (r : Reader) (g : Glyph) : Reader := { r with word := some (r.opened ++ [g]) }

def endWord (r : Reader) : Reader :=
  match r.word with
  | none => r
  | some w => { r with word := none, words := r.words ++ [w] }

def endStatement (r : Reader) : Reader :=
  let r := r.endWord
  if r.words = [] then r else { r with words := [], done := r.done ++ [r.words] }

def step (d : Dialect) (r : Reader) (c : Char) : Reader :=
  match r.mode with
  | .bare =>
    if c = '\n' then r.endStatement
    else if c = ' ' ∨ c = '\t' then r.endWord
    else if c = '\'' then { r with mode := .single, word := some r.opened }
    else if c = '"' then { r with mode := .double, word := some r.opened }
    else r.add ⟨c, .bare⟩
  | .single =>
    if c = '\'' then { r with mode := .bare }
    else if c = '\\' ∧ d = .fish then { r with mode := .escaped }
    else r.add ⟨c, .single⟩
  | .escaped =>
    if c = '\'' ∨ c = '\\' then { r.add ⟨c, .single⟩ with mode := .single }
    else { (r.add ⟨'\\', .single⟩).add ⟨c, .single⟩ with mode := .single }
  | .double => if c = '"' then { r with mode := .bare } else r.add ⟨c, .double⟩

def run (d : Dialect) (r : Reader) (s : String) : Reader := s.toList.foldl (step d) r

theorem run_append (d : Dialect) (r : Reader) (s t : String) :
    run d r (s ++ t) = run d (run d r s) t := by
  simp [run]

end Reader

def Dialect.read (d : Dialect) (s : String) : Option (List Statement) :=
  let r := Reader.run d (.atStatement []) s
  if r.mode = .bare then some r.endStatement.done else none

namespace Dialect

/-- The quotes around a character of a value. A single quote in a value needs double ones. -/
def guardIn (d : Dialect) (v : String) (c : Char) : Guard :=
  match d with
  | .fish => .single
  | .bash | .zsh =>
    if v.toList.all Words.isHarmless then .bare else if c = '\'' then .double else .single

def wording (d : Dialect) (v : String) : Word := v.toList.map fun c => ⟨c, d.guardIn v c⟩

theorem text_wording (d : Dialect) (v : String) : (d.wording v).text = v := by
  simp [wording, Word.text, Function.comp_def]

theorem not_active_of_isHarmless {c : Char} (h : Words.isHarmless c) : c ∉ activeMarks := by
  intro hc
  have hall : (activeMarks.all fun c => !Words.isHarmless c) = true := rfl
  have hharm : (!Words.isHarmless c) = true := List.all_eq_true.1 hall c hc
  rw [h] at hharm
  cases hharm

theorem wording_zsh (v : String) : wording .zsh v = wording .bash v := rfl

theorem inert_wording (d : Dialect) (v : String) : ∀ g ∈ d.wording v, g.isInert := by
  intro g hg
  cases d with
  | fish =>
    obtain ⟨c, -, rfl⟩ := List.mem_map.1 hg
    rfl
  | bash | zsh =>
    obtain ⟨c, hc, rfl⟩ := List.mem_map.1 hg
    by_cases hv : v.toList.all Words.isHarmless
    · have hm := not_active_of_isHarmless (List.all_eq_true.1 hv c hc)
      simpa [Glyph.isInert, guardIn, hv] using hm
    by_cases hq : c = '\''
    · simp [Glyph.isInert, guardIn, hv, hq]
    · simp [Glyph.isInert, guardIn, hv, hq]

end Dialect

namespace Reader

variable {d : Dialect} {words : Statement} {done : List Statement}

theorem step_bare {c : Char} (hc : c ∉ activeMarks) (w : Option Word) :
    step d ⟨.bare, w, words, done⟩ c =
      ⟨.bare, some (w.getD [] ++ [⟨c, .bare⟩]), words, done⟩ := by
  simp only [activeMarks, List.mem_cons, not_or] at hc
  obtain ⟨h1, h2, h3, -, h4, h5, -⟩ := hc
  simp [step, h1, h2, h3, h4, h5, add, opened]

/-- What stands for itself outside of quotes is added to the word that is read. -/
theorem foldl_bare {s : List Char} (hs : ∀ c ∈ s, c ∉ activeMarks) (hne : s ≠ [])
    (w : Option Word) : s.foldl (step d) ⟨.bare, w, words, done⟩ =
      ⟨.bare, some (w.getD [] ++ s.map fun c => ⟨c, .bare⟩), words, done⟩ := by
  induction s generalizing w with
  | nil => exact absurd rfl hne
  | cons c rest ih =>
    obtain ⟨hc, hrest⟩ := List.forall_mem_cons.1 hs
    rw [List.foldl_cons, step_bare hc]
    by_cases hr : rest = []
    · subst hr
      rfl
    · rw [ih hrest hr, Option.getD_some, List.map_cons, List.append_assoc]
      rfl

/-- Between the quotes that a POSIX shell reads, a value stands for itself. -/
theorem foldl_quotedChar (hd : d ≠ .fish) (s : List Char) (w : Word) :
    (s.flatMap Words.quotedChar).foldl (step d) ⟨.single, some w, words, done⟩ =
      ⟨.single, some (w ++ s.map fun c => ⟨c, if c = '\'' then .double else .single⟩), words,
        done⟩ := by
  induction s generalizing w with
  | nil => simp
  | cons c rest ih =>
    have hstep : (Words.quotedChar c).foldl (step d) ⟨.single, some w, words, done⟩ =
        ⟨.single, some (w ++ [⟨c, if c = '\'' then .double else .single⟩]), words, done⟩ := by
      by_cases hq : c = '\''
      · subst hq
        simp [Words.quotedChar, step, add, opened]
      · simp [Words.quotedChar, hq, hd, step, add, opened]
    rw [List.flatMap_cons, List.foldl_append, hstep, ih, List.map_cons, List.append_assoc]
    rfl

theorem foldl_fishChar (s : List Char) (w : Word) :
    (s.flatMap Dialect.fishChar).foldl (step .fish) ⟨.single, some w, words, done⟩ =
      ⟨.single, some (w ++ s.map fun c => ⟨c, .single⟩), words, done⟩ := by
  induction s generalizing w with
  | nil => simp
  | cons c rest ih =>
    have hstep : (Dialect.fishChar c).foldl (step .fish) ⟨.single, some w, words, done⟩ =
        ⟨.single, some (w ++ [⟨c, .single⟩]), words, done⟩ := by
      by_cases hc : c = '\\' ∨ c = '\''
      · rcases hc with rfl | rfl <;> simp [Dialect.fishChar, step, add, opened]
      · obtain ⟨hb, hq⟩ := not_or.1 hc
        simp [Dialect.fishChar, hb, hq, step, add, opened]
    rw [List.flatMap_cons, List.foldl_append, hstep, ih, List.map_cons, List.append_assoc]
    rfl

theorem run_posixQuote (hd : d ≠ .fish) (v : String) (w : Option Word) :
    run d ⟨.bare, w, words, done⟩ (Words.quote v) =
      ⟨.bare, some (w.getD [] ++ Dialect.bash.wording v), words, done⟩ := by
  unfold run Words.quote Words.quoteChars Dialect.wording Dialect.guardIn
  rw [String.toList_ofList]
  split
  · next hv =>
    rw [hv]
    simp [step, opened]
  split
  · next hne hv =>
    have hs : ∀ c ∈ v.toList, c ∉ activeMarks := fun c hc =>
      Dialect.not_active_of_isHarmless (List.all_eq_true.1 hv c hc)
    rw [foldl_bare hs hne]
  · next hv =>
    have hopen : step d ⟨.bare, w, words, done⟩ '\'' =
        ⟨.single, some (w.getD []), words, done⟩ := by
      simp [step, opened]
    rw [List.cons_append, List.foldl_cons, hopen, List.foldl_append, foldl_quotedChar hd]
    rfl

theorem run_fishQuote (v : String) (w : Option Word) :
    run .fish ⟨.bare, w, words, done⟩ (Dialect.fishQuote v) =
      ⟨.bare, some (w.getD [] ++ Dialect.fish.wording v), words, done⟩ := by
  have hopen : step .fish ⟨.bare, w, words, done⟩ '\'' =
      ⟨.single, some (w.getD []), words, done⟩ := by
    simp [step, opened]
  unfold run Dialect.fishQuote
  rw [String.toList_ofList, List.cons_append, List.foldl_cons, hopen, List.foldl_append,
    foldl_fishChar]
  rfl

/-- A quoted value is read as the value, at the end of the word that it stands in. -/
theorem run_quote (d : Dialect) (v : String) (w : Option Word) :
    run d ⟨.bare, w, words, done⟩ (d.quote v) =
      ⟨.bare, some (w.getD [] ++ d.wording v), words, done⟩ := by
  cases d with
  | bash => exact run_posixQuote (by decide) v w
  | zsh =>
    rw [Dialect.wording_zsh]
    exact run_posixQuote (by decide) v w
  | fish => exact run_fishQuote v w

/-- A text that is read as one statement, whatever has been read before it. -/
def Reads (d : Dialect) (text : String) (s : Statement) : Prop :=
  ∀ done, (run d (atStatement done) text).endStatement = atStatement (done ++ [s])

/-- A statement that ends in a value, told from what is read up to the value. -/
theorem reads_append_quote {text v : String} {w : Option Word}
    (h : ∀ done, run d (atStatement done) text = ⟨.bare, w, words, done⟩) :
    Reads d (text ++ d.quote v) (words ++ [w.getD [] ++ d.wording v]) := by
  intro done
  rw [run_append, h, run_quote]
  simp [endStatement, endWord, atStatement]

theorem mode_endStatement (r : Reader) : r.endStatement.mode = r.mode := by
  have hword : r.endWord.mode = r.mode := by
    unfold endWord
    split <;> rfl
  unfold endStatement
  dsimp only
  split
  · exact hword
  · exact hword

theorem run_break {r : Reader} (h : r.mode = .bare) : run d r "\n" = r.endStatement := by
  simp [run, step, h]

inductive ReadsAll (d : Dialect) : List String → List Statement → Prop
  | nil : ReadsAll d [] []
  | cons {text : String} {s : Statement} {texts : List String} {ss : List Statement} :
      Reads d text s → ReadsAll d texts ss → ReadsAll d (text :: texts) (s :: ss)

theorem ReadsAll.single {text : String} {s : Statement} (h : Reads d text s) :
    ReadsAll d [text] [s] := .cons h .nil

theorem ReadsAll.append {texts texts' : List String} {ss ss' : List Statement}
    (h : ReadsAll d texts ss) (h' : ReadsAll d texts' ss') :
    ReadsAll d (texts ++ texts') (ss ++ ss') := by
  induction h with
  | nil => exact h'
  | cons hp _ ih => exact .cons hp ih

theorem ReadsAll.map {ι : Type} {l : List ι} {f : ι → String} {g : ι → Statement}
    (h : ∀ i ∈ l, Reads d (f i) (g i)) : ReadsAll d (l.map f) (l.map g) := by
  induction l with
  | nil => exact .nil
  | cons i rest ih =>
    obtain ⟨hi, hrest⟩ := List.forall_mem_cons.1 h
    exact .cons hi (ih hrest)

theorem ReadsAll.run_ofStatements {texts : List String} {ss : List Statement}
    (h : ReadsAll d texts ss) (done : List Statement) :
    (run d (atStatement done) (Dialect.ofStatements texts)).endStatement =
      atStatement (done ++ ss) := by
  unfold Dialect.ofStatements
  induction h generalizing done with
  | nil => simp [run, endStatement, endWord, atStatement]
  | @cons text s texts ss hp hrest ih =>
    rcases texts with _ | ⟨next, texts⟩
    · cases hrest
      simpa using hp done
    -- the line break between two statements is read where the first one ends
    have hmode : (run d (atStatement done) text).mode = .bare := by
      rw [← mode_endStatement, hp done]
      rfl
    have hbreak : run d (atStatement done) (text ++ "\n") = atStatement (done ++ [s]) := by
      rw [run_append, run_break hmode, hp done]
    rw [String.intercalate_cons_cons, run_append, hbreak, ih, List.append_assoc]
    rfl

theorem ReadsAll.mode_ofStatements {texts : List String} {ss : List Statement}
    (h : ReadsAll d texts ss) :
    (run d (atStatement []) (Dialect.ofStatements texts)).mode = .bare := by
  rw [← mode_endStatement, h.run_ofStatements]
  rfl

end Reader

namespace Dialect

variable {d : Dialect} {texts : List String} {ss : List Statement}

theorem read_ofStatements (h : Reader.ReadsAll d texts ss) : d.read (ofStatements texts) = some ss := by
  unfold read
  dsimp only
  rw [h.run_ofStatements, if_pos h.mode_ofStatements]
  rfl

/-- A line break behind the last statement changes nothing. -/
theorem read_ofStatements_break (h : Reader.ReadsAll d texts ss) :
    d.read (ofStatements texts ++ "\n") = some ss := by
  unfold read
  dsimp only
  rw [Reader.run_append, Reader.run_break h.mode_ofStatements, h.run_ofStatements]
  rfl

end Dialect
end ShellHistory
