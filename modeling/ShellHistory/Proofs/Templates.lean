import ShellHistory.Proofs.Reader

/-! Scripts made from a template. Every place that is left open is filled with one and the same text,
and nothing else of the template changes. The text is quoted by the rules of a POSIX shell, so bash
and zsh read the program out of it. fish takes some backslashes between single quotes for escapes. -/

namespace ShellHistory

namespace Text

variable {old s rest piece : List Char} {pieces : List (List Char)}

theorem replaceFrom_drop (old new : List Char) (skip : Nat) (s : List Char) :
    replaceFrom old new skip s = replaceAll old new (s.drop skip) := by
  induction s generalizing skip with
  | nil => cases skip <;> rfl
  | cons c rest ih =>
    cases skip with
    | zero => rfl
    | succ skip => exact ih skip

theorem replaceAll_append (new : List Char) (h : old ≠ []) (rest : List Char) :
    replaceAll old new (old ++ rest) = new ++ replaceAll old new rest := by
  obtain ⟨c, more, rfl⟩ := List.exists_cons_of_ne_nil h
  have hprefix : (c :: more).isPrefixOf (c :: (more ++ rest)) = true :=
    List.isPrefixOf_iff_prefix.2 ⟨rest, rfl⟩
  rw [List.cons_append, replaceAll, replaceFrom, if_pos hprefix, replaceFrom_drop]
  simp

theorem replaceAll_cons (new : List Char) {c : Char} (h : ¬ old <+: c :: rest) :
    replaceAll old new (c :: rest) = c :: replaceAll old new rest := by
  have hprefix : ¬ old.isPrefixOf (c :: rest) = true := fun hp => h (List.isPrefixOf_iff_prefix.1 hp)
  rw [replaceAll, replaceFrom, if_neg hprefix]
  rfl

/-- A text cut at every occurrence of `old`: it is the pieces with `old` between them, and there is
none inside of a piece. -/
structure Cut (old s : List Char) (pieces : List (List Char)) : Prop where
  joined : s = List.intercalate old pieces
  clean : ∀ piece ∈ pieces, ¬ old <:+: piece

theorem intercalate_cons_head (new : List Char) (c : Char) (piece : List Char)
    (pieces : List (List Char)) : List.intercalate new ((c :: piece) :: pieces) =
      c :: List.intercalate new (piece :: pieces) := by
  cases pieces with
  | nil => simp
  | cons next pieces => simp [List.intercalate_cons_cons]

theorem prefix_intercalate (new piece : List Char) (pieces : List (List Char)) :
    piece <+: List.intercalate new (piece :: pieces) := by
  cases pieces with
  | nil => simp
  | cons next pieces =>
    rw [List.intercalate_cons_cons]
    exact ⟨_, (List.append_assoc _ _ _).symm⟩

theorem Cut.append (h : old ≠ []) (hcut : Cut old rest (piece :: pieces)) :
    Cut old (old ++ rest) ([] :: piece :: pieces) where
  joined := by rw [List.intercalate_cons_cons, List.nil_append, ← hcut.joined]
  clean p hp := by
    rcases List.mem_cons.1 hp with rfl | hp
    · exact fun hi => h (List.eq_nil_of_infix_nil hi)
    · exact hcut.clean p hp

/-- The first piece grows where `old` does not begin. -/
theorem Cut.cons {c : Char} (h : ¬ old <+: c :: rest) (hcut : Cut old rest (piece :: pieces)) :
    Cut old (c :: rest) ((c :: piece) :: pieces) where
  joined := by rw [intercalate_cons_head, ← hcut.joined]
  clean p hp := by
    rcases List.mem_cons.1 hp with rfl | hp
    · intro hi
      have hbegin : c :: piece <+: c :: rest := by
        rw [hcut.joined, ← intercalate_cons_head]
        exact prefix_intercalate old (c :: piece) pieces
      rcases List.infix_cons_iff.1 hi with hi | hi
      · exact h (hi.trans hbegin)
      · exact hcut.clean piece List.mem_cons_self hi
    · exact hcut.clean p (List.mem_cons_of_mem piece hp)

/-- Replacing fills the places where a text is cut, and the pieces between them stay. -/
theorem exists_cut (h : old ≠ []) (s : List Char) :
    ∃ piece pieces, Cut old s (piece :: pieces) ∧
      ∀ new, replaceAll old new s = List.intercalate new (piece :: pieces) := by
  induction hn : s.length using Nat.strongRecOn generalizing s with
  | ind n ih =>
  cases s with
  | nil =>
    refine ⟨[], [], ⟨rfl, fun piece hp hi => ?_⟩, fun new => rfl⟩
    rw [List.mem_singleton.1 hp] at hi
    exact h (List.eq_nil_of_infix_nil hi)
  | cons c rest =>
    by_cases hp : old <+: c :: rest
    · obtain ⟨more, hmore⟩ := hp
      have hlt : more.length < n := by
        have hlength := congrArg List.length hmore
        have hpos := List.length_pos_iff.2 h
        rw [List.length_append, hn] at hlength
        omega
      obtain ⟨piece, pieces, hcut, hnew⟩ := ih more.length hlt more rfl
      refine ⟨[], piece :: pieces, hmore ▸ hcut.append h, fun new => ?_⟩
      rw [← hmore, replaceAll_append new h, hnew, List.intercalate_cons_cons, List.nil_append]
    · obtain ⟨piece, pieces, hcut, hnew⟩ := ih rest.length (by simp [← hn]) rest rfl
      refine ⟨c :: piece, pieces, hcut.cons hp, fun new => ?_⟩
      rw [replaceAll_cons new hp, hnew, intercalate_cons_head]

/-- What stands between the pieces is told by the whole, if there is more than one piece. -/
theorem eq_of_intercalate_eq {a b first second : List Char} {rest : List (List Char)}
    (h : List.intercalate a (first :: second :: rest) = List.intercalate b (first :: second :: rest)) :
    a = b := by
  have hlength (a : List Char) (piece : List Char) (pieces : List (List Char)) :
      (List.intercalate a (piece :: pieces)).length =
        (piece :: pieces).flatten.length + pieces.length * a.length := by
    induction pieces generalizing piece with
    | nil => simp
    | cons next pieces ih =>
      rw [List.intercalate_cons_cons, List.length_append, List.length_append, ih]
      simp only [List.flatten_cons, List.length_append, List.length_cons, Nat.succ_mul]
      omega
  have hsame : a.length = b.length := by
    have hlengths := congrArg List.length h
    rw [hlength, hlength, Nat.add_left_cancel_iff] at hlengths
    exact Nat.eq_of_mul_eq_mul_left (Nat.succ_pos rest.length) hlengths
  rw [List.intercalate_cons_cons, List.intercalate_cons_cons] at h
  have hbegin := List.append_inj_left h (by simp [hsame])
  exact List.append_cancel_left hbegin

end Text

/-- A value with a backslash that fish takes for the beginning of an escape when the value is quoted
for a POSIX shell: one before a backslash or a quote, or at the end, where the closing quote follows. -/
def Garbled (v : List Char) : Prop :=
  ∃ rest, '\\' :: rest <:+ v ∧ ∀ c ∈ rest.head?, c = '\\' ∨ c = '\''

section Garbled

variable {c : Char} {v : List Char}

theorem not_garbled_nil : ¬ Garbled [] := by
  rintro ⟨rest, hs, -⟩
  cases List.eq_nil_of_suffix_nil hs

theorem garbled_cons (hc : c ≠ '\\') : Garbled (c :: v) ↔ Garbled v := by
  constructor
  · rintro ⟨rest, hs, hr⟩
    rcases List.suffix_cons_iff.1 hs with he | hs
    · exact absurd (List.cons.inj he).1.symm hc
    · exact ⟨rest, hs, hr⟩
  · rintro ⟨rest, hs, hr⟩
    exact ⟨rest, List.suffix_cons_iff.2 (.inr hs), hr⟩

theorem garbled_backslash : Garbled ['\\'] := ⟨[], List.suffix_rfl, nofun⟩

theorem garbled_backslash_cons :
    Garbled ('\\' :: c :: v) ↔ (c = '\\' ∨ c = '\'') ∨ Garbled (c :: v) := by
  constructor
  · rintro ⟨rest, hs, hr⟩
    rcases List.suffix_cons_iff.1 hs with he | hs
    · exact .inl (hr c ((List.cons.inj he).2 ▸ rfl))
    · exact .inr ⟨rest, hs, hr⟩
  · rintro (hc | ⟨rest, hs, hr⟩)
    · exact ⟨c :: v, List.suffix_rfl, fun d hd => Option.some.inj hd ▸ hc⟩
    · exact ⟨rest, List.suffix_cons_iff.2 (.inr hs), hr⟩

end Garbled

namespace Reader

variable {d : Dialect} {words : Statement} {done : List Statement}

def glyphs (r : Reader) : List Glyph := r.done.flatten.flatten ++ r.words.flatten ++ r.opened

def backslashes (r : Reader) : Nat :=
  r.glyphs.countP (·.char = '\\') + if r.mode = .escaped then 1 else 0

theorem glyphs_endWord (r : Reader) : r.endWord.glyphs = r.glyphs := by
  unfold endWord
  split
  · rfl
  · next w hw => simp [glyphs, opened, hw]

theorem mode_endWord (r : Reader) : r.endWord.mode = r.mode := by
  unfold endWord
  split <;> rfl

theorem glyphs_endStatement (r : Reader) : r.endStatement.glyphs = r.glyphs := by
  rw [← glyphs_endWord r]
  unfold endStatement
  dsimp only
  split
  · rfl
  · simp [glyphs, opened]

theorem glyphs_add (r : Reader) (g : Glyph) : (r.add g).glyphs = r.glyphs ++ [g] := by
  simp [glyphs, opened, add]

theorem backslashes_le {r t : Reader} {c : Char} (hm : t.mode ≠ .escaped)
    (hg : t.glyphs = r.glyphs ∨ ∃ guard, t.glyphs = r.glyphs ++ [⟨c, guard⟩]) :
    backslashes t ≤ backslashes r + if c = '\\' then 1 else 0 := by
  unfold backslashes
  rw [if_neg hm]
  rcases hg with hg | ⟨guard, hg⟩
  · rw [hg]
    omega
  · rw [hg, List.countP_append, List.countP_singleton]
    simp only [decide_eq_true_eq]
    omega

theorem backslashes_escape {r : Reader} {c : Char} (hmode : r.mode = .escaped)
    (hc : c = '\\' ∨ c = '\'') :
    backslashes (step .fish r c) < backslashes r + if c = '\\' then 1 else 0 := by
  have hg : (step .fish r c).glyphs = r.glyphs ++ [⟨c, .single⟩] := by
    rw [step, hmode]
    dsimp only
    rw [if_pos hc.symm]
    exact glyphs_add r _
  have hm : (step .fish r c).mode ≠ .escaped := by simp [step, hmode, hc.symm]
  rw [backslashes, if_neg hm, hg, List.countP_append, List.countP_singleton, backslashes, if_pos hmode]
  simp only [decide_eq_true_eq]
  omega

theorem backslashes_step (r : Reader) (c : Char) :
    backslashes (step .fish r c) ≤ backslashes r + if c = '\\' then 1 else 0 := by
  cases hmode : r.mode with
  | bare =>
    simp only [step, hmode]
    split
    · exact backslashes_le (by simp [mode_endStatement, hmode]) (.inl (glyphs_endStatement r))
    split
    · exact backslashes_le (by simp [mode_endWord, hmode]) (.inl (glyphs_endWord r))
    split
    · exact backslashes_le (by simp) (.inl rfl)
    split
    · exact backslashes_le (by simp) (.inl rfl)
    · exact backslashes_le (by simp [add, hmode]) (.inr ⟨.bare, glyphs_add r _⟩)
  | single =>
    simp only [step, hmode]
    split
    · exact backslashes_le (by simp) (.inl rfl)
    split
    · next hc => simp [backslashes, hc.1, hmode, glyphs, opened]
    · exact backslashes_le (by simp [add, hmode]) (.inr ⟨.single, glyphs_add r _⟩)
  | escaped =>
    by_cases hc : c = '\\' ∨ c = '\''
    · exact Nat.le_of_lt (backslashes_escape hmode hc)
    -- a backslash that escapes nothing stands for itself
    · have hg : (step .fish r c).glyphs = r.glyphs ++ [⟨'\\', .single⟩, ⟨c, .single⟩] := by
        rw [step, hmode]
        dsimp only
        rw [if_neg fun h => hc h.symm]
        refine (glyphs_add (r.add ⟨'\\', .single⟩) ⟨c, .single⟩).trans ?_
        rw [glyphs_add, List.append_assoc]
        rfl
      have hm : (step .fish r c).mode ≠ .escaped := by
        rw [step, hmode]
        dsimp only
        rw [if_neg fun h => hc h.symm]
        intro hm
        cases hm
      rw [backslashes, if_neg hm, hg, backslashes, if_pos hmode, List.countP_append]
      simp [(not_or.1 hc).1]
  | double =>
    simp only [step, hmode]
    split
    · exact backslashes_le (by simp) (.inl rfl)
    · exact backslashes_le (by simp [add, hmode]) (.inr ⟨.double, glyphs_add r _⟩)

theorem backslashes_foldl (s : List Char) (r : Reader) :
    backslashes (s.foldl (step .fish) r) ≤ backslashes r + s.count '\\' := by
  induction s generalizing r with
  | nil => simp
  | cons c rest ih =>
    have hstep := backslashes_step r c
    have hrest := ih (step .fish r c)
    rw [List.foldl_cons, List.count_cons]
    simp only [beq_iff_eq]
    omega

theorem count_quotedChar (s : List Char) :
    (s.flatMap Words.quotedChar).count '\\' = s.count '\\' := by
  induction s with
  | nil => rfl
  | cons c rest ih =>
    have hc : (Words.quotedChar c).count '\\' = if c = '\\' then 1 else 0 := by
      by_cases hq : c = '\''
      · subst hq
        rfl
      · simp [Words.quotedChar, hq, List.count_singleton]
    rw [List.flatMap_cons, List.count_append, ih, hc, List.count_cons]
    simp only [beq_iff_eq]
    omega

/-- The quotes around a character between the quotes of a POSIX shell. -/
def quotedGlyph (c : Char) : Glyph := ⟨c, if c = '\'' then .double else .single⟩

section Fish

variable (w : Word)

theorem foldl_fish_char {c : Char} (hc : c ≠ '\\') :
    (Words.quotedChar c).foldl (step .fish) ⟨.single, some w, words, done⟩ =
      ⟨.single, some (w ++ [quotedGlyph c]), words, done⟩ := by
  by_cases hq : c = '\''
  · subst hq
    simp [Words.quotedChar, quotedGlyph, step, add, opened]
  · simp [Words.quotedChar, quotedGlyph, hq, hc, step, add, opened]

theorem foldl_fish_unescaped {c : Char} (hb : c ≠ '\\') (hq : c ≠ '\'') :
    (Words.quotedChar c).foldl (step .fish) ⟨.escaped, some w, words, done⟩ =
      ⟨.single, some (w ++ [quotedGlyph '\\', quotedGlyph c]), words, done⟩ := by
  simp [Words.quotedChar, quotedGlyph, hq, hb, step, add, opened]

/-- Between single quotes, fish reads a value as it is if it is not garbled. The induction goes over
both places that the reader can stand at, with a backslash before the value or not. -/
theorem foldl_fish_plain (v : List Char) :
    (¬ Garbled v → (v.flatMap Words.quotedChar ++ ['\'']).foldl (step .fish)
        ⟨.single, some w, words, done⟩ =
      ⟨.bare, some (w ++ v.map quotedGlyph), words, done⟩) ∧
    (¬ Garbled ('\\' :: v) → (v.flatMap Words.quotedChar ++ ['\'']).foldl (step .fish)
        ⟨.escaped, some w, words, done⟩ =
      ⟨.bare, some (w ++ ('\\' :: v).map quotedGlyph), words, done⟩) := by
  induction v generalizing w with
  | nil => exact ⟨fun _ => by simp [step], fun h => absurd garbled_backslash h⟩
  | cons c v ih =>
    rw [List.flatMap_cons, List.append_assoc]
    refine ⟨fun h => ?_, fun h => ?_⟩
    · by_cases hc : c = '\\'
      · subst hc
        exact (ih w).2 h
      · rw [List.foldl_append, foldl_fish_char w hc, (ih _).1 fun hg => h ((garbled_cons hc).2 hg),
          List.append_assoc]
        rfl
    · obtain ⟨hc, hv⟩ := not_or.1 fun hg => h (garbled_backslash_cons.2 hg)
      obtain ⟨hb, hq⟩ := not_or.1 hc
      rw [List.foldl_append, foldl_fish_unescaped w hb hq,
        (ih _).1 fun hg => hv ((garbled_cons hb).2 hg), List.append_assoc]
      rfl

/-- Between single quotes, fish loses a backslash of a garbled value. -/
theorem backslashes_garbled (v : List Char) :
    (Garbled v → backslashes ((v.flatMap Words.quotedChar ++ ['\'']).foldl (step .fish)
        ⟨.single, some w, words, done⟩) <
      backslashes ⟨.single, some w, words, done⟩ + v.count '\\') ∧
    (Garbled ('\\' :: v) → backslashes ((v.flatMap Words.quotedChar ++ ['\'']).foldl (step .fish)
        ⟨.escaped, some w, words, done⟩) <
      backslashes ⟨.escaped, some w, words, done⟩ + v.count '\\') := by
  induction v generalizing w with
  | nil =>
    refine ⟨fun h => absurd h not_garbled_nil, fun _ => ?_⟩
    have hlost := backslashes_escape (r := ⟨.escaped, some w, words, done⟩) rfl (.inr rfl)
    simpa using hlost
  | cons c v ih =>
    rw [List.flatMap_cons, List.append_assoc]
    have hheld : backslashes ⟨.escaped, some w, words, done⟩ =
        backslashes ⟨.single, some w, words, done⟩ + 1 := by
      simp [backslashes, glyphs, opened]
    have hgrown (gs : List Glyph) : backslashes ⟨.single, some (w ++ gs), words, done⟩ =
        backslashes ⟨.single, some w, words, done⟩ + gs.countP (·.char = '\\') := by
      simp [backslashes, glyphs, opened, List.countP_append, Nat.add_assoc]
    refine ⟨fun h => ?_, fun h => ?_⟩
    · by_cases hc : c = '\\'
      · subst hc
        have hlost := (ih w).2 h
        rw [List.count_cons_self]
        change backslashes (List.foldl (step .fish) ⟨.escaped, some w, words, done⟩
          (v.flatMap Words.quotedChar ++ ['\''])) < _
        omega
      · have hlost := (ih (w ++ [quotedGlyph c])).1 ((garbled_cons hc).1 h)
        have hnone : [quotedGlyph c].countP (·.char = '\\') = 0 := by simp [quotedGlyph, hc]
        rw [hgrown, hnone] at hlost
        rw [List.foldl_append, foldl_fish_char w hc, List.count_cons_of_ne hc]
        exact hlost
    · by_cases hc : c = '\\' ∨ c = '\''
      · obtain ⟨rest, hrest⟩ : ∃ rest, Words.quotedChar c = c :: rest := by
          rcases hc with rfl | rfl
          · exact ⟨_, rfl⟩
          · exact ⟨_, rfl⟩
        have hcount : (c :: v).count '\\' =
            (c :: (rest ++ (v.flatMap Words.quotedChar ++ ['\'']))).count '\\' := by
          rw [← List.cons_append, ← hrest, ← List.append_assoc, ← List.flatMap_cons,
            List.count_append, count_quotedChar]
          rfl
        have hlost := backslashes_escape (r := ⟨.escaped, some w, words, done⟩) rfl hc
        have hkept := backslashes_foldl (rest ++ (v.flatMap Words.quotedChar ++ ['\'']))
          (step .fish ⟨.escaped, some w, words, done⟩ c)
        rw [hcount, hrest, List.cons_append, List.foldl_cons, List.count_cons]
        simp only [beq_iff_eq]
        omega
      · obtain ⟨hb, hq⟩ := not_or.1 hc
        have hv := (garbled_cons hb).1 ((garbled_backslash_cons.1 h).resolve_left hc)
        have hlost := (ih (w ++ [quotedGlyph '\\', quotedGlyph c])).1 hv
        have hone : [quotedGlyph '\\', quotedGlyph c].countP (·.char = '\\') = 1 := by
          simp [quotedGlyph, hb]
        rw [hgrown, hone] at hlost
        rw [List.foldl_append, foldl_fish_unescaped w hb hq, List.count_cons_of_ne hb, hheld]
        exact hlost

end Fish

theorem not_garbled_of_harmless {v : List Char} (h : v.all Words.isHarmless) : ¬ Garbled v := by
  rintro ⟨rest, hs, -⟩
  have hmem : '\\' ∈ v := hs.subset List.mem_cons_self
  exact absurd (List.all_eq_true.1 h _ hmem) (by decide)

theorem quote_of_not_harmless {v : String} (h : ¬ v.toList.all Words.isHarmless) :
    (Words.quote v).toList = '\'' :: (v.toList.flatMap Words.quotedChar ++ ['\'']) := by
  have hne : v.toList ≠ [] := fun he => h (by rw [he]; rfl)
  rw [Words.quote, String.toList_ofList, Words.quoteChars, if_neg hne, if_neg h]
  rfl

/-- A value that is not garbled is read by fish as by the other shells. -/
theorem run_posixQuote_fish {v : String} (h : ¬ Garbled v.toList) :
    run .fish ⟨.bare, none, words, done⟩ (Words.quote v) =
      ⟨.bare, some (Dialect.bash.wording v), words, done⟩ := by
  by_cases hv : v.toList.all Words.isHarmless
  · have hw : Dialect.bash.wording v = v.toList.map fun c => ⟨c, .bare⟩ := by
      simp [Dialect.wording, Dialect.guardIn, hv]
    by_cases hne : v.toList = []
    · rw [hw, hne, run, Words.quote, hne]
      rfl
    · have hs : ∀ c ∈ v.toList, c ∉ activeMarks := fun c hc =>
        Dialect.not_active_of_isHarmless (List.all_eq_true.1 hv c hc)
      rw [run, Words.quote, String.toList_ofList, Words.quoteChars, if_neg hne, if_pos hv,
        foldl_bare hs hne, hw]
      rfl
  · have hw : Dialect.bash.wording v = v.toList.map quotedGlyph := by
      simp only [Dialect.wording, Dialect.guardIn, if_neg hv]
      rfl
    have hopen : step .fish ⟨.bare, none, words, done⟩ '\'' = ⟨.single, some [], words, done⟩ := rfl
    rw [run, quote_of_not_harmless hv, List.foldl_cons, hopen, (foldl_fish_plain [] _).1 h, hw]
    rfl

theorem flatten_endStatement (r : Reader) : r.endStatement.done.flatten.flatten = r.glyphs := by
  have hopened : r.endWord.opened = [] := by
    unfold endWord
    split
    · next hw => rw [opened, hw]; rfl
    · rfl
  rw [← glyphs_endWord r, glyphs, hopened, List.append_nil]
  unfold endStatement
  dsimp only
  split
  · next hw => rw [hw]; simp
  · simp

end Reader

/-- A text that a shell reads as one word, wherever a word may begin, with every character of it
standing for itself. -/
def Dialect.ReadsAs (d : Dialect) (text value : String) : Prop :=
  ∃ w : Word, w.text = value ∧ (∀ g ∈ w, g.isInert) ∧
    ∀ words done, Reader.run d ⟨.bare, none, words, done⟩ text = ⟨.bare, some w, words, done⟩

namespace Dialect

theorem ReadsAs.read {d : Dialect} {text value : String} (h : d.ReadsAs text value) :
    ∃ w : Word, w.text = value ∧ d.read text = some [[w]] := by
  obtain ⟨w, hw, -, hrun⟩ := h
  refine ⟨w, hw, ?_⟩
  rw [Dialect.read, Reader.atStatement, hrun]
  rfl

/-- What is quoted by the rules of the shell itself is read as it was. -/
theorem readsAs_quote (d : Dialect) (v : String) : d.ReadsAs (d.quote v) v :=
  ⟨d.wording v, d.text_wording v, d.inert_wording v, fun _ _ => Reader.run_quote d v none⟩

theorem readsAs_posixQuote {d : Dialect} {v : String} (h : d = .fish → ¬ Garbled v.toList) :
    d.ReadsAs (Words.quote v) v := by
  refine ⟨bash.wording v, bash.text_wording v, bash.inert_wording v, fun words done => ?_⟩
  cases d with
  | bash => exact Reader.run_posixQuote (by decide) v none
  | zsh => exact Reader.run_posixQuote (by decide) v none
  | fish => exact Reader.run_posixQuote_fish (h rfl)

/-- Whatever fish makes of a garbled value, it is not the value: there is a backslash less in it. -/
theorem text_ne_of_garbled {v : String} {w : Word} (h : Garbled v.toList)
    (hr : fish.read (Words.quote v) = some [[w]]) : w.text ≠ v := by
  intro hw
  have hv : ¬ v.toList.all Words.isHarmless := fun hv => Reader.not_garbled_of_harmless hv h
  have hopen : Reader.run .fish (.atStatement []) (Words.quote v) =
      (v.toList.flatMap Words.quotedChar ++ ['\'']).foldl (Reader.step .fish)
        ⟨.single, some [], [], []⟩ := by
    rw [Reader.run, Reader.quote_of_not_harmless hv]
    rfl
  have hlost := (@Reader.backslashes_garbled [] [] [] v.toList).1 h
  rw [← hopen] at hlost
  have hkept : w.countP (·.char = '\\') = v.toList.count '\\' := by
    rw [← hw, Word.text, String.toList_ofList, List.count, List.countP_map]
    rfl
  unfold Dialect.read at hr
  dsimp only at hr
  split at hr
  · have hread := Reader.flatten_endStatement (Reader.run .fish (.atStatement []) (Words.quote v))
    rw [Option.some.inj hr, List.flatten_singleton, List.flatten_singleton] at hread
    have hnone : Reader.backslashes ⟨.single, some [], [], []⟩ = 0 := rfl
    rw [Reader.backslashes, ← hread, hkept, hnone] at hlost
    omega
  · cases hr

theorem infix_ofLines {lines : List String} {before old after : String}
    (h : before ++ old ++ after ∈ lines) : old.toList <:+: (ofLines lines).toList := by
  have hline : (before ++ old ++ after).toList <:+: (ofLines lines).toList := by
    obtain ⟨l, m, rfl⟩ := List.append_of_mem h
    refine ⟨l.flatMap fun line => (line ++ "\n").toList,
      "\n".toList ++ m.flatMap fun line => (line ++ "\n").toList, ?_⟩
    simp [ofLines, List.flatMap_map]
  refine List.IsInfix.trans ⟨before.toList, after.toList, ?_⟩ hline
  rw [String.toList_append, String.toList_append]

theorem placeholder_infix (d : Dialect) : placeholder.toList <:+: d.template.toList := by
  cases d with
  | bash =>
    have hline : "        " ++ placeholder ++ " capture -- \"$1\"" =
        "        @VELLUM_HOOK@ capture -- \"$1\"" := by decide +kernel
    refine @infix_ofLines _ "        " _ " capture -- \"$1\"" ?_
    rw [hline]
    simp
  | zsh =>
    have hline : "        \\command " ++ placeholder ++ " capture -- \"$1\"" =
        "        \\command @VELLUM_HOOK@ capture -- \"$1\"" := by decide +kernel
    refine @infix_ofLines _ "        \\command " _ " capture -- \"$1\"" ?_
    rw [hline]
    simp
  | fish =>
    have hline : "            " ++ placeholder ++ " capture -- $argv[1]" =
        "            @VELLUM_HOOK@ capture -- $argv[1]" := by decide +kernel
    refine @infix_ofLines _ "            " _ " capture -- $argv[1]" ?_
    rw [hline]
    simp

/-- The program stands at the places that the template leaves open, of which there are some. -/
theorem exists_script_cut (d : Dialect) (program : String) : ∃ first second rest,
    Text.Cut placeholder.toList d.template.toList (first :: second :: rest) ∧
      (d.script program).toList =
        List.intercalate (Words.quote program).toList (first :: second :: rest) := by
  have hne : placeholder.toList ≠ [] := by decide
  obtain ⟨first, pieces, hcut, hnew⟩ := Text.exists_cut hne d.template.toList
  cases pieces with
  | nil =>
    have hwhole : d.template.toList = first := by
      rw [hcut.joined, List.intercalate_singleton]
    exact absurd (hwhole ▸ d.placeholder_infix) (hcut.clean first List.mem_cons_self)
  | cons second rest =>
    refine ⟨first, second, rest, hcut, ?_⟩
    rw [script, String.toList_ofList, hnew]

/-- A script is its template with the program at every place that is left open, and bash and zsh read
it there as one word. So does fish, unless the program is garbled, and then fish never reads the
program. Quoted by the rules of the shell itself, it would always be read. -/
theorem script_calls (d : Dialect) (program : String) :
    (∃ first second rest, Text.Cut placeholder.toList d.template.toList (first :: second :: rest) ∧
      (d.script program).toList =
        List.intercalate (Words.quote program).toList (first :: second :: rest)) ∧
    (¬(d = .fish ∧ Garbled program.toList) → d.ReadsAs (Words.quote program) program) ∧
    (d = .fish ∧ Garbled program.toList →
      ∀ w, d.read (Words.quote program) = some [[w]] → w.text ≠ program) ∧
    d.ReadsAs (d.quote program) program := by
  refine ⟨d.exists_script_cut program, fun h => ?_, ?_, d.readsAs_quote program⟩
  · exact readsAs_posixQuote fun hd hg => h ⟨hd, hg⟩
  · rintro ⟨rfl, hg⟩ w hr
    exact text_ne_of_garbled hg hr

def shared : String := "\\\\host\\bin\\hook"

theorem garbled_shared : Garbled shared.toList := by
  have hnext : "\\host\\bin\\hook".toList.head? = some '\\' := by decide +kernel
  exact ⟨"\\host\\bin\\hook".toList, ⟨[], by decide +kernel⟩,
    fun c hc => .inl (Option.some.inj (hc.symm.trans hnext))⟩

/-- fish reads two backslashes as one, so whatever the script for it has at the places of the
template, it is not read as the program. -/
theorem backslashes_merged :
    (∃ w, fish.read (Words.quote shared) = some [[w]] ∧ w.text = "\\host\\bin\\hook") ∧
    ∃ first second rest,
      Text.Cut placeholder.toList fish.template.toList (first :: second :: rest) ∧
      ∀ text : String, (fish.script shared).toList =
        List.intercalate text.toList (first :: second :: rest) → ¬ fish.ReadsAs text shared := by
  refine ⟨⟨fish.wording "\\host\\bin\\hook", by decide +kernel, by decide +kernel⟩, ?_⟩
  obtain ⟨first, second, rest, hcut, hscript⟩ := fish.exists_script_cut shared
  refine ⟨first, second, rest, hcut, fun text htext hreads => ?_⟩
  have hsame : text = Words.quote shared :=
    String.toList_inj.1 (Text.eq_of_intercalate_eq (htext.symm.trans hscript))
  obtain ⟨w, hw, hr⟩ := hreads.read
  exact text_ne_of_garbled garbled_shared (hsame ▸ hr) hw

end Dialect

end ShellHistory
