import ShellHistory.Proofs.OptionWords
import ShellHistory.Proofs.SearchEndings

/-! The layers of the selector's options. They are put into one text, and its words are the words of
each layer in their order, unless a layer ends in a comment or its words change when the blanks at the
ends of a file are cut off. A comment takes in what follows it, up to the next line break. -/

namespace ShellHistory

namespace Search

open Act Host

/-- What the options file has, where the environment names one. A file that cannot be read has
nothing. -/
inductive Holds (e : Environment) (h : Host) : String → Prop
  | unnamed : e.filled? "FZF_DEFAULT_OPTS_FILE" = none → Holds e h ""
  | text {path contents : String} {bytes : ByteArray} :
      e.filled? "FZF_DEFAULT_OPTS_FILE" = some path →
      h.files.read h.cwd (Path.ofString path).toText = .ok bytes →
      String.fromUTF8? bytes = some contents → Holds e h contents
  | unread {path : String} {error : FileError} :
      e.filled? "FZF_DEFAULT_OPTS_FILE" = some path →
      h.files.read h.cwd (Path.ofString path).toText = .error error → error ≠ .badName →
      Holds e h ""

def taken (contents : String) : String :=
  Text.strip (Text.unifiedBreaks contents)

/-- A file keeps its words, if nothing but gaps is cut off at its ends, and no backslash is left
without what it stood before. -/
theorem optionWords_taken {contents : String} (hreturn : '\r' ∉ contents.toList)
    (hgaps : Text.trim Splitter.isGap contents.toList = Text.trim Text.isBlank contents.toList)
    (hsplit : (optionWords (taken contents)).isSome) :
    optionWords (taken contents) = optionWords contents := by
  rw [taken, Text.unifiedBreaks_of_notMem hreturn] at hsplit ⊢
  exact optionWords_strip hgaps hsplit

section Layered

variable {c : Config} {e : Environment} {h : Host} {contents own : String}

theorem optionsFile_holds {path : String} (hp : e.filled? "FZF_DEFAULT_OPTS_FILE" = some path)
    (hf : Holds e h contents) : answerOf (optionsFile path h) = .ok (taken contents) := by
  rw [optionsFile_apply, answerOf_readText]
  cases hf with
  | unnamed hp' => cases hp.symm.trans hp'
  | text hp' hread hb =>
    cases hp.symm.trans hp'
    rw [hread]
    dsimp only
    rw [hb]
    rfl
  | @unread _ error hp' hread hne =>
    cases hp.symm.trans hp'
    rw [hread]
    cases error with
    | badName => exact absurd rfl hne
    | _ => exact answerOf_noted _ _ h

/-- The options are their layers with a blank between them, and then `+m --read0`. -/
theorem defaults_layered (ho : c.selectorOptions = .text own) (hf : Holds e h contents) :
    ∃ noted, defaults c e h =
      .ok (String.intercalate " "
        ((layers c e (taken contents) own).filter (· ≠ "") ++ ["+m --read0"]))
        { h with records := noted } := by
  have hans : answerOf (defaults c e h) = .ok (String.intercalate " "
      ((layers c e (taken contents) own).filter (· ≠ "") ++ ["+m --read0"])) := by
    rw [defaults_eq e (congrArg Value.spelling? ho)]
    cases hp : e.filled? "FZF_DEFAULT_OPTS_FILE" with
    | none =>
      cases hf with
      | unnamed => rfl
      | text hp' => cases hp.symm.trans hp'
      | unread hp' => cases hp.symm.trans hp'
    | some path =>
      obtain ⟨t, ht⟩ := answerOf_eq_ok_iff.1 (optionsFile_holds hp hf)
      exact answerOf_eq_ok_iff.2 ⟨t, bind_of_ok ht⟩
  obtain ⟨noted, hd⟩ := defaults_apply c e h
  rw [hans] at hd
  exact ⟨noted, hd⟩

theorem filter_flatMap_wordsIn (texts : List String) :
    (texts.filter (· ≠ "")).flatMap wordsIn = texts.flatMap wordsIn := by
  induction texts with
  | nil => rfl
  | cons s texts ih =>
    by_cases hs : s = ""
    · subst hs
      rw [List.filter_cons_of_neg (by simp), ih]
      rfl
    · rw [List.filter_cons_of_pos (by simpa using hs), List.flatMap_cons, ih, List.flatMap_cons]

/-- If each layer splits by itself, so do the options, and their words are those of the layers in
their order, with `+m` and `--read0` behind them: unless the words of the file are others when the
blanks at its ends are cut off, or a layer ends in a comment. Such a comment takes in all that comes
after it, up to the next line break, be it `+m` and `--read0`. -/
theorem options_layered (ho : c.selectorOptions = .text own) (hf : Holds e h contents)
    (hsplit : ∀ s ∈ layers c e contents own, (optionWords s).isSome) :
    ∃ text noted, defaults c e h = .ok text { h with records := noted } ∧
      (optionWords (taken contents) = optionWords contents →
        (∀ s ∈ layers c e (taken contents) own, ¬ EndsInComment s) →
        optionWords text =
          some ((layers c e contents own).flatMap wordsIn ++ ["+m", "--read0"])) ∧
      ∀ front s rest, layers c e (taken contents) own = front ++ s :: rest →
        (∀ l ∈ front, Closed l) → (optionWords s).isSome → EndsInComment s →
        optionWords text = (optionWords (pastLine (String.intercalate " "
          (rest.filter (· ≠ "") ++ ["+m --read0"])))).map ((front ++ [s]).flatMap wordsIn ++ ·) := by
  obtain ⟨noted, hd⟩ := defaults_layered ho hf
  refine ⟨_, noted, hd, fun hkept hended => ?_, fun front s rest hl hfront hs hc => ?_⟩
  · have htaken : ∀ s ∈ layers c e (taken contents) own, (optionWords s).isSome := by
      rw [layers, List.forall_mem_cons, List.forall_mem_cons] at hsplit ⊢
      exact ⟨hsplit.1, (congrArg Option.isSome hkept).trans hsplit.2.1, hsplit.2.2⟩
    have hsame : (layers c e (taken contents) own).flatMap wordsIn =
        (layers c e contents own).flatMap wordsIn := by
      have hfile : wordsIn (taken contents) = wordsIn contents := by rw [wordsIn, hkept, wordsIn]
      simp only [layers, List.flatMap_cons, hfile]
    have hclosed : ∀ s ∈ (layers c e (taken contents) own).filter (· ≠ ""), Closed s :=
      fun s hs => ⟨htaken s (List.mem_filter.1 hs).1, hended s (List.mem_filter.1 hs).1⟩
    have hlast : optionWords "+m --read0" = some ["+m", "--read0"] := by decide
    rw [optionWords_intercalate hclosed (List.cons_ne_nil _ _), filter_flatMap_wordsIn, hsame,
      String.intercalate_singleton, hlast, Option.map_some]
  · have hne : s ≠ "" := by
      rintro rfl
      cases hc
    have hclosed : ∀ l ∈ front.filter (· ≠ ""), Closed l := fun l hm =>
      hfront l (List.mem_filter.1 hm).1
    rw [hl, List.filter_append, List.filter_cons_of_pos (by simpa using hne), List.append_assoc,
      List.cons_append, optionWords_intercalate_comment hclosed hs hc (by simp),
      List.flatMap_append, filter_flatMap_wordsIn, ← List.flatMap_append]

end Layered

def furnished (contents : String) : Host :=
  { searched with
    files := FileTree.empty.put ["fzfrc"] (.file contents.toUTF8 false)
    environ := ⟨[("FZF_DEFAULT_OPTS_FILE", "/fzfrc"), ("FZF_DEFAULT_OPTS", "--border")]⟩ }

theorem read_furnished (contents : String) :
    (furnished contents).files.read [] "/fzfrc" = .ok contents.toUTF8 :=
  FileTree.read_rooted "fzfrc" ⟨by decide, by decide, by decide⟩ (by decide +kernel)
    (by decide +kernel)
    ⟨FileTree.admits_of_open List.not_mem_nil _, by decide, by decide, nofun, by decide⟩ rfl

theorem holds_furnished (contents : String) :
    Holds (furnished contents).environ (furnished contents) contents := by
  have hname : (Path.ofString "/fzfrc").toText = "/fzfrc" := by decide +kernel
  have hbytes : String.fromUTF8? contents.toUTF8 = some contents := dif_pos contents.isValidUTF8
  exact .text rfl (hname ▸ read_furnished contents) hbytes

theorem options_layered_sample : ∃ text noted,
    defaults .default (furnished "--reverse # mine\n--tac\n").environ
        (furnished "--reverse # mine\n--tac\n") =
      .ok text { furnished "--reverse # mine\n--tac\n" with records := noted } ∧
    optionWords text = some ["--height", "40%", "--min-height", "20+", "--bind=ctrl-z:ignore",
      "--reverse", "--tac", "--border", "-n2..,..", "--scheme=history", "--bind=ctrl-r:toggle-sort",
      "--wrap-sign", "\t↳ ", "--highlight-line", "+m", "--read0"] := by
  obtain ⟨text, noted, hd, hwords, -⟩ := @options_layered .default _ _ _ "" rfl
    (holds_furnished "--reverse # mine\n--tac\n") (by decide +kernel)
  have hkept := @optionWords_taken "--reverse # mine\n--tac\n" (by decide) (by decide +kernel)
    (by decide +kernel)
  exact ⟨text, noted, hd, (hwords hkept (by decide +kernel)).trans (by decide +kernel)⟩

/-- A comment at the end of the file takes all the options behind it, `+m` and `--read0` too. -/
theorem comment_takes_options : ∃ text noted,
    defaults .default (furnished "--reverse # mine\n").environ (furnished "--reverse # mine\n") =
      .ok text { furnished "--reverse # mine\n" with records := noted } ∧
    (∀ s ∈ layers .default (furnished "").environ "--reverse # mine\n" "", (optionWords s).isSome) ∧
    optionWords text = some ["--height", "40%", "--min-height", "20+", "--bind=ctrl-z:ignore",
      "--reverse"] ∧
    optionWords text ≠ some ((layers .default (furnished "").environ "--reverse # mine\n" "").flatMap
      wordsIn ++ ["+m", "--read0"]) := by
  obtain ⟨noted, hd⟩ := @defaults_layered .default _ _ _ "" rfl
    (holds_furnished "--reverse # mine\n")
  have hread : optionWords (String.intercalate " " ((layers .default (furnished "").environ
      (taken "--reverse # mine\n") "").filter (· ≠ "") ++ ["+m --read0"])) =
      some ["--height", "40%", "--min-height", "20+", "--bind=ctrl-z:ignore", "--reverse"] := by
    decide +kernel
  refine ⟨_, noted, hd, by decide +kernel, hread, fun hclaim => ?_⟩
  have hlast := congrArg List.getLast? (Option.some.inj (hread.symm.trans hclaim))
  rw [List.getLast?_append_of_ne_nil _ (List.cons_ne_nil _ _)] at hlast
  exact absurd hlast (by decide)

end Search
end ShellHistory
