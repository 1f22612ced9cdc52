import ShellHistory.Proofs.Reply
import ShellHistory.Proofs.Statements

/-! Statements that are obeyed. All that a shell keeps of them is its cursor and the line that is
edited, and of the statements of a step these are the new ones, if there is a new line. -/

namespace ShellHistory

/-- The variable that a word sets, and the value. The name and the `=` stand outside of quotes. -/
def Word.setting? (w : Word) : Option (String × String) :=
  match w.dropWhile fun g => g.guard = .bare ∧ g.char ≠ '=' with
  | ⟨'=', .bare⟩ :: value =>
    some (Word.text (w.takeWhile fun g => g.guard = .bare ∧ g.char ≠ '='), Word.text value)
  | _ => none

/-- The variable that a word sets, and the value as it is written. -/
def Word.assignment? (w : Word) : Option (String × Word) :=
  match w.dropWhile fun g => g.guard = .bare ∧ g.char ≠ '=' with
  | ⟨'=', .bare⟩ :: value =>
    some (Word.text (w.takeWhile fun g => g.guard = .bare ∧ g.char ≠ '='), value)
  | _ => none

theorem Word.setting?_eq_map (w : Word) :
    w.setting? = w.assignment?.map fun (name, value) => (name, Word.text value) := by
  unfold setting? assignment?
  split <;> rfl

theorem Word.assignment?_bare_append {name : String} (h : '=' ∉ name.toList) (w : Word) :
    Word.assignment? (Word.bare (name ++ "=") ++ w) = some (name, w) := by
  have hw : Word.bare (name ++ "=") ++ w =
      (name.toList.map fun c => ⟨c, .bare⟩) ++ ⟨'=', .bare⟩ :: w := by
    simp [Word.bare]
  have hname : ∀ g ∈ name.toList.map fun c => (⟨c, .bare⟩ : Glyph),
      (decide (g.guard = .bare ∧ g.char ≠ '=')) = true := by
    intro g hg
    obtain ⟨c, hc, rfl⟩ := List.mem_map.1 hg
    have hne : c ≠ '=' := fun e => h (e ▸ hc)
    simp [hne]
  rw [hw, Word.assignment?, List.dropWhile_append_of_pos hname,
    List.takeWhile_append_of_pos hname]
  simp [Word.text, Function.comp_def]

/-- What a shell keeps of the statements that it is given: its cursor, and the new line if there is
one. -/
structure Effect where
  cursor : String
  line : Option String
  deriving DecidableEq, Repr

namespace Dialect

def setting? (d : Dialect) (s : Statement) : Option (String × String) :=
  match d with
  | .bash | .zsh =>
    match s with
    | [w] => w.setting?
    | _ => none
  | .fish =>
    match s.map Word.text with
    | ["set", "-g", name, value] => some (name, value)
    | _ => none

def given? (d : Dialect) (name : String) (s : Statement) : Option String :=
  (d.setting? s).bind fun (n, value) => if n = name then some value else none

/-- The line that a statement puts in the place of the one that is edited. -/
def newLine? (d : Dialect) (s : Statement) : Option String :=
  match d with
  | .bash => d.given? "READLINE_LINE" s
  | .zsh => d.given? "LBUFFER" s
  | .fish =>
    match s.map Word.text with
    | ["commandline", "-r", "--", line] => some line
    | _ => none

def obey (d : Dialect) (e : Effect) (s : Statement) : Effect where
  cursor := (d.given? d.cursorName s).getD e.cursor
  line := (d.newLine? s).or e.line

theorem setting?_bare_append {name : String} (h : '=' ∉ name.toList) (w : Word) :
    Word.setting? (Word.bare (name ++ "=") ++ w) = some (name, w.text) := by
  rw [Word.setting?_eq_map, Word.assignment?_bare_append h]
  rfl

@[simp] theorem text_bare (s : String) : (Word.bare s).text = s := by
  simp [Word.text, Word.bare, Function.comp_def]

theorem setting?_wording {name : String} (h : '=' ∉ name.toList) (d : Dialect) (value : String) :
    Word.setting? (Word.bare (name ++ "=") ++ d.wording value) = some (name, value) := by
  rw [setting?_bare_append h, d.text_wording]

theorem obey_meantCursor (d : Dialect) (cursor : String) (e : Effect) :
    d.obey e (d.meantCursor cursor) = ⟨cursor, e.line⟩ := by
  have hword (d : Dialect) : Word.setting? (Word.bare "__VELLUM_LINE=" ++ d.wording cursor) =
      some ("__VELLUM_LINE", cursor) := @setting?_wording "__VELLUM_LINE" (by decide) d cursor
  cases d with
  | bash => simp [obey, given?, setting?, newLine?, meantCursor, cursorName, hword]
  | zsh => simp [obey, given?, setting?, newLine?, meantCursor, cursorName, hword]
  | fish => simp [obey, given?, setting?, newLine?, meantCursor, cursorName, text_wording]

theorem obey_meantLine (d : Dialect) (line : String) (e : Effect) :
    (d.meantLine line).foldl d.obey e = ⟨e.cursor, some line⟩ := by
  cases d with
  | bash =>
    have hword : Word.setting? (Word.bare "READLINE_LINE=" ++ wording .bash line) =
        some ("READLINE_LINE", line) := @setting?_wording "READLINE_LINE" (by decide) .bash line
    have hpoint : Word.setting? (Word.bare "READLINE_POINT=$\x7b#READLINE_LINE\x7d") =
        some ("READLINE_POINT", "$\x7b#READLINE_LINE\x7d") := by decide
    simp [obey, given?, setting?, newLine?, meantLine, cursorName, hword, hpoint]
  | zsh =>
    have hword : Word.setting? (Word.bare "LBUFFER=" ++ wording .zsh line) =
        some ("LBUFFER", line) := @setting?_wording "LBUFFER" (by decide) .zsh line
    simp [obey, given?, setting?, newLine?, meantLine, cursorName, hword]
  | fish => simp [obey, given?, setting?, newLine?, meantLine, text_wording]

theorem obey_meantMove (d : Dialect) (direction : Int) (e : Effect) :
    (d.meantMove direction).foldl d.obey e = e := by
  cases d with
  | bash => rfl
  | zsh => rfl
  | fish => simp [obey, given?, setting?, newLine?, meantMove]

/-- What a shell keeps of a step through the history: the new cursor and the new line, if there is a
new line. -/
theorem obey_meantNavigation (d : Dialect) (outcome : Navigation.Outcome) (cursor kept : String)
    (direction : Int) : (d.meantNavigation outcome cursor direction).foldl d.obey ⟨kept, none⟩ =
      ⟨if outcome.line?.isSome then cursor else kept, outcome.line?⟩ := by
  cases outcome with
  | bypass => exact obey_meantMove d direction _
  | unchanged => rfl
  | replaced line =>
    rw [meantNavigation, List.foldl_cons, obey_meantCursor, obey_meantLine]
    rfl

end Dialect

end ShellHistory
