import ShellHistory.Proofs.Reader
import ShellHistory.Proofs.Setup

/-! The statements that a shell is given, read by the shell: it finds those that were meant and no
others, and every character of an id, a line or a session where it means nothing but itself. -/

namespace ShellHistory.Dialect

open Reader

def meantCursor (d : Dialect) (cursor : String) : Statement :=
  match d with
  | .bash | .zsh => [Word.bare "__VELLUM_LINE=" ++ d.wording cursor]
  | .fish => [Word.bare "set", Word.bare "-g", Word.bare "__vellum_line", d.wording cursor]

def meantLine (d : Dialect) (line : String) : List Statement :=
  match d with
  | .bash =>
    [[Word.bare "READLINE_LINE=" ++ d.wording line],
      [Word.bare "READLINE_POINT=$\x7b#READLINE_LINE\x7d"]]
  | .zsh => [[Word.bare "LBUFFER=" ++ d.wording line]]
  | .fish =>
    [[Word.bare "commandline", Word.bare "-r", Word.bare "--", d.wording line]]

def meantMove (d : Dialect) (direction : Int) : List Statement :=
  match d with
  | .bash => []
  | .zsh => [[Word.bare "zle", Word.bare (if direction = -1 then "up-line" else "down-line")]]
  | .fish =>
    [[Word.bare "commandline", Word.bare "-f",
      Word.bare (if direction = -1 then "up-line" else "down-line")]]

def meantExport (d : Dialect) (name value : String) : Statement :=
  match d with
  | .bash | .zsh => [Word.bare "export", Word.bare (name ++ "=") ++ d.wording value]
  | .fish => [Word.bare "set", Word.bare "-gx", Word.bare name, d.wording value]

def meantMark : Dialect → Statement
  | .bash => [Word.bare "readonly", Word.bare "__VELLUM_SETUP=1"]
  | .zsh => [Word.bare "typeset", Word.bare "-gr", Word.bare "__VELLUM_SETUP=1"]
  | .fish => [Word.bare "set", Word.bare "-g", Word.bare "__vellum_setup", Word.bare "1"]

def meantNavigation (d : Dialect) (outcome : Navigation.Outcome) (cursor : String)
    (direction : Int) : List Statement :=
  match outcome with
  | .bypass => d.meantMove direction
  | .unchanged => []
  | .replaced line => d.meantCursor cursor :: d.meantLine line

def meantSearch (d : Dialect) : Option String → List Statement
  | none => []
  | some line => d.meantLine line

def meantSession (d : Dialect) (s : Session) : List Statement :=
  s.toEnvironment.vars.map (fun (name, value) => d.meantExport name value) ++ [d.meantMark]

theorem reads_cursor (d : Dialect) (cursor : String) :
    Reads d (d.assign d.cursorName cursor) (d.meantCursor cursor) := by
  have hposix (d : Dialect) (done : List Statement) : run d (atStatement done) "__VELLUM_LINE=" =
      ⟨.bare, some (Word.bare "__VELLUM_LINE="), [], done⟩ := by cbv
  have hfish (done : List Statement) : run .fish (atStatement done) "set -g __vellum_line " =
      ⟨.bare, none, [Word.bare "set", Word.bare "-g", Word.bare "__vellum_line"], done⟩ := by cbv
  cases d with
  | bash => exact reads_append_quote (hposix .bash)
  | zsh => exact reads_append_quote (hposix .zsh)
  | fish => exact reads_append_quote hfish

theorem readsAll_line (d : Dialect) (line : String) :
    ReadsAll d (d.setLine line) (d.meantLine line) := by
  cases d with
  | bash =>
    have hline (done : List Statement) : run .bash (atStatement done) "READLINE_LINE=" =
        ⟨.bare, some (Word.bare "READLINE_LINE="), [], done⟩ := by cbv
    have hpoint : Reads .bash "READLINE_POINT=$\x7b#READLINE_LINE\x7d"
        [Word.bare "READLINE_POINT=$\x7b#READLINE_LINE\x7d"] := by
      intro done
      cbv
    exact .cons (reads_append_quote hline) (.single hpoint)
  | zsh =>
    have hline (done : List Statement) : run .zsh (atStatement done) "LBUFFER=" =
        ⟨.bare, some (Word.bare "LBUFFER="), [], done⟩ := by cbv
    exact .single (reads_append_quote hline)
  | fish =>
    have hline (done : List Statement) : run .fish (atStatement done) "commandline -r -- " =
        ⟨.bare, none, [Word.bare "commandline", Word.bare "-r", Word.bare "--"], done⟩ := by cbv
    exact .single (reads_append_quote hline)

theorem readsAll_move (d : Dialect) (direction : Int) :
    ReadsAll d (d.moveWithin direction) (d.meantMove direction) := by
  by_cases hd : direction = Move.previous
  · subst hd
    cases d with
    | bash => exact .nil
    | zsh => exact .single fun done => by cbv
    | fish => exact .single fun done => by cbv
  · have hm : direction ≠ -1 := hd
    cases d with
    | bash => exact .nil
    | zsh =>
      rw [moveWithin, meantMove, if_neg hd, if_neg hm]
      exact .single fun done => by cbv
    | fish =>
      rw [moveWithin, meantMove, if_neg hd, if_neg hm]
      exact .single fun done => by cbv

theorem reads_export (d : Dialect) {name : String}
    (hn : name = Session.tokenName ∨ name = Session.startName) (value : String) :
    Reads d (d.exportVariable name value) (d.meantExport name value) := by
  have hposix (d : Dialect) (done : List Statement) : run d (atStatement done)
      ("export " ++ name ++ "=") =
        ⟨.bare, some (Word.bare (name ++ "=")), [Word.bare "export"], done⟩ := by
    rcases hn with rfl | rfl <;> cbv
  have hfish (done : List Statement) : run .fish (atStatement done)
      ("set -gx " ++ name ++ " ") =
        ⟨.bare, none, [Word.bare "set", Word.bare "-gx", Word.bare name], done⟩ := by
    rcases hn with rfl | rfl <;> cbv
  cases d with
  | bash => exact reads_append_quote (hposix .bash)
  | zsh => exact reads_append_quote (hposix .zsh)
  | fish => exact reads_append_quote hfish

theorem reads_mark (d : Dialect) : Reads d d.sentinel d.meantMark := by
  intro done
  cases d <;> cbv

theorem readsAll_session (d : Dialect) (s : Session) :
    ReadsAll d (s.toEnvironment.vars.map (fun (name, value) => d.exportVariable name value) ++
      [d.sentinel]) (d.meantSession s) := by
  refine .append (.map fun v hv => ?_) (.single (reads_mark d))
  exact reads_export d (s.names_toEnvironment (List.mem_map_of_mem hv)) v.2

/-- What the statements of a dialect are read as: the statements that were meant, with every value in
them whole, and guarded wherever it could mean something else. -/
structure Faithful (d : Dialect) : Prop where
  value : ∀ v, (d.wording v).text = v ∧ ∀ g ∈ d.wording v, g.isInert
  navigation : ∀ outcome cursor direction,
    d.read (d.navigationStatements outcome cursor direction) =
      some (d.meantNavigation outcome cursor direction)
  search : ∀ line, d.read (d.searchStatements line) = some (d.meantSearch line)
  session : ∀ s, d.read (d.sessionStatements s) = some (d.meantSession s)

theorem exists_readsAll_navigation (d : Dialect) (outcome : Navigation.Outcome) (cursor : String)
    (direction : Int) : ∃ texts, d.navigationStatements outcome cursor direction = ofStatements texts ∧
      ReadsAll d texts (d.meantNavigation outcome cursor direction) := by
  cases outcome with
  | bypass => exact ⟨_, rfl, readsAll_move d direction⟩
  | unchanged => exact ⟨[], rfl, .nil⟩
  | replaced line => exact ⟨_, rfl, .cons (reads_cursor d cursor) (readsAll_line d line)⟩

theorem read_navigation (d : Dialect) (outcome : Navigation.Outcome) (cursor : String)
    (direction : Int) : d.read (d.navigationStatements outcome cursor direction) =
      some (d.meantNavigation outcome cursor direction) := by
  obtain ⟨texts, ht, hr⟩ := d.exists_readsAll_navigation outcome cursor direction
  rw [ht, read_ofStatements hr]

theorem read_search (d : Dialect) (line : Option String) :
    d.read (d.searchStatements line) = some (d.meantSearch line) := by
  cases line with
  | none => exact read_ofStatements (d := d) .nil
  | some line => exact read_ofStatements (readsAll_line d line)

/-- What bash and fish are given is read as it was meant, whatever ids, lines and sessions hold. -/
theorem bash_fish_faithful : Faithful .bash ∧ Faithful .fish := by
  have h (d : Dialect) : Faithful d := by
    refine ⟨fun v => ⟨d.text_wording v, d.inert_wording v⟩, d.read_navigation, d.read_search, ?_⟩
    intro s
    exact read_ofStatements (readsAll_session d s)
  exact ⟨h .bash, h .fish⟩

end ShellHistory.Dialect
