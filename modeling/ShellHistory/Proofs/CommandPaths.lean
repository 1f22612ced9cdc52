import Mathlib.Data.List.Infix
import ShellHistory.Proofs.Effect

/-! How zsh assigns. It takes a value piece by piece, between colons that stand outside of quotes,
and a piece with such a `=` in front is the path of the command that the rest of it names. Quoting
leaves `=` and `:` outside of quotes in a value that needs none for any other shell. -/

namespace ShellHistory

namespace Zsh

/-- The paths of the commands that there are. -/
abbrev Commands := String → Option String

def piece? (commands : Commands) : Word → Option String
  | ⟨'=', .bare⟩ :: name => commands (Word.text name)
  | piece => some piece.text

/-- A value as it is assigned. There is none if a command that it asks for is not there, or if it
asks for anything but commands. -/
def value? (commands : Commands) (w : Word) : Option String :=
  if w.all Glyph.isInert then
    ((w.splitOn ⟨':', .bare⟩).mapM (piece? commands)).map (String.intercalate ":")
  else none

/-- A value that asks for a command: `=` outside of quotes, at the front or behind a colon that
stands outside of quotes too. -/
def Expands (w : Word) : Prop :=
  [⟨'=', .bare⟩] <+: w ∨ [⟨':', .bare⟩, ⟨'=', .bare⟩] <:+: w

theorem exists_mem_splitOn_iff {α : Type} [DecidableEq α] {a b : α} (h : b ≠ a) (w : List α) :
    (∃ piece ∈ w.splitOn a, [b] <+: piece) ↔ [b] <+: w ∨ [a, b] <:+: w := by
  -- the first piece begins as the list does, the others where the separator stands
  have hsplit : ∃ first rest, w.splitOn a = first :: rest ∧ ([b] <+: first ↔ [b] <+: w) ∧
      ((∃ piece ∈ rest, [b] <+: piece) ↔ [a, b] <:+: w) := by
    induction w with
    | nil => exact ⟨[], [], List.splitOn_nil a, Iff.rfl, by simp⟩
    | cons c w ih =>
      obtain ⟨first, rest, hw, hfirst, hrest⟩ := ih
      rw [List.splitOn_cons_eq_if_modifyHead, hw, List.infix_cons_iff, List.cons_prefix_cons]
      by_cases hc : c = a
      · subst hc
        refine ⟨[], first :: rest, by simp, by simp [h], ?_⟩
        rw [List.exists_mem_cons_iff, hfirst, hrest]
        simp
      · refine ⟨c :: first, rest, by simp [hc], by simp, ?_⟩
        rw [hrest]
        simp [Ne.symm hc]
  obtain ⟨first, rest, hw, hfirst, hrest⟩ := hsplit
  rw [hw, List.exists_mem_cons_iff, hfirst, hrest]

theorem mapM_eq_some_iff {α β : Type} {f : α → Option β} {g : α → β} (l : List α) :
    l.mapM f = some (l.map g) ↔ ∀ x ∈ l, f x = some (g x) := by
  induction l with
  | nil => simp
  | cons x l ih =>
    rw [List.mapM_cons, List.forall_mem_cons, ← ih]
    cases f x <;> cases l.mapM f <;> simp

theorem mapM_eq_none_iff {α β : Type} {f : α → Option β} (l : List α) :
    l.mapM f = none ↔ ∃ x ∈ l, f x = none := by
  induction l with
  | nil => simp
  | cons x l ih =>
    rw [List.mapM_cons, List.exists_mem_cons_iff, ← ih]
    cases f x <;> cases l.mapM f <;> simp

theorem infix_map_iff_of_injective {α β : Type} {f : α → β} (hf : Function.Injective f)
    {l l' : List α} : l.map f <:+: l'.map f ↔ l <:+: l' := by
  rw [List.infix_map_iff]
  refine ⟨?_, fun h => ⟨l, h, rfl⟩⟩
  rintro ⟨k, hk, he⟩
  rwa [List.map_injective_iff.2 hf he]

theorem intercalate_text (pieces : List Word) :
    String.intercalate ":" (pieces.map Word.text) =
      Word.text ([⟨':', .bare⟩].intercalate pieces) := by
  induction pieces with
  | nil => rfl
  | cons piece rest ih =>
    cases rest with
    | nil => simp
    | cons next rest =>
      rw [List.map_cons, List.map_cons, String.intercalate_cons_cons, ← List.map_cons, ih,
        List.intercalate_cons_cons]
      apply String.toList_injective
      simp [Word.text]

theorem value?_of_inert {w : Word} (h : ∀ g ∈ w, g.isInert) (commands : Commands) :
    value? commands w =
      ((w.splitOn ⟨':', .bare⟩).mapM (piece? commands)).map (String.intercalate ":") :=
  if_pos (List.all_eq_true.2 h)

theorem value?_of_not_expands {w : Word} (hinert : ∀ g ∈ w, g.isInert) (h : ¬ Expands w)
    (commands : Commands) : value? commands w = some w.text := by
  have hpieces : ∀ piece ∈ w.splitOn ⟨':', .bare⟩,
      piece? commands piece = some (Word.text piece) := by
    intro piece hp
    unfold piece?
    split
    · next name => exact absurd ((exists_mem_splitOn_iff (by decide) w).1 ⟨_, hp, by simp⟩) h
    · rfl
  rw [value?_of_inert hinert, (mapM_eq_some_iff _).2 hpieces, Option.map_some]
  exact congrArg some ((intercalate_text _).trans
    (congrArg Word.text (List.intercalate_splitOn _)))

/-- Where there are no commands, nothing else is assigned. -/
theorem value?_none_iff {w : Word} (hinert : ∀ g ∈ w, g.isInert) :
    value? (fun _ => none) w = none ↔ Expands w := by
  rw [value?_of_inert hinert, Option.map_eq_none_iff, mapM_eq_none_iff, Expands,
    ← exists_mem_splitOn_iff (by decide)]
  refine exists_congr fun piece => and_congr_right fun _ => ?_
  unfold piece?
  split
  · simp
  · next h =>
    simp only [reduceCtorEq, false_iff]
    rintro ⟨name, rfl⟩
    exact h name rfl

/-- A value that is written without quotes and asks for a command then. -/
def Exposed (v : String) : Prop :=
  v.toList.all Words.isHarmless ∧ (['='] <+: v.toList ∨ [':', '='] <:+: v.toList)

instance : DecidablePred Exposed := fun _ => inferInstanceAs (Decidable (_ ∧ _))

theorem not_bare_of_not_harmless {v : String} (h : ¬ v.toList.all Words.isHarmless) :
    ∀ g ∈ Dialect.zsh.wording v, g.guard ≠ .bare := by
  intro g hg
  obtain ⟨c, -, rfl⟩ := List.mem_map.1 hg
  by_cases hq : c = '\''
  · simp [Dialect.guardIn, h, hq]
  · simp [Dialect.guardIn, h, hq]

theorem wording_of_harmless {v : String} (h : v.toList.all Words.isHarmless) :
    Dialect.zsh.wording v = Word.bare v := by
  simp only [Dialect.wording, Dialect.guardIn, h, if_true, Word.bare]

/-- Of the values that are written by the rules of quoting, the exposed ones ask for a command. -/
theorem expands_wording_iff (v : String) : Expands (Dialect.zsh.wording v) ↔ Exposed v := by
  by_cases h : v.toList.all Words.isHarmless
  · have hbare : Function.Injective fun c => (⟨c, .bare⟩ : Glyph) := fun _ _ he => by
      cases he
      rfl
    have hfront := @List.prefix_map_iff_of_injective _ _ ['='] v.toList _ hbare
    have hinner := @infix_map_iff_of_injective _ _ _ hbare [':', '='] v.toList
    rw [wording_of_harmless h, Exposed, ← hfront, ← hinner]
    simp only [h, true_and]
    exact Iff.rfl
  · have hguard := not_bare_of_not_harmless h
    refine iff_of_false ?_ fun he => h he.1
    rintro (hp | hi)
    · exact hguard ⟨'=', .bare⟩ (hp.subset (by simp)) rfl
    · exact hguard ⟨'=', .bare⟩ (hi.subset (by simp)) rfl

theorem value?_wording_iff (v : String) :
    (∀ commands, value? commands (Dialect.zsh.wording v) = some v) ↔ ¬ Exposed v := by
  have hinert := Dialect.zsh.inert_wording v
  constructor
  · intro h he
    have hnone := (value?_none_iff hinert).2 ((expands_wording_iff v).2 he)
    rw [h] at hnone
    cases hnone
  · intro he commands
    have hne : ¬ Expands (Dialect.zsh.wording v) := fun h => he ((expands_wording_iff v).1 h)
    rw [value?_of_not_expands hinert hne, Dialect.text_wording]

example : Exposed "make:=cc" ∧ ¬ Exposed "make:= cc" ∧ ¬ Exposed "CC=cc" := by
  decide

/-- A variable that is set, and whether the children of the shell see it. The value is a word where
it is written, and a text where it is assigned. -/
structure Setting (α : Type) where
  name : String
  value : α
  exported : Bool
  deriving DecidableEq, Repr

/-- What a statement sets: a word alone sets a variable, and so do the arguments of `export` and
`typeset`. -/
def settings : Statement → List (Setting Word)
  | [] => []
  | [w] => (Word.assignment? w).toList.map fun (name, value) => ⟨name, value, false⟩
  | command :: argument :: rest =>
    if Word.text command ∈ ["export", "typeset"] then
      ((argument :: rest).filterMap Word.assignment?).map fun (name, value) =>
        ⟨name, value, Word.text command = "export"⟩
    else []

def Setting.assigned? (commands : Commands) (s : Setting Word) : Option (Setting String) :=
  (value? commands s.value).map fun value => ⟨s.name, value, s.exported⟩

def evaluate? (commands : Commands) (text : String) : Option (List (Setting String)) :=
  (Dialect.zsh.read text).bind fun statements =>
    (statements.flatMap settings).mapM (Setting.assigned? commands)

def Setting.written (s : Setting String) : Setting Word :=
  ⟨s.name, Dialect.zsh.wording s.value, s.exported⟩

def navigationSettings (outcome : Navigation.Outcome) (cursor : String) : List (Setting String) :=
  match outcome with
  | .bypass | .unchanged => []
  | .replaced line => [⟨"__VELLUM_LINE", cursor, false⟩, ⟨"LBUFFER", line, false⟩]

def searchSettings : Option String → List (Setting String)
  | none => []
  | some line => [⟨"LBUFFER", line, false⟩]

def sessionSettings (s : Session) : List (Setting String) :=
  s.toEnvironment.vars.map (fun (name, value) => ⟨name, value, true⟩) ++
    [⟨"__VELLUM_SETUP", "1", false⟩]

/-- A text that is to set `l`. What it sets is told setting by setting, and it is `l` for all the
commands that there could be just if no value of `l` is exposed. -/
structure Sets (text : String) (l : List (Setting String)) : Prop where
  evaluated : ∀ commands, evaluate? commands text = l.mapM fun s =>
    (value? commands (Dialect.zsh.wording s.value)).map fun value => { s with value }
  exact_iff : (∀ commands, evaluate? commands text = some l) ↔ ∀ s ∈ l, ¬ Exposed s.value

theorem assigned?_written (commands : Commands) (s : Setting String) :
    s.written.assigned? commands = some s ↔
      value? commands (Dialect.zsh.wording s.value) = some s.value := by
  obtain ⟨name, value, exported⟩ := s
  simp [Setting.assigned?, Setting.written]

theorem Sets.of_read {text : String} {statements : List Statement} {l : List (Setting String)}
    (hread : Dialect.zsh.read text = some statements)
    (hl : statements.flatMap settings = l.map Setting.written) : Sets text l := by
  have heval (commands : Commands) : evaluate? commands text =
      l.mapM fun s => s.written.assigned? commands := by
    rw [evaluate?, hread, Option.bind_some, hl, List.mapM_map]
    rfl
  refine ⟨heval, ?_⟩
  have hself (commands : Commands) : evaluate? commands text = some l ↔
      ∀ s ∈ l, s.written.assigned? commands = some s := by
    rw [heval, ← mapM_eq_some_iff, List.map_id']
  simp only [hself, assigned?_written, ← value?_wording_iff]
  exact ⟨fun h s hs commands => h commands s hs, fun h commands s hs => h s hs commands⟩

theorem settings_single {name : String} (h : '=' ∉ name.toList) (w : Word) :
    settings [Word.bare (name ++ "=") ++ w] = [⟨name, w, false⟩] := by
  rw [settings, Word.assignment?_bare_append h]
  rfl

theorem settings_export {name : String} (h : '=' ∉ name.toList) (w : Word) :
    settings [Word.bare "export", Word.bare (name ++ "=") ++ w] = [⟨name, w, true⟩] := by
  simp [settings, Word.assignment?_bare_append h]

theorem settings_meantCursor (cursor : String) :
    settings (Dialect.zsh.meantCursor cursor) =
      [Setting.written ⟨"__VELLUM_LINE", cursor, false⟩] :=
  @settings_single "__VELLUM_LINE" (by decide) (Dialect.zsh.wording cursor)

theorem settings_meantLine (line : String) :
    (Dialect.zsh.meantLine line).flatMap settings =
      [Setting.written ⟨"LBUFFER", line, false⟩] := by
  rw [Dialect.meantLine, List.flatMap_singleton]
  exact @settings_single "LBUFFER" (by decide) (Dialect.zsh.wording line)

theorem settings_meantNavigation (outcome : Navigation.Outcome) (cursor : String)
    (direction : Int) : (Dialect.zsh.meantNavigation outcome cursor direction).flatMap settings =
      (navigationSettings outcome cursor).map Setting.written := by
  cases outcome with
  | bypass => simp [Dialect.meantNavigation, Dialect.meantMove, settings, navigationSettings]
  | unchanged => rfl
  | replaced line =>
    rw [Dialect.meantNavigation, List.flatMap_cons, settings_meantCursor, settings_meantLine]
    rfl

theorem settings_meantSearch (line : Option String) :
    (Dialect.zsh.meantSearch line).flatMap settings =
      (searchSettings line).map Setting.written := by
  cases line with
  | none => rfl
  | some line => exact settings_meantLine line

theorem settings_meantSession (s : Session) :
    (Dialect.zsh.meantSession s).flatMap settings = (sessionSettings s).map Setting.written := by
  have hexport : ∀ v ∈ s.toEnvironment.vars, settings (Dialect.zsh.meantExport v.1 v.2) =
      [Setting.written ⟨v.1, v.2, true⟩] := by
    intro v hv
    have hname : '=' ∉ v.1.toList := by
      rcases s.names_toEnvironment (List.mem_map_of_mem hv) with h | h <;> rw [h] <;> decide
    exact settings_export hname _
  have hmark : settings Dialect.zsh.meantMark =
      [Setting.written ⟨"__VELLUM_SETUP", "1", false⟩] := by
    decide
  rw [Dialect.meantSession, sessionSettings, List.flatMap_append, List.flatMap_map,
    List.flatMap_congr hexport, ← List.map_eq_flatMap, List.flatMap_singleton, hmark,
    List.map_append, List.map_map]
  rfl

/-- What zsh is given sets what it is to set, whatever commands there are, unless a value asks for a
command, and these are the exposed ones. -/
theorem sets_unless_exposed (outcome : Navigation.Outcome) (cursor : String) (direction : Int)
    (line : Option String) (s : Session) (v : String) :
    Sets (Dialect.zsh.navigationStatements outcome cursor direction)
      (navigationSettings outcome cursor) ∧
    Sets (Dialect.zsh.searchStatements line) (searchSettings line) ∧
    Sets (Dialect.zsh.sessionStatements s) (sessionSettings s) ∧
    ((∀ commands, value? commands (Dialect.zsh.wording v) = some v) ↔ ¬ Exposed v) ∧
    (Expands (Dialect.zsh.wording v) ↔ Exposed v) := by
  refine ⟨?_, ?_, ?_, value?_wording_iff v, expands_wording_iff v⟩
  · exact .of_read (Dialect.zsh.read_navigation outcome cursor direction)
      (settings_meantNavigation outcome cursor direction)
  · exact .of_read (Dialect.zsh.read_search line) (settings_meantSearch line)
  · exact .of_read (Dialect.read_ofStatements (Dialect.zsh.readsAll_session s))
      (settings_meantSession s)

/-- A line that is a command behind `=` becomes the path of the command. -/
theorem line_expanded :
    evaluate? (fun name => if name = "ls" then some "/bin/ls" else none)
        (Dialect.zsh.navigationStatements (.replaced "=ls") "10" (-1)) =
      some [⟨"__VELLUM_LINE", "10", false⟩, ⟨"LBUFFER", "/bin/ls", false⟩] ∧
    ¬ ∀ commands, evaluate? commands
        (Dialect.zsh.navigationStatements (.replaced "=ls") "10" (-1)) =
      some (navigationSettings (.replaced "=ls") "10") := by
  refine ⟨by decide, fun h => ?_⟩
  have hnone : evaluate? (fun _ => none)
      (Dialect.zsh.navigationStatements (.replaced "=ls") "10" (-1)) = none := by
    decide
  rw [h] at hnone
  cases hnone

end Zsh

end ShellHistory
