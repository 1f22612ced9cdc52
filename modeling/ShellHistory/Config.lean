import ShellHistory.Environment
import ShellHistory.Value
import ShellHistory.Words

/-! The configuration of the shell integration. It is read from a document with five sections, and
environment variables override single settings. A setting keeps the kind of value that it was given,
unless it has to be text, a truth value or a list of arguments. -/

namespace ShellHistory

structure Config where
  binary : Value
  selector : Value
  selectorOptions : Value
  selectorHeight : String
  historyArgs : List String
  sessionOnly : Bool
  moveArgs : List String
  editor : Value
  logLevel : Value
  logFile : Value
  deriving Repr

namespace Config

def default : Config where
  binary := .text "vellum"
  selector := .text "fzf"
  selectorOptions := .text ""
  selectorHeight := "40%"
  historyArgs := []
  sessionOnly := false
  moveArgs := []
  editor := .null
  logLevel := .text "WARNING"
  logFile := .null

inductive Error
  | notMapping
  | badSection (key kind : String)
  | badArguments (key kind : String)
  | words (e : Words.Error)
  /-- A number that is to be text has more digits than are ever written. -/
  | longNumber
  deriving DecidableEq, Repr

def Error.message : Error → String
  | notMapping => "Config must be a mapping of sections"
  | badSection key kind => "Config section '" ++ key ++ "' must be a mapping, got " ++ kind
  | badArguments key kind => "Config key '" ++ key ++ "' must be a list or a string, got " ++ kind
  | words e => e.message
  | longNumber => Text.unwritableMessage

/-- The entries of a section. One that is missing or null has none. -/
def sectionOf (data : List (Value × Value)) (key : String) : Except Error (List (Value × Value)) :=
  match Value.get? data key with
  | none | some .null => .ok []
  | some v =>
    match v.entries? with
    | some entries => .ok entries
    | none => .error (.badSection key v.kind)

def textOf (v : Value) : Except Error String :=
  if v.hasLongNumber then .error .longNumber else .ok v.toText

theorem mapM_textOf (items : List Value) :
    items.mapM textOf =
      if items.any Value.hasLongNumber then .error .longNumber
      else .ok (items.map Value.toText) := by
  induction items with
  | nil => rfl
  | cons v rest ih =>
    rw [List.mapM_cons, ih, textOf, List.any_cons]
    by_cases hv : v.hasLongNumber
    · simp [hv, bind, Except.bind]
    · by_cases hrest : rest.any Value.hasLongNumber <;> simp [hv, hrest, bind, Except.bind, pure,
        Except.pure]

/-- A list of arguments, or one text that holds them with shell quoting. -/
def argumentsOf (key : String) : Option Value → Except Error (List String)
  | none | some .null => .ok []
  | some v =>
    match v.spelling?, v.items? with
    | some line, _ => (Words.split line).mapError .words
    | none, some items => items.mapM textOf
    | none, none => .error (.badArguments key v.kind)

def ofValue (v : Value) : Except Error Config := do
  let some data := v.entries? | throw .notMapping
  let backend ← sectionOf data "backend"
  let selector ← sectionOf data "selector"
  let height ← textOf ((Value.get? selector "height").getD (.text default.selectorHeight))
  let history ← sectionOf data "history"
  let historyArgs ← argumentsOf "history.args" (Value.get? history "args")
  let move ← sectionOf data "move"
  let moveArgs ← argumentsOf "move.args" (Value.get? move "args")
  let logging ← sectionOf data "logging"
  let options := (Value.get? selector "options").getD default.selectorOptions
  return {
    binary := (Value.get? backend "binary").getD default.binary
    selector := (Value.get? selector "command").getD default.selector
    selectorOptions := if options.isSet then options else default.selectorOptions
    selectorHeight := height
    historyArgs
    sessionOnly := ((Value.get? history "session_only").map Value.isSet).getD default.sessionOnly
    moveArgs
    editor := (Value.get? data "editor").getD default.editor
    logLevel := (Value.get? logging "level").getD default.logLevel
    logFile := (Value.get? logging "file").getD default.logFile }

def entry (key : String) (v : Value) : Value × Value := (.text key, v)

def toValue (c : Config) : Value :=
  .map [
    entry "backend" (.map [entry "binary" c.binary]),
    entry "selector" (.map [
      entry "command" c.selector,
      entry "options" c.selectorOptions,
      entry "height" (.text c.selectorHeight)]),
    entry "history" (.map [
      entry "args" (.list (c.historyArgs.map .text)),
      entry "session_only" (.bool c.sessionOnly)]),
    entry "move" (.map [entry "args" (.list (c.moveArgs.map .text))]),
    entry "editor" c.editor,
    entry "logging" (.map [entry "level" c.logLevel, entry "file" c.logFile])]

/-- A list of arguments from a variable, or `old` if it is not set. -/
def argumentsIn (e : Environment) (name : String) (old : List String) :
    Except Words.Error (List String) :=
  match e.get? name with
  | none => .ok old
  | some line => Words.split line

/-- The configuration with what the environment overrides. The binary, the selector, its options
and the lists of arguments count even when they are empty, the rest only when they are not. -/
def withEnvironment (c : Config) (e : Environment) : Except Words.Error Config := do
  let historyArgs ← argumentsIn e "VELLUM_HISTORY_ARGS" c.historyArgs
  let moveArgs ← argumentsIn e "VELLUM_MOVE_ARGS" c.moveArgs
  return { c with
    binary := ((e.get? "VELLUM_BIN").map .text).getD c.binary
    selector := ((e.get? "VELLUM_SELECTOR").map .text).getD c.selector
    selectorOptions := ((e.get? "FZF_CTRL_R_OPTS").map .text).getD c.selectorOptions
    selectorHeight := (e.filled? "FZF_TMUX_HEIGHT").getD c.selectorHeight
    historyArgs
    moveArgs
    editor := ((e.filled? "VELLUM_EDITOR").map .text).getD c.editor
    logLevel := ((e.filled? "VELLUM_SHELL_LOG_LEVEL").map .text).getD c.logLevel
    logFile := ((e.filled? "VELLUM_SHELL_LOG").map .text).getD c.logFile }

def ofEnvironment (e : Environment) : Except Words.Error Config := default.withEnvironment e

def searchArgs (c : Config) : List String :=
  if c.sessionOnly && !c.historyArgs.contains "--session" then c.historyArgs ++ ["--session"]
  else c.historyArgs

/-- The editor for the history itself: the configured one, else the one of the environment. -/
def resolvedEditor (c : Config) (e : Environment) : Value :=
  if c.editor.isSet then c.editor
  else (((e.filled? "VELLUM_EDITOR").or (e.filled? "EDITOR")).map Value.text).getD .null

end Config
end ShellHistory
