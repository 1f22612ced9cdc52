import ShellHistory.Navigation

/-! Searching the history: its listing goes through a selector, where the user picks a line. -/

namespace ShellHistory.Search

/-- The line that was picked, if any, and the status of what ran last. -/
structure Outcome where
  line : Option String
  status : Int
  deriving DecidableEq, Repr

def source : String := "vellum_integration.search"

def cancelled : Int := 130

def missing : Int := 127

def historyOptions : String :=
  "-n2..,.. --scheme=history --bind=ctrl-r:toggle-sort --wrap-sign '\t↳ ' --highlight-line"

/-- The text of the options file. A file that cannot be read has none. -/
def optionsFile (path : String) : Act Host String := fun h =>
  match Host.readText (Path.ofString path) h with
  | .ok text h => .ok (Text.strip text) h
  | .error (.file .badName p) h => .error (.file .badName p) h
  | .error (.file e p) h =>
    (do Host.log .debug source ("cannot read " ++ path ++ ": " ++ e.message p); return "") h
  | .error f h => .error f h

/-- The options of the selector, layer after layer: the basic ones, those of the file, those of the
environment, those for a history, and those of the configuration. -/
def defaults (c : Config) (e : Environment) : Act Host String := do
  let base := "--height " ++ c.selectorHeight ++ " --min-height 20+ --bind=ctrl-z:ignore"
  let fromFile ← match e.filled? "FZF_DEFAULT_OPTS_FILE" with
    | none => pure ""
    | some path => optionsFile path
  let layers :=
    ([base, fromFile, (e.get? "FZF_DEFAULT_OPTS").getD "", historyOptions]).filter (· ≠ "")
  let own ← match c.selectorOptions.spelling? with
    | some s => pure (if s = "" then [] else [s])
    | none =>
      if c.selectorOptions.isSet then throw (.optionPart layers.length c.selectorOptions.fullKind)
      else pure []
  return String.intercalate " " (layers ++ own ++ ["+m --read0"])

/-- The words of the selector's command line. Without one they are those of the standard input,
which holds none. -/
def selectorWords (v : Value) : Except Failure (List String) :=
  match v.spelling? with
  | some line => (Words.split line).mapError .words
  | none =>
    match v with
    | .null => .ok []
    | v => .error (.notReadable v.fullKind)

/-- Runs the selector over the records and returns what it printed and its status. Neither an
interrupt nor a missing selector is a failure. -/
def runSelector (c : Config) (records query : String) : Act Host (String × Int) := do
  let words ← ofExcept (selectorWords c.selector)
  let argv := words ++ ["--query=" ++ query]
  let e := (← get).environ
  let options ← defaults c e
  let environ := (e.set "FZF_DEFAULT_OPTS" options).set "FZF_DEFAULT_OPTS_FILE" ""
  match ← Host.launch (.selector argv records) environ with
  | .exited x => return (x.stdout, x.status)
  | .garbled _ => throw .encoding
  | .refused .notFound =>
    Host.log .debug source ("selector " ++ argv.headD "" ++ " not found")
    return ("", missing)
  | .refused e => throw (.file e (argv.headD ""))
  | .interrupted => return ("", cancelled)

/-- Lets the user pick a line, with `buffer` as the first query. The cursor stays where it is. -/
def run (b : Backend) (c : Context) (buffer : String) : Act Host (Outcome × Context) := do
  let listing ← b.history c.config.searchArgs (some c.session)
  if !listing.success && listing.stdout.isEmpty then return (⟨none, listing.status⟩, c)
  let (printed, status) ← runSelector c.config listing.stdout buffer
  match Entry.ofSelection? printed with
  | none => return (⟨none, status⟩, c)
  | some e => return (⟨some e.line, status⟩, { c with lastSelected := some e.id })

end ShellHistory.Search
