import ShellHistory.Bridge
import ShellHistory.Repl

/-! The interactive shell as a program: its command line, its configuration, and its prompt loop. -/

namespace ShellHistory.Console

open Options

def grammar : Grammar where
  program := "vellum-repl"
  usage :=
    "usage: vellum-repl [-h] [--config CONFIG]\n"
  details :=
    "vellum repl - interactive shell with synchronized history\n" ++
    "\n" ++
    "options:\n" ++
    "  -h, --help            show this help message and exit\n" ++
    "  --config CONFIG, -c CONFIG\n" ++
    "                        Config file (default: $VELLUM_SHELL_CONFIG or\n" ++
    "                        ~/.config/vellum/shell.yaml)\n"
  flags := [Bridge.helpFlag, Bridge.configFlag]
  positionals := []

/-- The configuration that the command line asks for, or what ends the program before it starts. -/
def configFor (argv : List String) : Act Host (Except Stop Config) := do
  match grammar.read argv with
  | .error s => return .error s
  | .ok r =>
    if r.extras ≠ [] then return .error (grammar.refuseExtras r.extras)
    let h ← get
    match Config.load h.files h.cwd h.login h.accounts (r.value? "config").join h.environ with
    | .ok c => return .ok c
    | .error e =>
      if !e.isReported then throw (.load e)
      return .error (grammar.refuse ("cannot load config: " ++ e.report))

/-- Gets the program ready, unless it ends with a status before it starts. -/
def prepare (argv : List String) : Act Host (Except Int Config) := do
  match ← configFor argv with
  | .error s => return .error (← Bridge.stop s)
  | .ok c =>
    Diagnostics.setUp c
    return .ok c

/-- What has become of a run: its status, the machine, and the prompts that were shown. -/
structure Report where
  status : Except Failure Int
  host : Host
  prompts : List String

def run (argv : List String) (turns : List Repl.Turn) (h : Host) : Report :=
  match prepare argv h with
  | .error f h => ⟨.error f, h, []⟩
  | .ok (.error status) h => ⟨.ok status, h, []⟩
  | .ok (.ok c) h =>
    match Repl.run turns (Repl.create h c h.terminal) with
    | .ok status r => ⟨.ok status, r.shell.host, r.prompts⟩
    | .error f r => ⟨.error f, r.shell.host, r.prompts⟩

end ShellHistory.Console
