import ShellHistory.Move
import ShellHistory.Options.Grammar

/-! The command lines of the bridge between the shells and the history: one grammar for the program
and one for each of its commands. -/

namespace ShellHistory.Bridge

open Options

def shells : Choice := .oneOf ["bash", "fish", "zsh"]

def helpFlag : Flag := ⟨["-h", "--help"], "help", .help, false⟩

def configFlag : Flag := ⟨["--config", "-c"], "config", .value .any, false⟩

def shellFlag : Flag := ⟨["--shell"], "shell", .value shells, true⟩

def mainGrammar : Grammar where
  program := "vellum-hook"
  usage :=
    "usage: vellum-hook [-h] [--version] [--config CONFIG]\n" ++
    "                   \x7binit,session,capture,navigate,search,config\x7d ...\n"
  details :=
    "vellum hook - shell integration for vellum history\n" ++
    "\n" ++
    "positional arguments:\n" ++
    "  \x7binit,session,capture,navigate,search,config\x7d\n" ++
    "                        Action\n" ++
    "    init                Print the integration script for a shell\n" ++
    "    session             Start a session and print exports\n" ++
    "    capture             Store an executed command\n" ++
    "    navigate            Move through history\n" ++
    "    search              Search history with the selector\n" ++
    "    config              Show or create the config file\n" ++
    "\n" ++
    "options:\n" ++
    "  -h, --help            show this help message and exit\n" ++
    "  --version             show program's version number and exit\n" ++
    "  --config CONFIG, -c CONFIG\n" ++
    "                        Config file (default: $VELLUM_SHELL_CONFIG or\n" ++
    "                        ~/.config/vellum/shell.yaml)\n"
  flags := [helpFlag, ⟨["--version"], "version", .version "vellum-hook 1.0.0", false⟩, configFlag]
  positionals := [⟨"action", .command,
    .oneOf ["init", "session", "capture", "navigate", "search", "config"]⟩]

def initGrammar : Grammar where
  program := "vellum-hook init"
  usage :=
    "usage: vellum-hook init [-h] [--program PROGRAM] \x7bbash,fish,zsh\x7d\n"
  details :=
    "positional arguments:\n" ++
    "  \x7bbash,fish,zsh\x7d    Shell dialect\n" ++
    "\n" ++
    "options:\n" ++
    "  -h, --help         show this help message and exit\n" ++
    "  --program PROGRAM  Name the script calls back\n"
  flags := [helpFlag, ⟨["--program"], "program", .value .any, false⟩]
  positionals := [⟨"shell", .one, shells⟩]

def sessionGrammar : Grammar where
  program := "vellum-hook session"
  usage :=
    "usage: vellum-hook session [-h] --shell \x7bbash,fish,zsh\x7d\n"
  details :=
    "options:\n" ++
    "  -h, --help            show this help message and exit\n" ++
    "  --shell \x7bbash,fish,zsh\x7d\n" ++
    "                        Shell dialect\n"
  flags := [helpFlag, shellFlag]
  positionals := []

def captureGrammar : Grammar where
  program := "vellum-hook capture"
  usage :=
    "usage: vellum-hook capture [-h] command_text\n"
  details :=
    "positional arguments:\n" ++
    "  command_text  Command line as typed\n" ++
    "\n" ++
    "options:\n" ++
    "  -h, --help    show this help message and exit\n"
  flags := [helpFlag]
  positionals := [⟨"command_text", .one, .any⟩]

def navigateGrammar : Grammar where
  program := "vellum-hook navigate"
  usage :=
    "usage: vellum-hook navigate [-h] --shell \x7bbash,fish,zsh\x7d [--cursor CURSOR]\n" ++
    "                            [--probe PROBE]\n" ++
    "                            \x7b-1,1\x7d [buffer]\n"
  details :=
    "positional arguments:\n" ++
    "  \x7b-1,1\x7d                -1 older, 1 newer\n" ++
    "  buffer                Current buffer text\n" ++
    "\n" ++
    "options:\n" ++
    "  -h, --help            show this help message and exit\n" ++
    "  --shell \x7bbash,fish,zsh\x7d\n" ++
    "                        Shell dialect\n" ++
    "  --cursor CURSOR       Entry id currently shown\n" ++
    "  --probe PROBE         Text checked for newlines\n"
  flags := [helpFlag, shellFlag, ⟨["--cursor"], "cursor", .value .any, false⟩,
    ⟨["--probe"], "probe", .value .any, false⟩]
  positionals := [⟨"direction", .one, .oneOfWhole [Move.previous, Move.next]⟩,
    ⟨"buffer", .atMostOne, .any⟩]

def searchGrammar : Grammar where
  program := "vellum-hook search"
  usage :=
    "usage: vellum-hook search [-h] --shell \x7bbash,fish,zsh\x7d [buffer]\n"
  details :=
    "positional arguments:\n" ++
    "  buffer                Initial query\n" ++
    "\n" ++
    "options:\n" ++
    "  -h, --help            show this help message and exit\n" ++
    "  --shell \x7bbash,fish,zsh\x7d\n" ++
    "                        Shell dialect\n"
  flags := [helpFlag, shellFlag]
  positionals := [⟨"buffer", .atMostOne, .any⟩]

def configGrammar : Grammar where
  program := "vellum-hook config"
  usage :=
    "usage: vellum-hook config [-h] \x7bshow,init\x7d ...\n"
  details :=
    "positional arguments:\n" ++
    "  \x7bshow,init\x7d  Config action\n" ++
    "    show       Print the effective config\n" ++
    "    init       Write a default config file\n" ++
    "\n" ++
    "options:\n" ++
    "  -h, --help   show this help message and exit\n"
  flags := [helpFlag]
  positionals := [⟨"config_action", .command, .oneOf ["show", "init"]⟩]

def configShowGrammar : Grammar where
  program := "vellum-hook config show"
  usage :=
    "usage: vellum-hook config show [-h]\n"
  details :=
    "options:\n" ++
    "  -h, --help  show this help message and exit\n"
  flags := [helpFlag]
  positionals := []

def configInitGrammar : Grammar where
  program := "vellum-hook config init"
  usage :=
    "usage: vellum-hook config init [-h] [--force]\n"
  details :=
    "options:\n" ++
    "  -h, --help   show this help message and exit\n" ++
    "  --force, -f  Overwrite existing config\n"
  flags := [helpFlag, ⟨["--force", "-f"], "force", .mark, false⟩]
  positionals := []

end ShellHistory.Bridge
