import ShellHistory.Failure

/-! The machine that a shell runs on, as far as a shell can tell: its files, its two environments,
the processes it starts, and what it logs and prints. How a process ends is not decided here: for
each role there is a list of outcomes still to come. -/

namespace ShellHistory

structure Exit where
  stdout : String
  stderr : String
  status : Int
  deriving DecidableEq, Repr

inductive Outcome
  | exited (e : Exit)
  /-- Ended, but what is read of its output is no text. -/
  | garbled (status : Int)
  /-- The program could not be launched. -/
  | refused (e : FileError)
  | interrupted
  deriving DecidableEq, Repr

inductive Role
  /-- A call of the history program, told apart by its first argument. -/
  | backend (verb : String)
  | selector
  | commandLine
  deriving DecidableEq, Repr

inductive Job
  | backend (argv : List String) (captured : Bool)
  | selector (argv : List String) (input : String)
  | commandLine (line : String) (cwd : Path)
  deriving DecidableEq, Repr

namespace Job

def role : Job → Role
  | backend argv _ => .backend (argv.tail.headD "")
  | selector _ _ => .selector
  | commandLine _ _ => .commandLine

/-- The program that is launched. Command lines go to the system's shell. -/
def program : Job → String
  | backend argv _ | selector argv _ => argv.headD ""
  | commandLine _ _ => "/bin/sh"

def texts : Job → List String
  | backend argv _ | selector argv _ => argv
  | commandLine line cwd => [line, cwd.toText]

end Job

structure Call where
  job : Job
  environ : Environment
  deriving DecidableEq, Repr

namespace Call

def texts (c : Call) : List String :=
  c.job.texts ++ c.environ.texts

/-- Why the system cannot be told a call: the name of a variable holds a `=`, or some text a `NUL`. -/
def untold? (c : Call) : Option Failure :=
  if c.environ.names.any fun name => name.toList.contains '=' then some .variableName
  else if c.texts.any fun text => text.toList.contains '\x00' then
    some (.file .badName c.job.program)
  else none

end Call

inductive Level
  | debug
  | info
  | warning
  | error
  deriving DecidableEq, Repr

def Level.number : Level → Nat
  | debug => 10
  | info => 20
  | warning => 30
  | error => 40

/-- A record of the log, with the failure that it reports, if any. -/
structure Record where
  level : Level
  source : String
  message : String
  cause : Option Failure
  deriving DecidableEq, Repr

inductive Processes
  /-- Processes of the system. What they print is read as a file is. -/
  | system
  /-- Processes that are acted out within the program, which are told any text and heard as it is. -/
  | played
  deriving DecidableEq, Repr

structure Host where
  files : FileTree
  cwd : Place
  accounts : Accounts
  /-- The environment that the program itself was started with. -/
  login : Environment
  /-- The environment of the shell, which its children get. -/
  environ : Environment
  terminal : Bool
  scripts : List (Role × List Outcome)
  calls : List Call
  records : List Record
  /-- The least level that is logged; zero leaves it open. -/
  threshold : Nat
  logFiles : List Path
  out : String
  err : String
  processes : Processes := .played

/-- Something that is done in a state and may fail. What was done before a failure stays done. -/
abbrev Act (σ α : Type) : Type := EStateM Failure σ α

namespace Host

/-- The next outcome of a role. Without one the process exits at once and in silence. -/
def takeOutcome (role : Role) : List (Role × List Outcome) → Outcome × List (Role × List Outcome)
  | [] => (.exited ⟨"", "", 0⟩, [])
  | (r, outcomes) :: rest =>
    if r = role then
      match outcomes with
      | [] => (.exited ⟨"", "", 0⟩, (r, []) :: rest)
      | o :: more => (o, (r, more) :: rest)
    else
      let (o, rest) := takeOutcome role rest
      (o, (r, outcomes) :: rest)

def untold? (h : Host) (c : Call) : Option Failure :=
  match h.processes with
  | .system => c.untold?
  | .played => none

def heard (h : Host) (printed : String) : String :=
  match h.processes with
  | .system => Text.unifiedBreaks printed
  | .played => printed

def hear (h : Host) (e : Exit) : Exit := ⟨h.heard e.stdout, h.heard e.stderr, e.status⟩

def read (h : Host) : Outcome → Outcome
  | .exited e => .exited (h.hear e)
  | o => o

def launch (job : Job) (environ : Environment) : Act Host Outcome := do
  match (← get).untold? ⟨job, environ⟩ with
  | some f => throw f
  | none =>
    modifyGet fun h =>
      let (outcome, scripts) := takeOutcome job.role h.scripts
      (h.read outcome, { h with scripts, calls := h.calls ++ [⟨job, environ⟩] })

def log (level : Level) (source message : String) (cause : Option Failure := none) :
    Act Host Unit :=
  modify fun h =>
    let threshold := if h.threshold = 0 then Level.warning.number else h.threshold
    if threshold ≤ level.number then
      { h with records := h.records ++ [⟨level, source, message, cause⟩] }
    else h

def printError (line : String) : Act Host Unit :=
  modify fun h => { h with err := h.err ++ line ++ "\n" }

def print (text : String) : Act Host Unit :=
  modify fun h => { h with out := h.out ++ text }

def setVariable (name value : String) : Act Host Unit :=
  modify fun h => { h with environ := h.environ.set name value }

def readText (path : Path) : Act Host String := do
  let h ← get
  let name := path.toText
  match h.files.read h.cwd name with
  | .error e => throw (.file e name)
  | .ok bytes =>
    match String.fromUTF8? bytes with
    | none => throw .encoding
    | some text => return Text.unifiedBreaks text

/-- Makes a directory and those above it, and returns what was in the way. -/
def makeDirectories (path : Path) : Act Host (Option (FileError × String)) :=
  modifyGet fun h =>
    let (files, failure) :=
      FileTree.makeDirectories h.cwd path.root path.names.reverse h.files
    (failure, { h with files })

/-- The configuration in effect, from a file and an environment. -/
def loadConfig (path : Option String) (e : Environment) : Act Host Config := do
  let h ← get
  match Config.load h.files h.cwd h.login h.accounts path e with
  | .ok c => return c
  | .error f => throw (.load f)

end Host
end ShellHistory
