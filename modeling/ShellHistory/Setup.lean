import ShellHistory.Search

/-! Setting up a shell: whether the selector is there, and the session that the shell belongs to. -/

namespace ShellHistory.Setup

/-- Marks an environment in which the setup has been done. -/
def sentinelName : String := "__VELLUM_SETUP"

/-- Holds the key without which the history program refuses to run. -/
def keyName : String := "VELLUM_KEY"

def source : String := "vellum_integration.session"

def fallbackPath : String := "/bin:/usr/bin"

/-- A name below a directory of the search path. An empty directory is the current one. -/
def programIn (directory name : String) : String :=
  if directory = "" ∨ directory.toList.getLast? = some '/' then directory ++ name
  else directory ++ "/" ++ name

/-- Whether a program can be found: at its path if its name has a slash, else in one of the
directories of `path`. -/
def isInstalled (h : Host) (name : String) (path : Option String) : Bool :=
  if name.toList.contains '/' then h.files.isProgram h.cwd name
  else
    match path.getD ((h.login.get? "PATH").getD fallbackPath) with
    | "" => false
    | path =>
      (Text.fields ':' path.toList).any fun directory =>
        h.files.isProgram h.cwd (programIn (String.ofList directory) name)

def hasSelector (h : Host) (c : Config) (path : Option String) : Except Failure Bool := do
  match ← Search.selectorWords c.selector with
  | [] => return false
  | name :: _ => return isInstalled h name path

def check (c : Config) (path : Option String) : Act Host Unit := do
  if !(← ofExcept (hasSelector (← get) c path)) then throw .missingSelector

def isDone (e : Environment) : Bool := (e.filled? sentinelName).isSome

def findSession (b : Backend) : Act Host Session := do
  match Session.ofEnvironment? (← get).environ with
  | some s => return s
  | none =>
    let token ← b.initSession
    if token.isNone then Host.log .warning source "backing process returned no session id"
    let start ← b.initTimestamp
    return ⟨token.getD "", start⟩

/-- Finds the session and hands it on to the children of the shell. -/
def establish (b : Backend) : Act Host Session := do
  let s ← findSession b
  modify fun h => { h with environ := h.environ.merge s.toEnvironment }
  if !(← get).environ.has keyName then
    Host.log .debug source (keyName ++ " is not set; the backing process will refuse to run")
  return s

end ShellHistory.Setup
