import ShellHistory.Bridge.Grammar
import ShellHistory.Diagnostics
import ShellHistory.Dialect
import ShellHistory.Options.Reading
import ShellHistory.Setup
import ShellHistory.Yaml.Writer

/-! The bridge between a running shell and its history. The scripts of the shells call it from their
hooks and keys. Every call is a process of its own, so the cursor of a walk comes in as an argument
and goes out in the statements that the shell is given. What runs at every key and every line must
not fail because of a bad configuration. -/

namespace ShellHistory.Bridge

open Options

inductive Command
  | script (dialect : Option Dialect) (program : String)
  | session (dialect : Option Dialect)
  | capture (line : String)
  | navigate (dialect : Option Dialect) (cursor probe : Option String) (direction : Int)
    (buffer : String)
  | search (dialect : Option Dialect) (buffer : String)
  | showConfig
  | createConfig (force : Bool)
  deriving DecidableEq, Repr

/-- A command, if there is one, and the file of the configuration. -/
structure Invocation where
  config : Option String
  command : Option Command
  deriving DecidableEq, Repr

def dialectOf (r : Reading) : Option Dialect :=
  (r.valueOr "shell" "").bind Dialect.ofName?

def textOf (r : Reading) (key fallback : String) : String := (r.valueOr key fallback).getD ""

def directionOf (r : Reading) : Int :=
  match Text.readInt (textOf r "direction" "") with
  | .ok n => n
  | .error _ => 0

/-- Reads the command line of a command, and returns what nothing has taken. -/
def readCommand (name : String) (rest : List String) :
    Except Stop (Option Command × List String) := do
  match name with
  | "init" =>
    let r ← initGrammar.read rest
    return (some (.script (dialectOf r) (textOf r "program" "vellum-hook")), r.extras)
  | "session" =>
    let r ← sessionGrammar.read rest
    return (some (.session (dialectOf r)), r.extras)
  | "capture" =>
    let r ← captureGrammar.read rest
    return (some (.capture (textOf r "command_text" "")), r.extras)
  | "navigate" =>
    let r ← navigateGrammar.read rest
    let probe := (r.value? "probe").map (·.getD "")
    return (some (.navigate (dialectOf r) (r.valueOr "cursor" "") probe (directionOf r)
      (textOf r "buffer" "")), r.extras)
  | "search" =>
    let r ← searchGrammar.read rest
    return (some (.search (dialectOf r) (textOf r "buffer" "")), r.extras)
  | _ =>
    let r ← configGrammar.read rest
    match r.command with
    | none => return (none, r.extras)
    | some (name, rest) =>
      let (command, s) ←
        if name = "show" then (do return (Command.showConfig, ← configShowGrammar.read rest))
        else do
          let s ← configInitGrammar.read rest
          pure (Command.createConfig (s.has "force"), s)
      return (some command, r.extras ++ s.extras)

def Invocation.read (argv : List String) : Except Stop Invocation := do
  let top ← mainGrammar.read argv
  let (command, extras) ← match top.command with
    | none => pure (none, [])
    | some (name, rest) => readCommand name rest
  if top.extras ++ extras ≠ [] then throw (mainGrammar.refuseExtras (top.extras ++ extras))
  return ⟨(top.value? "config").join, command⟩

def Command.toleratesConfig : Command → Bool
  | capture _ | navigate _ _ _ _ _ | search _ _ | createConfig _ => true
  | script _ _ | session _ | showConfig => false

def backendOf (h : Host) (c : Config) : Backend := ⟨c.binary, c.resolvedEditor h.login⟩

def contextOf (h : Host) (c : Config) (cursor : String) : Context :=
  ⟨(Session.ofEnvironment? h.login).getD ⟨"", none⟩, c, cursor, none⟩

def printStatements (statements : String) : Act Host Unit :=
  if statements = "" then pure () else Host.print (statements ++ "\n")

def needDialect : Option Dialect → Except Failure Dialect
  | some d => .ok d
  | none => .error (.notKey "list")

def startSession (d : Dialect) (c : Config) : Act Host Int := do
  let h ← get
  if !(← ofExcept (Setup.hasSelector h c none)) then
    Host.printError Failure.missingSelector.message
    return 1
  let s ← Setup.establish (backendOf h c)
  Host.print (d.sessionStatements s ++ "\n")
  return 0

/-- A step from a cursor. A cursor of `--` is no text and fails once it is sent. -/
def takeStep (d : Dialect) (c : Config) (cursor probe : Option String) (direction : Int)
    (buffer : String) : Act Host Int := do
  let h ← get
  match cursor with
  | none =>
    if !(probe.getD buffer).toList.contains '\n' then throw (.notText "list")
    printStatements (d.navigationStatements .bypass "" direction)
  | some cursor =>
    let (outcome, context) ←
      Navigation.step (backendOf h c) (contextOf h c cursor) direction buffer probe
    printStatements (d.navigationStatements outcome context.cursor direction)
  return 0

/-- Writes a new configuration file. One that is there stays, unless it is forced. -/
def createConfig (config : Option String) (force : Bool) : Act Host Int := do
  let h ← get
  let path ← match config.filter (· ≠ "") with
    | some path => pure (Path.ofString path)
    | none => ofExcept ((Config.defaultPath h.login h.accounts h.login).mapError .load)
  let name := path.toText
  let present ← ofExcept ((h.files.exists? h.cwd name).mapError (.file · name))
  if present && !force then
    Host.print ("Config already exists: " ++ name ++ "\nUse --force to overwrite\n")
    return 1
  if let some (e, p) := ← Host.makeDirectories path.parent then throw (.file e p)
  let h ← get
  let files ← ofExcept
    ((h.files.write h.cwd name Config.template.toUTF8).mapError (.file · name))
  modify fun h => { h with files }
  Host.print ("Created: " ++ name ++ "\n")
  return 0

def Command.run (config : Option String) (c : Config) : Command → Act Host Int
  | script d program => do
    Host.print ((← ofExcept (needDialect d)).script program)
    return 0
  | session d => do startSession (← ofExcept (needDialect d)) c
  | capture line => do
    let h ← get
    discard ((backendOf h c).store line (some (contextOf h c "").session))
    return 0
  | navigate d cursor probe direction buffer => do
    takeStep (← ofExcept (needDialect d)) c cursor probe direction buffer
  | search d buffer => do
    let d ← ofExcept (needDialect d)
    let h ← get
    let (outcome, _) ← Search.run (backendOf h c) (contextOf h c "") buffer
    printStatements (d.searchStatements outcome.line)
    return outcome.status
  | showConfig => do
    if c.toValue.hasLongNumber then throw .longNumber
    Host.print (Yaml.Writer.write c.toValue)
    return 0
  | createConfig force => Bridge.createConfig config force

/-- The configuration of a command, or the status that the program ends with without one. -/
def configFor (config : Option String) (command : Command) : Act Host (Except Stop Config) := do
  let h ← get
  match Config.load h.files h.cwd h.login h.accounts config h.login with
  | .ok c => return .ok c
  | .error e =>
    if !e.isReported then throw (.load e)
    else if command.toleratesConfig then
      return .ok (← ofExcept ((Config.ofEnvironment h.login).mapError .words))
    else return .error (mainGrammar.refuse ("cannot load config: " ++ e.report))

def stop : Stop → Act Host Int
  | .shown text => do
    Host.print text
    return 0
  | .refused text => do
    modify fun h => { h with err := h.err ++ text }
    return 2

def run (argv : List String) : Act Host Int := do
  match Invocation.read argv with
  | .error s => stop s
  | .ok ⟨_, none⟩ =>
    Host.print mainGrammar.help
    return 1
  | .ok ⟨config, some command⟩ =>
    match ← configFor config command with
    | .error s => stop s
    | .ok c =>
      Diagnostics.setUp c
      command.run config c

end ShellHistory.Bridge
