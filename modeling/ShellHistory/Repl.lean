import ShellHistory.Buffer
import ShellHistory.Shell
import ShellHistory.Text.Digit

/-! An interactive shell. It hands its lines to the system's shell, apart from `cd` and `exit`, and
calls its hooks around them, so that a history that is attached stores and finds every line. -/

namespace ShellHistory

structure Repl where
  shell : Shell
  config : Config
  interactive : Bool
  cwd : Path
  lastExit : Int
  running : Bool
  buffer : Buffer
  /-- The prompts that were shown. -/
  prompts : List String
  /-- Whether keys were bound when the last prompt loop began. -/
  bound : Option Bool

namespace Repl

/-- A shell in the working directory of the program, not started yet. -/
def create (host : Host) (c : Config) (interactive : Bool) : Repl where
  shell := Shell.create host c
  config := c
  interactive := interactive
  cwd := Path.ofPlace host.cwd
  lastExit := 0
  running := false
  buffer := .empty
  prompts := []
  bound := none

def onShell {α : Type} (act : Act Shell α) : Act Repl α := fun r =>
  match act r.shell with
  | .ok a s => .ok a { r with shell := s }
  | .error f s => .error f { r with shell := s }

def onHost {α : Type} (act : Act Host α) : Act Repl α := onShell (Shell.onHost act)

def environ (r : Repl) : Environment := r.shell.host.environ

/-- Sets up the history. Without it the shell works all the same. -/
def start : Act Repl Bool := do
  let r ← get
  discard (onShell (Shell.setUp r.config r.interactive))
  modify fun r => { r with running := true }
  return (← get).shell.integration.isSome

def stop : Act Repl Unit := modify fun r => { r with running := false }

/-- The environment of a command. The mark of the setup stays with the shell. -/
def childEnvironment (e : Environment) : Environment := e.erase Setup.sentinelName

def wantedOf (r : Repl) (target : String) : String :=
  if target = "" then (r.shell.host.environ.get? "HOME").getD "~" else target

def targetOf (r : Repl) (target : String) : Path :=
  let h := r.shell.host
  r.cwd.join (Path.ofString (Tilde.expand h.login h.accounts (r.wantedOf target)))

def isThere? (r : Repl) (target : String) : Except Failure Bool :=
  if Tilde.isUnnamable (r.wantedOf target) then .error (.file .badName (r.wantedOf target))
  else
    let name := (r.targetOf target).toText
    (r.shell.host.files.isDirectory? r.shell.host.cwd name).mapError (.file · name)

def changeDirectory (target : String) : Act Repl Int := do
  let r ← get
  let h := r.shell.host
  let name := (r.targetOf target).toText
  match r.isThere? target with
  | .error f => throw f
  | .ok false =>
    onHost (Host.printError ("cd: no such directory: " ++ target))
    return 1
  | .ok true =>
    onHost (Host.setVariable "OLDPWD" r.cwd.toText)
    match h.files.canonical? h.cwd name with
    | none => throw (.linkCircle name)
    | some place =>
      let cwd := Path.ofPlace place
      modify fun r => { r with cwd }
      onHost (Host.setVariable "PWD" cwd.toText)
      return 0

def statusOf (arguments : List String) : Except Failure (Option Int) :=
  match arguments with
  | [] => .ok none
  | s :: _ =>
    if s.toList.all Text.isDigit then
      match Text.readInt s with
      | .ok n => .ok (some n)
      | .error e => .error (.number e s)
    else .ok none

def runCommand (line : String) : Act Repl Int := do
  let r ← get
  match ← onHost (Host.launch (.commandLine line r.cwd) (childEnvironment r.environ)) with
  | .exited e => return e.status
  | .garbled status => return status
  | .refused e => throw (.file e (Job.commandLine line r.cwd).program)
  | .interrupted => return 130

def keepStatus (status : Int) : Act Repl Int := do
  modify fun r => { r with lastExit := status }
  return status

/-- Runs one line and returns the status of the last one that was run. -/
def execute (line : String) : Act Repl Int := do
  let words := Text.words line
  if words = [] then return (← get).lastExit
  onShell (Shell.fire .preexec [line])
  match words with
  | "exit" :: arguments =>
    stop
    let status ← ofExcept (statusOf arguments)
    keepStatus (status.getD (← get).lastExit)
  | ["cd"] => keepStatus (← changeDirectory "")
  | ["cd", target] => keepStatus (← changeDirectory target)
  | _ => keepStatus (← runCommand line)

/-- Starts the shell, runs lines one after the other, and stops, even if one of them fails. -/
def runLines (lines : List String) : Act Repl Unit := fun r =>
  match (do discard start; lines.forM fun line => discard (execute line) : Act Repl Unit) r with
  | .ok _ r => stop r
  | .error f r => .error f { r with running := false }

/-- The working directory as the prompt shows it, the home shortened to `~`. -/
def shownDirectory (home cwd : Path) : String :=
  if cwd.isWithin home then
    "~" ++ String.ofList (cwd.toText.toList.drop home.toText.length)
  else cwd.toText

def promptText : Act Repl String := do
  let r ← get
  let h := r.shell.host
  match Tilde.ownHome? h.login h.accounts with
  | none => throw .homeless
  | some home =>
    let marker := if r.lastExit = 0 then "$" else "[" ++ toString r.lastExit ++ "]$"
    return shownDirectory home r.cwd ++ " " ++ marker ++ " "

inductive Key
  | up
  | down
  | search
  deriving DecidableEq, Repr

def replaceLine (line : String) : Act Repl Unit :=
  modify fun r => { r with buffer := r.buffer.replaceText line.toList }

/-- What an arrow key does: a step through the history, or a move within the buffer. -/
def walk (i : Integration) (direction : Int) (probe : List Char) (move : Buffer → Buffer) :
    Act Repl Unit := do
  let text := String.ofList (← get).buffer.text
  match ← onShell (Shell.navigate i direction text (some (String.ofList probe))) with
  | .bypass => modify fun r => { r with buffer := move r.buffer }
  | .unchanged => return
  | .replaced line => replaceLine line

def press (i : Integration) (key : Key) (count : Nat) : Act Repl Unit := do
  let b := (← get).buffer
  match key with
  | .up => walk i Move.previous b.before (·.up count)
  | .down => walk i Move.next b.after (·.down count)
  | .search =>
    match (← onShell (Shell.search i (String.ofList b.text))).line with
    | none => return
    | some line => replaceLine line

inductive Answer
  | line (s : String)
  | interrupt
  | endOfFile
  deriving DecidableEq, Repr

inductive Stroke
  /-- A key, pressed `count` times if it moves within the buffer. -/
  | key (key : Key) (count : Nat)
  /-- Text is typed or the point is moved, with this as the outcome. -/
  | edit (text : String) (point : Nat)
  deriving DecidableEq, Repr

/-- What the user does at one prompt: strokes, and then the end of it. The buffer is found as the last
prompt left it, so an editor that empties it for a new one begins with an edit. -/
structure Turn where
  strokes : List Stroke
  answer : Answer
  deriving DecidableEq, Repr

/-- Without a history its keys do nothing. -/
def strike : Stroke → Act Repl Unit
  | .key key count => do
    match (← get).shell.integration with
    | some i => press i key count
    | none => return
  | .edit text point =>
    modify fun r => { r with buffer := r.buffer.replace text.toList point }

def showPrompt : Act Repl Unit := do
  onShell (Shell.fire .precmd [])
  let text ← promptText
  modify fun r => { r with prompts := r.prompts ++ [text] }

/-- Prompts for lines and runs them, until the shell stops or the input ends. -/
def loop : List Turn → Act Repl Int
  | [] => do
    if !(← get).running then return (← get).lastExit
    showPrompt
    return (← get).lastExit
  | turn :: turns => do
    if !(← get).running then return (← get).lastExit
    showPrompt
    turn.strokes.forM strike
    match turn.answer with
    | .interrupt => loop turns
    | .endOfFile => return (← get).lastExit
    | .line s =>
      discard (execute s)
      loop turns

def run (turns : List Turn) : Act Repl Int := do
  if !(← get).running then discard start
  modify fun r => { r with bound := some r.shell.integration.isSome }
  loop turns

end Repl
end ShellHistory
