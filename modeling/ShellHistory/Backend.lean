import ShellHistory.Host
import ShellHistory.Move
import ShellHistory.Session

/-! Calls of the history program. A call waits for the end of the process; a program that cannot be
launched counts as one that failed. What gets through is an interrupt, a call that no process can be
told, and an answer that is no text. -/

namespace ShellHistory

structure Backend where
  binary : Value
  editor : Value
  deriving Repr

namespace Backend

structure Result where
  argv : List String
  stdout : String
  stderr : String
  status : Int
  deriving DecidableEq, Repr

def Result.success (r : Result) : Bool := r.status = 0

def Result.firstLine (r : Result) : String :=
  String.ofList
    (Text.dropEndWhile (· = '\r') (r.stdout.toList.takeWhile (· ≠ '\n')))

def source : String := "vellum_integration.backend"

/-- A setting as a process is told it, which takes texts and bytes. Bytes that are no text have the
replacement character here for each that is no ASCII. -/
def asText : Value → Except Failure String
  | .text s => .ok s
  | .unpaired t => .ok t.spelled
  | .bytes content => .ok (Text.ofBytes content)
  | v => .error (.notText v.kind)

/-- The environment of a call: the shell's, with the session and the editor. -/
def environment (b : Backend) (session : Option Session) (e : Environment) :
    Except Failure Environment := do
  let e := match session with
    | none => e
    | some s => e.merge s.toEnvironment
  if b.editor.isSet then return e.set "VELLUM_EDITOR" (← asText b.editor)
  return e

def run (b : Backend) (args : List String) (session : Option Session) (captured : Bool) :
    Act Host Result := do
  let environ ← ofExcept (b.environment session (← get).environ)
  let binary ← ofExcept (asText b.binary)
  let argv := binary :: args
  let result ← match ← Host.launch (.backend argv captured) environ with
    | .exited e => pure ⟨argv, if captured then e.stdout else "", e.stderr, e.status⟩
    | .garbled _ => throw .encoding
    | .refused e => pure ⟨argv, "", e.message binary, -1⟩
    | .interrupted => throw .interrupted
  if !result.success then
    Host.log .debug source (args.headD binary ++ " exited " ++ toString result.status ++
      " after 0ms: " ++ Text.strip result.stderr)
  return result

/-- A text that the program was asked for, or nothing if it failed or said nothing. -/
def ask (b : Backend) (args : List String) : Act Host (Option String) := do
  let result ← b.run args none true
  let answer := Text.strip result.firstLine
  return if result.success && !answer.isEmpty then some answer else none

def initSession (b : Backend) : Act Host (Option String) := b.ask ["init", "session"]

def initTimestamp (b : Backend) : Act Host (Option String) := b.ask ["init", "timestamp"]

def store (b : Backend) (line : String) (session : Option Session) : Act Host Result :=
  b.run ["store", "--", line] session false

def move (b : Backend) (m : Move) (session : Option Session) : Act Host Result :=
  match m.args? with
  | none => throw (.direction m.direction)
  | some args =>
    b.run args (session.or (if m.session = "" then none else some ⟨m.session, none⟩)) true

def history (b : Backend) (extra : List String) (session : Option Session) : Act Host Result :=
  b.run (["history", "--fzf"] ++ extra) session true

end Backend
end ShellHistory
