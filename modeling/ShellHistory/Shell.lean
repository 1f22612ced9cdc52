import ShellHistory.Hook
import ShellHistory.Setup

/-! A shell with its history attached: the hooks that it calls and, once it is set up, the
integration that stores lines, walks through the history and searches it. -/

namespace ShellHistory

/-- What ties a shell to its history. `number` tells it from those before it. -/
structure Integration where
  number : Nat
  context : Context
  installed : Bool
  deriving Repr

structure Shell where
  host : Host
  backend : Backend
  registry : Registry
  integration : Option Integration
  /-- How many integrations there have been. -/
  made : Nat
  /-- What observers have noted: a name and the arguments. -/
  notes : List (String × List String)

namespace Shell

def onHost {α : Type} (act : Act Host α) : Act Shell α := fun s =>
  match act s.host with
  | .ok a h => .ok a { s with host := h }
  | .error f h => .error f { s with host := h }

def register (h : Hook) : Act Shell Unit :=
  modify fun s => { s with registry := s.registry.register h }

def backendOf (c : Config) (e : Environment) : Backend := ⟨c.binary, c.resolvedEditor e⟩

def create (host : Host) (c : Config) : Shell where
  host := host
  backend := backendOf c host.environ
  registry := .empty
  integration := none
  made := 0
  notes := []

def call (h : Hook) (args : List String) : Act Shell Unit := do
  match h.action, args with
  | .capture session, [line] =>
    let s ← get
    discard (onHost (s.backend.store line (some session)))
  | .reset number, [] =>
    modify fun s =>
      match s.integration with
      | some i =>
        if i.number = number then
          { s with integration := some { i with context := { i.context with cursor := "" } } }
        else s
      | none => s
  | .observe ending _, _ =>
    modify fun s => { s with notes := s.notes ++ [(h.name, args)] }
    h.added.forM register
    match ending with
    | .quiet => return
    | .failing => throw .observer
    | .interrupting => throw .interrupted
  | _, _ => throw .arity

/-- Calls a hook. Its failure is logged, and only an interrupt gets through. -/
def callSafely (h : Hook) (args : List String) : Act Shell Unit := fun s =>
  match call h args s with
  | .ok _ s => .ok () s
  | .error .interrupted s => .error .interrupted s
  | .error f s =>
    onHost (Host.log .error "vellum_integration.hooks" ("hook " ++ h.name ++ " failed") (some f)) s

/-- Calls hooks one after the other, and after them those that they register. -/
def callAll (args : List String) : List Hook → Act Shell Unit
  | [] => pure ()
  | h :: rest => do
    callSafely h args
    callAll args (rest ++ h.added)
termination_by hooks => Hook.weight hooks
decreasing_by
  simp only [Hook.weight_append, Hook.weight, Hook.weight_added]
  omega

def fire (event : Event) (args : List String) : Act Shell Unit := do
  callAll args ((← get).registry.hooks event)

def attach (c : Context) : Act Shell Unit :=
  modify fun s => { s with integration := some ⟨s.made, c, false⟩, made := s.made + 1 }

/-- Registers the hooks of the integration, once. -/
def install : Act Shell Bool := do
  match (← get).integration with
  | none => return false
  | some i =>
    if i.installed then return false
    register (Hook.captureOf i.context.session)
    register (Hook.resetOf i.number)
    modify fun s => { s with integration := some { i with installed := true } }
    return true

/-- Sets up the integration, unless the selector is missing, the shell is not interactive, or it has
been done before. -/
def setUp (c : Config) (interactive : Bool) : Act Shell Bool := do
  let h := (← get).host
  if !(← ofExcept (Setup.hasSelector h c (h.environ.get? "PATH"))) then
    onHost (Host.printError Failure.missingSelector.message)
    return false
  if Setup.isDone h.environ || !interactive then return false
  onHost (Host.setVariable Setup.sentinelName "1")
  let session ← onHost (Setup.establish (← get).backend)
  attach ⟨session, c, "", none⟩
  discard install
  onHost (Host.log .info Setup.source ("session " ++ session.token ++ " ready"))
  return true

def capture (i : Integration) (line : String) : Act Shell Unit :=
  call (Hook.captureOf i.context.session) [line]

def reset (i : Integration) : Act Shell Unit := call (Hook.resetOf i.number) []

def putContext (c : Context) : Act Shell Unit :=
  modify fun s => { s with integration := s.integration.map fun i => { i with context := c } }

def navigate (i : Integration) (direction : Int) (buffer : String) (probe : Option String) :
    Act Shell Navigation.Outcome := do
  let (outcome, c) ←
    onHost (Navigation.step (← get).backend i.context direction buffer probe)
  putContext c
  return outcome

def search (i : Integration) (buffer : String) : Act Shell Search.Outcome := do
  let (outcome, c) ← onHost (Search.run (← get).backend i.context buffer)
  putContext c
  return outcome

end Shell
end ShellHistory
