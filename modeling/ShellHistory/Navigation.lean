import ShellHistory.Backend

/-! Walking through the history with the arrow keys. The first step of a walk is restricted to the
lines that start with what was typed; later steps go on from the entry that is shown, so that the
list stays the same while the user walks and edits. -/

namespace ShellHistory

/-- What one shell keeps between two keys. The cursor is the id of the entry that is shown, and is
empty outside of a walk. -/
structure Context where
  session : Session
  config : Config
  cursor : String
  lastSelected : Option String
  deriving Repr

def Context.isWalking (c : Context) : Bool := c.cursor ≠ ""

namespace Navigation

inductive Outcome
  /-- The key moves within the line, which has several lines itself. -/
  | bypass
  | unchanged
  | replaced (line : String)
  deriving DecidableEq, Repr

def source : String := "vellum_integration.cursor"

def request (c : Context) (direction : Int) (buffer : String) : Move where
  direction := direction
  session := c.session.token
  cursor := c.cursor
  typed := if c.isWalking then none else some buffer
  extra := c.config.moveArgs

/-- One step, unless the probed text has line breaks. -/
def step (b : Backend) (c : Context) (direction : Int) (buffer : String) (probe : Option String) :
    Act Host (Outcome × Context) := do
  if (probe.getD buffer).toList.contains '\n' then return (.bypass, c)
  let result ← b.move (request c direction buffer) (some c.session)
  if !result.success then return (.unchanged, c)
  match Reply.ofText result.stdout with
  | .malformed raw =>
    Host.log .debug source ("ignoring malformed move reply: " ++ Text.literal raw)
    return (.unchanged, c)
  | .entry e => return (.replaced e.line, { c with cursor := e.id })

end Navigation
end ShellHistory
