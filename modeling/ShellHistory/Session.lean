import ShellHistory.Environment

/-! The session of one interactive shell, as the history program knows it. It lives in two
environment variables, so that every child of the shell belongs to the session too. -/

namespace ShellHistory

structure Session where
  token : String
  start : Option String
  deriving DecidableEq, Repr

namespace Session

def tokenName : String := "VELLUM_SESSION"

def startName : String := "VELLUM_SESSION_START"

def ofEnvironment? (e : Environment) : Option Session :=
  (e.filled? tokenName).map fun token => ⟨token, e.filled? startName⟩

/-- The variables of the session: always the token, and the start if it is known. -/
def toEnvironment (s : Session) : Environment :=
  match s.start.filter (· ≠ "") with
  | none => ⟨[(tokenName, s.token)]⟩
  | some start => ⟨[(tokenName, s.token), (startName, start)]⟩

end Session
end ShellHistory
