import ShellHistory.Environment
import ShellHistory.Path
import ShellHistory.Text.Blank

/-! A `~` at the start of a path stands for a home directory: alone for one's own, before a name
for that account's. -/

namespace ShellHistory

/-- The accounts of the system: the home of one's own, and the homes by name. -/
structure Accounts where
  own : String
  homes : List (String × String)
  deriving DecidableEq, Repr

namespace Tilde

/-- Whether a text begins with the `~` of an account with a `NUL` in its name. Such an account is not
even looked for. -/
def isUnnamable (s : String) : Bool :=
  match s.toList with
  | '~' :: rest => (rest.takeWhile (· ≠ '/')).contains '\x00'
  | _ => false

/-- The home that `~name` stands for. The variable `HOME` decides for the empty name. -/
def home? (login : Environment) (accounts : Accounts) (name : String) : Option String :=
  if name = "" then some ((login.get? "HOME").getD accounts.own)
  else accounts.homes.lookup name

/-- The text with its leading `~` replaced; unchanged if no such home is known. -/
def expand (login : Environment) (accounts : Accounts) (s : String) : String :=
  match s.toList with
  | '~' :: rest =>
    match home? login accounts (String.ofList (rest.takeWhile (· ≠ '/'))) with
    | none => s
    | some home =>
      match Text.dropEndWhile (· = '/') home.toList ++ rest.dropWhile (· ≠ '/') with
      | [] => "/"
      | cs => String.ofList cs
  | _ => s

def isUnnamablePath (p : Path) : Bool :=
  match p.root, p.names with
  | .none, name :: _ => isUnnamable name
  | _, _ => false

/-- The path with its leading `~` replaced, or nothing if no such home is known. -/
def expandPath? (login : Environment) (accounts : Accounts) (p : Path) : Option Path :=
  match p.root, p.names with
  | .none, name :: rest =>
    if name.toList.head? = some '~' then
      let home := expand login accounts name
      if home.toList.head? = some '~' then none
      else
        let q := Path.ofString home
        some ⟨q.root, q.names ++ rest⟩
    else some p
  | _, _ => some p

def ownHome? (login : Environment) (accounts : Accounts) : Option Path :=
  expandPath? login accounts (Path.ofString "~")

end Tilde
end ShellHistory
