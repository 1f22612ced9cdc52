import ShellHistory.Text.Cut

/-! Paths as text: a root and the names below it. Empty names and `.` are dropped, `..` is kept,
because what it means depends on the links before it. -/

namespace ShellHistory

/-- What a path starts from. Exactly two slashes are a root of their own. -/
inductive Root
  | none
  | one
  | two
  deriving DecidableEq, Repr

structure Path where
  root : Root
  names : List String
  deriving DecidableEq, Repr

namespace Path

/-- The names between the slashes of a text, the empty ones left out. -/
def namesOf (s : List Char) : List String :=
  ((Text.fields '/' s).filter (· ≠ [])).map String.ofList

def rootOf (s : List Char) : Root :=
  match (s.takeWhile (· = '/')).length with
  | 0 => .none
  | 2 => .two
  | _ => .one

def ofString (s : String) : Path :=
  ⟨rootOf s.toList, (namesOf s.toList).filter (· ≠ ".")⟩

def rootText : Root → String
  | .none => ""
  | .one => "/"
  | .two => "//"

def toText (p : Path) : String :=
  match p.root, p.names with
  | .none, [] => "."
  | root, names => rootText root ++ String.intercalate "/" names

def isAbsolute (p : Path) : Bool := p.root ≠ .none

def join (p q : Path) : Path :=
  if q.isAbsolute then q else ⟨p.root, p.names ++ q.names⟩

def child (p : Path) (name : String) : Path := p.join (ofString name)

def parent (p : Path) : Path := ⟨p.root, p.names.dropLast⟩

/-- The last name from its last point on, if that point stands inside the name. -/
def suffix (p : Path) : String :=
  match p.names.getLast? with
  | none => ""
  | some name =>
    let tail := name.toList.reverse.takeWhile (· ≠ '.')
    let stem := name.toList.length - tail.length - 1
    if tail ≠ [] ∧ 0 < stem ∧ tail.length < name.toList.length then
      String.ofList ('.' :: tail.reverse)
    else ""

def isWithin (p q : Path) : Bool := p.root = q.root && q.names.isPrefixOf p.names

/-- The names of an absolute path with each `..` taken back against the name before it. -/
def lexicalNames (names : List String) : List String :=
  names.foldl (fun done name => if name = ".." then done.dropLast else done ++ [name]) []

/-- The absolute path of `p` seen from `cwd`, without looking at any file. -/
def lexical (cwd p : Path) : Path :=
  let q := cwd.join p
  ⟨q.root, lexicalNames q.names⟩

end Path
end ShellHistory
