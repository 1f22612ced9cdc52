import ShellHistory.Path
import ShellHistory.Text.Literal

/-! Files, directories and symbolic links, and what a path leads to among them. A path is followed
name by name, and every link on the way is followed too, up to a limit. -/

namespace ShellHistory

/-- Where a file stands: the names from the root down, with no link among them. -/
abbrev Place := List String

inductive FileNode
  | directory
  | file (content : ByteArray) (executable : Bool)
  | link (target : String)

def FileNode.isDirectory : FileNode → Bool
  | directory => true
  | _ => false

def FileNode.target? : FileNode → Option String
  | link target => some target
  | _ => none

inductive FileError
  | notFound
  | denied
  | taken
  | notDirectory
  | isDirectory
  | nameTooLong
  | tooManyLinks
  /-- The path holds a `NUL`. -/
  | badName
  deriving DecidableEq, Repr

/-- What a path leads to: something, or a free name in a directory. -/
inductive Spot
  | taken (place : Place)
  | free (place : Place)
  deriving DecidableEq, Repr

/-- What stands at which place, and the directories that nothing can be looked up in. That is the one
right there is: what is found may be read and written. -/
structure FileTree where
  nodes : List (Place × FileNode)
  closed : List Place := []

namespace FileTree

def empty : FileTree := { nodes := [] }

def node? (t : FileTree) (place : Place) : Option FileNode :=
  if place = [] then some .directory else t.nodes.lookup place

def put (t : FileTree) (place : Place) (n : FileNode) : FileTree :=
  { t with nodes := (place, n) :: t.nodes.filter fun (p, _) => p ≠ place }

/-- Puts something at a place, with directories above it where nothing is. -/
def plant (t : FileTree) (place : Place) (n : FileNode) : FileTree :=
  let t := (List.range place.length).foldl (fun t depth =>
    let above := place.take depth
    if (t.node? above).isSome then t else t.put above .directory) t
  t.put place n

theorem node?_put (t : FileTree) {place : Place} (h : place ≠ []) (n : FileNode) :
    (t.put place n).node? place = some n := by
  simp [put, node?, h]

theorem node?_put_of_ne (t : FileTree) {place other : Place} (h : other ≠ place) (n : FileNode) :
    (t.put place n).node? other = t.node? other := by
  unfold node?
  split
  · rfl
  · simp only [put, List.lookup_cons]
    have : (other == place) = false := by simpa using h
    rw [this]
    induction t.nodes with
    | nil => rfl
    | cons e rest ih =>
      obtain ⟨p, m⟩ := e
      by_cases hp : p = place
      · subst hp
        simp only [ne_eq, not_true_eq_false, decide_false, Bool.false_eq_true, not_false_eq_true,
          List.filter_cons_of_neg, List.lookup_cons, this]
        exact ih
      · simp only [ne_eq, hp, not_false_eq_true, decide_true, List.filter_cons_of_pos,
          List.lookup_cons]
        split
        · rfl
        · exact ih

def maxLinks : Nat := 40

def maxName : Nat := 255

def maxPath : Nat := 4096

/-- The names that a text asks for. A slash at its end asks for a directory, as an empty name. -/
def steps (s : String) : List String :=
  let cs := s.toList
  let names := Path.namesOf cs
  if names ≠ [] ∧ cs.getLast? = some '/' then names ++ [""] else names

def stays (name : String) : Bool := name = "." || name = ""

/-- Whether a name can be followed from a directory. The empty name asks nothing of it. -/
def admits (t : FileTree) (here : Place) (name : String) : Bool := name = "" || here ∉ t.closed

theorem admits_of_open {t : FileTree} {here : Place} (h : here ∉ t.closed) (name : String) :
    t.admits here name = true := by
  simp [admits, h]

/-- What a path is followed for. -/
inductive Aim
  /-- To see what stands there, be it a link. -/
  | entry
  /-- To see what it leads to in the end. -/
  | target
  /-- To open a file there, a new one if need be. -/
  | opening
  deriving DecidableEq, Repr

def startOf (target : String) (here : Place) : Place :=
  if target.toList.head? = some '/' then [] else here

/-- Follows names from a directory. The last one, if it is a link, is followed unless the aim is the
entry itself. Nothing can be opened under a name that asks for a directory. -/
def walk (t : FileTree) (aim : Aim) (links : Nat) (here : Place) (names : List String) :
    Except FileError Spot :=
  match names with
  | [] => .ok (.taken here)
  | name :: rest =>
    if !t.admits here name then .error .denied
    else if stays name then walk t aim links here rest
    else if name = ".." then walk t aim links here.dropLast rest
    else if aim = .opening ∧ rest = [""] then .error .isDirectory
    else if name.utf8ByteSize > maxName then .error .nameTooLong
    else
      let place := here ++ [name]
      match t.node? place with
      | none => if rest = [] then .ok (.free place) else .error .notFound
      | some .directory => walk t aim links place rest
      | some (.file _ _) => if rest = [] then .ok (.taken place) else .error .notDirectory
      | some (.link target) =>
        if rest = [] ∧ aim = .entry then .ok (.taken place)
        else
          match links with
          | 0 => .error .tooManyLinks
          | links + 1 => walk t aim links (startOf target here) (steps target ++ rest)
termination_by (links, names.length)

def find (t : FileTree) (cwd : Place) (path : String) (aim : Aim) : Except FileError Spot :=
  if path.toList.contains '\x00' then .error .badName
  else if path = "" then .error .notFound
  else if path.utf8ByteSize ≥ maxPath then .error .nameTooLong
  else t.walk aim maxLinks (startOf path cwd) (steps path)

def stat (t : FileTree) (cwd : Place) (path : String) : Except FileError (Place × FileNode) := do
  match ← t.find cwd path .target with
  | .free _ => throw .notFound
  | .taken place =>
    match t.node? place with
    | some n => return (place, n)
    | none => throw .notFound

def isAbsence : FileError → Bool
  | .notFound | .notDirectory | .tooManyLinks | .badName => true
  | _ => false

def exists? (t : FileTree) (cwd : Place) (path : String) : Except FileError Bool :=
  match t.stat cwd path with
  | .ok _ => .ok true
  | .error e => if isAbsence e then .ok false else .error e

def isDirectory? (t : FileTree) (cwd : Place) (path : String) : Except FileError Bool :=
  match t.stat cwd path with
  | .ok (_, n) => .ok n.isDirectory
  | .error e => if isAbsence e then .ok false else .error e

def isProgram (t : FileTree) (cwd : Place) (path : String) : Bool :=
  match t.stat cwd path with
  | .ok (_, .file _ executable) => executable
  | _ => false

def read (t : FileTree) (cwd : Place) (path : String) : Except FileError ByteArray := do
  match ← t.stat cwd path with
  | (_, .file content _) => return content
  | _ => throw .isDirectory

/-- Writes a file, a new one if the name is free, and keeps whether it may be run. -/
def write (t : FileTree) (cwd : Place) (path : String) (content : ByteArray) :
    Except FileError FileTree := do
  match ← t.find cwd path .opening with
  | .free place => return t.put place (.file content false)
  | .taken place =>
    match t.node? place with
    | some (.file _ executable) => return t.put place (.file content executable)
    | _ => throw .isDirectory

/-- Opens a file for adding to it, which makes it if the name is free. -/
def touch (t : FileTree) (cwd : Place) (path : String) : Except FileError FileTree := do
  match ← t.find cwd path .opening with
  | .free place => return t.put place (.file .empty false)
  | .taken place =>
    match t.node? place with
    | some (.file _ _) => return t
    | _ => throw .isDirectory

def makeDirectory (t : FileTree) (cwd : Place) (path : String) : Except FileError FileTree := do
  match ← t.find cwd path .entry with
  | .free place => return t.put place .directory
  | .taken _ => throw .taken

/-- Makes a directory and, from the outermost on, those above it that are missing. What is in the
way is the failure, together with its path; what was made before it stays. -/
def makeDirectories (cwd : Place) (root : Root) :
    List String → FileTree → FileTree × Option (FileError × String)
  | reversed, t =>
    let path := Path.toText ⟨root, reversed.reverse⟩
    let accept (t : FileTree) (e : FileError) : Option (FileError × String) :=
      match e, t.isDirectory? cwd path with
      | .badName, _ | _, .ok false => some (e, path)
      | _, .ok true => none
      | _, .error e => some (e, path)
    match t.makeDirectory cwd path, reversed with
    | .ok t, _ => (t, none)
    | .error .notFound, _ :: above =>
      match makeDirectories cwd root above t with
      | (t, some failure) => (t, some failure)
      | (t, none) =>
        match t.makeDirectory cwd path with
        | .ok t => (t, none)
        | .error .notFound => (t, some (.notFound, path))
        | .error e => (t, accept t e)
    | .error .notFound, [] => (t, some (.notFound, path))
    | .error e, _ => (t, accept t e)

/-- The target of the link at a place. In a closed directory no link is seen. -/
def link? (t : FileTree) (place : Place) : Option String :=
  if place.dropLast ∈ t.closed then none else (t.node? place).bind FileNode.target?

def outside (t : FileTree) (places : List Place) : List (Place × FileNode) :=
  t.nodes.filter fun (place, _) => place ∉ places

theorem mem_of_link? {t : FileTree} {place : Place} {target : String}
    (h : t.link? place = some target) : ∃ n, (place, n) ∈ t.nodes := by
  unfold link? at h
  split at h
  · cases h
  obtain ⟨n, hn, ht⟩ := Option.bind_eq_some_iff.1 h
  unfold node? at hn
  split at hn
  · cases hn
    cases ht
  · obtain ⟨before, after, heq, -⟩ := List.lookup_eq_some_iff.1 hn
    exact ⟨n, heq ▸ List.mem_append_right before List.mem_cons_self⟩

theorem length_outside_cons {t : FileTree} {places : List Place} {place : Place} {target : String}
    (h : t.link? place = some target) (hp : place ∉ places) :
    (t.outside (place :: places)).length < (t.outside places).length := by
  have hsub : t.outside (place :: places) =
      (t.outside places).filter fun (other, _) => other ≠ place := by
    simp [outside, List.filter_filter, not_or]
  obtain ⟨n, hn⟩ := mem_of_link? h
  have hmem : (place, n) ∈ t.outside places := List.mem_filter.2 ⟨hn, by simpa using hp⟩
  rw [hsub]
  exact List.length_filter_lt_length_iff_exists.2 ⟨_, hmem, by simp⟩

/-- The place that names lead to when every link is followed, whatever is missing on the way. Links
are `pending` while their targets are followed. At one that is pending already the names run in a
circle: the failure is the names from the root on, as they are left there. -/
def resolve (t : FileTree) (pending : List Place) (here : Place) (names : List String) :
    Except (List String) Place :=
  match names with
  | [] => .ok here
  | name :: rest =>
    if stays name then resolve t pending here rest
    else if name = ".." then resolve t pending here.dropLast rest
    else
      let place := here ++ [name]
      match _hlink : t.link? place with
      | none => resolve t pending place rest
      | some target =>
        if place ∈ pending then .error (place ++ rest)
        else
          match resolve t (place :: pending) (startOf target here) (steps target) with
          | .ok place => resolve t pending place rest
          | .error names => .error (names ++ rest)
termination_by ((t.outside pending).length, names.length)
decreasing_by
  · exact Prod.Lex.right _ (Nat.lt_succ_self _)
  · exact Prod.Lex.right _ (Nat.lt_succ_self _)
  · exact Prod.Lex.right _ (Nat.lt_succ_self _)
  · exact Prod.Lex.left _ _ (length_outside_cons _hlink ‹_›)
  · exact Prod.Lex.right _ (Nat.lt_succ_self _)

/-- The place of a path without links. Names that run in a circle are taken as they are, and there is
no such place if the circle still stands in the way then. -/
def canonical? (t : FileTree) (cwd : Place) (path : String) : Option Place :=
  match t.resolve [] (startOf path cwd) (steps path) with
  | .ok place => some place
  | .error names =>
    let place := Path.lexicalNames (names.filter fun name => !stays name)
    match t.find [] (Path.toText ⟨.one, place⟩) .target with
    | .error .tooManyLinks => none
    | _ => some place

end FileTree

def Path.ofPlace (place : Place) : Path := ⟨.one, place⟩

namespace FileError

def system : FileError → Nat × String
  | notFound => (2, "No such file or directory")
  | denied => (13, "Permission denied")
  | taken => (17, "File exists")
  | notDirectory => (20, "Not a directory")
  | isDirectory => (21, "Is a directory")
  | nameTooLong => (36, "File name too long")
  | tooManyLinks => (40, "Too many levels of symbolic links")
  | badName => (22, "Invalid argument")

def message (e : FileError) (path : String) : String :=
  match e with
  | badName => "embedded null byte"
  | _ => "[Errno " ++ toString e.system.1 ++ "] " ++ e.system.2 ++ ": " ++ Text.literal path

end FileError
end ShellHistory
