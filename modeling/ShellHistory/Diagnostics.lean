import ShellHistory.Host

/-! The log of the integration: how much is logged, and to which files. Nothing of it ever goes to
the terminal. A file is opened once; it is the same file if its path leads to the same place. -/

namespace ShellHistory.Diagnostics

/-- Characters whose capital form is plain letters, though they are not plain letters themselves. -/
def specialCapitals : List (Char × String) :=
  [('ß', "SS"), ('ı', "I"), ('ſ', "S"), ('ﬀ', "FF"), ('ﬁ', "FI"), ('ﬂ', "FL"), ('ﬃ', "FFI"),
   ('ﬄ', "FFL"), ('ﬅ', "ST"), ('ﬆ', "ST")]

def capitals (s : String) : String :=
  String.ofList (s.toList.flatMap fun c =>
    match specialCapitals.lookup c with
    | some t => t.toList
    | none => [c.toUpper])

def levels : List (String × Nat) :=
  [("CRITICAL", 50), ("FATAL", 50), ("ERROR", 40), ("WARN", 30), ("WARNING", 30), ("INFO", 20),
   ("DEBUG", 10), ("NOTSET", 0)]

/-- The least level that is logged: the named one, or warnings if there is no such name. Two names
are taken for something else and refused. -/
def thresholdOf (level : Value) : Except Failure Nat :=
  if level.hasLongNumber then .error .longNumber
  else match capitals level.toText with
    | "BASIC_FORMAT" => .error (.levelText "%(levelname)s:%(name)s:%(message)s")
    | "_STYLES" => .error .levelKind
    | name => .ok ((levels.lookup name).getD Level.warning.number)

/-- Opens the file of the log. One that cannot be opened is left out. -/
def openFile (path : Path) : Act Host Unit := do
  match ← Host.makeDirectories path.parent with
  | some (.badName, p) => throw (.file .badName p)
  | some _ => return
  | none =>
    let h ← get
    let full := Path.lexical (Path.ofPlace h.cwd) path
    match h.files.touch h.cwd full.toText with
    | .error .badName => throw (.file .badName full.toText)
    | .error _ => return
    | .ok files => set { h with files, logFiles := h.logFiles ++ [full] }

def isOpen (h : Host) (path : Path) : Except Failure Bool := do
  if h.logFiles.isEmpty then return false
  if path.toText.toList.contains '\x00' then throw (.file .badName path.toText)
  match h.files.canonical? h.cwd path.toText with
  | none => throw (.linkCircle path.toText)
  | some place => return h.logFiles.contains (Path.ofPlace place)

def addFile (name : String) : Act Host Unit := do
  let h ← get
  let path := Path.ofString name
  if Tilde.isUnnamablePath path then throw (.file .badName path.toText)
  match Tilde.expandPath? h.login h.accounts path with
  | none => throw .homeless
  | some path =>
    if !(← ofExcept (isOpen h path)) then openFile path

/-- A text that the system cannot be told is refused where its `NUL` would be. -/
def untold {α : Type} (act : Act Host α) : Act Host α := fun h =>
  match act h with
  | .error (.file .badName _) h => .error .encoding h
  | x => x

def setUp (c : Config) : Act Host Unit := do
  let threshold ← ofExcept (thresholdOf c.logLevel)
  modify fun h => { h with threshold }
  match c.logFile with
  | .text name => if name ≠ "" then addFile name
  | .unpaired t => if t.isTold then addFile t.spelled else untold (addFile t.spelled)
  | .bytes content => if content ≠ [] then throw .bytesPath
  | v => if v.isSet then throw (.notText v.kind)

end ShellHistory.Diagnostics
