import ShellHistory.Config
import ShellHistory.FileTree
import ShellHistory.Json
import ShellHistory.Tilde
import ShellHistory.Yaml.Document

/-! The file of the configuration: where it is, how it is read, and what a new one holds. Its name
tells whether it is YAML or JSON. -/

namespace ShellHistory.Config

inductive FileFailure
  | file (e : FileError) (path : String)
  | encoding
  | format (suffix : String)
  | yaml (e : Yaml.Document.Error)
  | json (e : Json.Error)
  | shape (e : Error)
  | words (e : Words.Error)
  | homeless
  deriving DecidableEq, Repr

/-- The failure in words. What is wrong with the text of a document is not spelled out. -/
def FileFailure.message : FileFailure → String
  | file e path => e.message path
  | encoding => "malformed text"
  | format suffix => "Unsupported config format: " ++ suffix
  | yaml .malformed => "malformed document"
  | yaml (.noCharacter code) =>
    if code < Nat.pow 2 31 then "chr() arg not in range(0x110000)"
    else "Python int too large to convert to C int"
  | yaml (.scalar e) => e.message
  | yaml .momentOfMapping => "expected string or bytes-like object, got 'list'"
  | json .malformed => "malformed document"
  | json (.tooLong digits) => Text.tooLongMessage digits
  | shape e => e.message
  | words e => e.message
  | homeless => "Could not determine home directory."

/-- Whether a program that cannot load its configuration says so and ends. Other failures go on as
they are. -/
def FileFailure.isReported : FileFailure → Bool
  | yaml (.noCharacter code) => code < Nat.pow 2 31
  | yaml (.scalar .noDigits) | yaml (.scalar (.bool _)) | yaml (.scalar .moment) => false
  | yaml (.scalar .tooLarge) | yaml .momentOfMapping => false
  | homeless => false
  | _ => true

/-- The failure as a program reports it: what is wrong with the text of a document, or with
a number in it, is left out. -/
def FileFailure.report : FileFailure → String
  | encoding | yaml _ | json _ | shape .longNumber => "<parser message>"
  | e => e.message

def readDocument (suffix : String) (text : String) : Except FileFailure Value :=
  if suffix = ".yaml" ∨ suffix = ".yml" then (Yaml.Document.read text).mapError .yaml
  else if suffix = ".json" then (Json.read text).mapError .json
  else .error (.format suffix)

/-- The configuration in a file. A file that is missing and a document that is empty give the
defaults. -/
def ofFile (files : FileTree) (cwd : Place) (path : Path) : Except FileFailure Config := do
  let name := path.toText
  let present ← (files.exists? cwd name).mapError (.file · name)
  if !present then return default
  let bytes ← (files.read cwd name).mapError (.file · name)
  let some text := String.fromUTF8? bytes | throw .encoding
  let document ← readDocument path.suffix (Text.unifiedBreaks text)
  (ofValue (if document.isSet then document else .map [])).mapError .shape

/-- Where the file is: named by a variable, or in the place for configuration. -/
def defaultPath (login : Environment) (accounts : Accounts) (e : Environment) :
    Except FileFailure Path := do
  if let some path := e.filled? "VELLUM_SHELL_CONFIG" then
    return Path.ofString path
  let base ← match e.filled? "XDG_CONFIG_HOME" with
    | some base => pure (Path.ofString base)
    | none =>
      match Tilde.ownHome? login accounts with
      | some home => pure (home.child ".config")
      | none => throw .homeless
  return (base.child "vellum").child "shell.yaml"

/-- The configuration in effect: the file's, with what the environment overrides. -/
def load (files : FileTree) (cwd : Place) (login : Environment) (accounts : Accounts)
    (path : Option String) (e : Environment) : Except FileFailure Config := do
  let path ← match path.filter (· ≠ "") with
    | some path => pure (Path.ofString path)
    | none => defaultPath login accounts e
  let c ← ofFile files cwd path
  (c.withEnvironment e).mapError .words

def template : String :=
  "# vellum shell integration configuration\n\n" ++
  "backend:\n  binary: \"vellum\"\n\n" ++
  "selector:\n  command: \"fzf\"\n  options: \"\"\n  height: \"40%\"\n\n" ++
  "history:\n  args: []\n  session_only: false\n\n" ++
  "move:\n  args: []\n\n" ++
  "editor: null\n\n" ++
  "logging:\n  level: \"WARNING\"\n  file: null\n"

end ShellHistory.Config
