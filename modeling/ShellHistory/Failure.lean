import ShellHistory.Config.File

/-! What can go wrong in a shell with its history attached, each cause once, and its wording. -/

namespace ShellHistory

inductive Failure
  /-- The user broke off what was running. -/
  | interrupted
  /-- A program could not be launched, or a file could not be used. -/
  | file (e : FileError) (path : String)
  | encoding
  /-- The name of a variable holds a `=`. -/
  | variableName
  | words (e : Words.Error)
  | shape (e : Config.Error)
  | load (e : Config.FileFailure)
  /-- A step through the history that is neither one back nor one forward. -/
  | direction (n : Int)
  | unknownShell (name : Option String)
  | unknownEvent (name : String)
  | missingSelector
  /-- A status that looks like a number and is none. -/
  | number (e : Text.NumberError) (s : String)
  /-- A setting that has to be text where it is used. -/
  | notText (kind : String)
  | notReadable (kind : String)
  /-- A number that is to be written has too many digits. -/
  | longNumber
  /-- A path that is given as bytes. -/
  | bytesPath
  | optionPart (index : Nat) (kind : String)
  /-- A key for looking something up that cannot be one. -/
  | notKey (kind : String)
  | homeless
  | linkCircle (path : String)
  /-- A level of the log that names something else. -/
  | levelText (text : String)
  | levelKind
  /-- The failure of an observing hook. -/
  | observer
  /-- A hook that was given the wrong number of arguments. -/
  | arity
  deriving DecidableEq, Repr

namespace Failure

def message : Failure → String
  | interrupted => ""
  | file e path => e.message path
  | encoding => "malformed text"
  | variableName => "illegal environment variable name"
  | words e => e.message
  | shape e => e.message
  | load e => e.message
  | direction n => "Invalid direction: " ++ toString n
  | unknownShell name => "Unsupported shell: " ++ name.getD "None"
  | unknownEvent name => Text.literal name ++ " is not a valid HookEvent"
  | missingSelector => "fzf is required! see https://github.com/junegunn/fzf"
  | number e s => e.message s
  | notText kind => "expected str, bytes or os.PathLike object, not " ++ kind
  | notReadable kind => "'" ++ kind ++ "' object has no attribute 'read'"
  | longNumber => Text.unwritableMessage
  | bytesPath =>
    "argument should be a str object or an os.PathLike object returning str, not <class 'bytes'>"
  | optionPart index kind =>
    "sequence item " ++ toString index ++ ": expected str instance, " ++ kind ++ " found"
  | notKey kind => "unhashable type: '" ++ kind ++ "'"
  | homeless => "Could not determine home directory."
  | linkCircle path => "Symlink loop from " ++ Text.literal path
  | levelText text => "Unknown level: " ++ Text.literal text
  | levelKind => "Level not an integer or a valid string"
  | observer => "boom"
  | arity => "wrong number of arguments"

end Failure
end ShellHistory
