import ShellHistory.Text.Digit

/-! What a program accepts on its command line: options, which start with a dash, and arguments,
which are told apart by their order. -/

namespace ShellHistory.Options

inductive Choice
  | any
  | oneOf (texts : List String)
  | oneOfWhole (numbers : List Int)
  deriving DecidableEq, Repr

def invalidChoice (shown : String) (choices : List String) : String :=
  "invalid choice: " ++ shown ++ " (choose from " ++ String.intercalate ", " choices ++ ")"

def Choice.complaint? (s : String) : Choice → Option String
  | any => none
  | oneOf texts =>
    if s ∈ texts then none else some (invalidChoice (Text.literal s) (texts.map Text.literal))
  | oneOfWhole numbers =>
    match Text.readInt s with
    | .error _ => some ("invalid int value: " ++ Text.literal s)
    | .ok n =>
      if n ∈ numbers then none else some (invalidChoice (toString n) (numbers.map toString))

inductive Use
  /-- Takes one value. -/
  | value (choice : Choice)
  /-- Counts by being there. -/
  | mark
  | help
  | version (text : String)
  deriving DecidableEq, Repr

structure Flag where
  names : List String
  key : String
  use : Use
  required : Bool
  deriving DecidableEq, Repr

def Flag.takesValue (f : Flag) : Bool :=
  match f.use with
  | .value _ => true
  | _ => false

inductive Arity
  | one
  | atMostOne
  /-- One text and all that follows, options too. -/
  | command
  deriving DecidableEq, Repr

structure Positional where
  key : String
  arity : Arity
  choice : Choice
  deriving DecidableEq, Repr

structure Grammar where
  program : String
  usage : String
  /-- What the help says behind the usage. -/
  details : String
  flags : List Flag
  positionals : List Positional
  deriving DecidableEq, Repr

inductive Stop
  /-- It was asked for a text, which is shown. -/
  | shown (text : String)
  /-- It cannot make sense of its command line, and says so. -/
  | refused (text : String)
  deriving DecidableEq, Repr

namespace Grammar

def help (g : Grammar) : String := g.usage ++ "\n" ++ g.details

def refuse (g : Grammar) (message : String) : Stop :=
  .refused (g.usage ++ g.program ++ ": error: " ++ message ++ "\n")

def refuseFlag (g : Grammar) (f : Flag) (message : String) : Stop :=
  g.refuse ("argument " ++ String.intercalate "/" f.names ++ ": " ++ message)

def refusePositional (g : Grammar) (p : Positional) (message : String) : Stop :=
  g.refuse ("argument " ++ p.key ++ ": " ++ message)

/-- Every option with each of its names, in the order of the grammar. -/
def named (g : Grammar) : List (String × Flag) :=
  g.flags.flatMap fun f => f.names.map (·, f)

def flag? (g : Grammar) (name : String) : Option Flag := g.named.lookup name

def needed (g : Grammar) : List (String × String) :=
  (g.flags.filter Flag.required).map (fun f => (String.intercalate "/" f.names, f.key)) ++
  (g.positionals.filter (·.arity = .one)).map fun p => (p.key, p.key)

end Grammar
end ShellHistory.Options
