import ShellHistory.Options.Grammar
import ShellHistory.Text.Cut

/-! Reading a command line by a grammar. Options may stand anywhere before `--`, long ones may be
shortened as long as one name fits, and their values may be joined on. What nothing takes is left
over; it is up to the caller whether that is a mistake. -/

namespace ShellHistory.Options

/-- An option as it was written: by which name, and with which value joined on. -/
structure Written where
  flag : Flag
  name : String
  joined : Option String
  deriving DecidableEq, Repr

inductive Token
  | argument (s : String)
  /-- The mark that all that follows are arguments. -/
  | dashes
  /-- An option, if the grammar has it. -/
  | option (s : String) (written : Option Written)
  deriving DecidableEq, Repr

namespace Token

def text : Token → String
  | argument s | option s _ => s
  | dashes => "--"

def isOption : Token → Bool
  | option _ _ => true
  | _ => false

def isNegativeNumber (s : List Char) : Bool :=
  let isDigit := fun c => (Text.decimal? c).isSome
  match s with
  | '-' :: rest =>
    let rest := Text.dropBreak rest
    match rest.dropWhile isDigit with
    | [] => !rest.isEmpty
    | '.' :: fraction => !fraction.isEmpty && fraction.all isDigit
    | _ => false
  | _ => false

/-- The options that a text may stand for, if it has none of their names. -/
def candidates (g : Grammar) (s : List Char) : List Written :=
  match s with
  | '-' :: '-' :: _ =>
    let (start, joined) := match Text.cut? '=' s with
      | some (start, joined) => (start, some (String.ofList joined))
      | none => (s, none)
    g.named.filterMap fun (name, flag) =>
      if start.isPrefixOf name.toList then some ⟨flag, name, joined⟩ else none
  | _ =>
    g.named.filterMap fun (name, flag) =>
      if name.toList = s.take 2 then some ⟨flag, name, some (String.ofList (s.drop 2))⟩
      else if s.isPrefixOf name.toList then some ⟨flag, name, none⟩
      else none

/-- The option that a text names, alone or with its value after a `=`. -/
def written? (g : Grammar) (s : List Char) : Option Written :=
  match g.flag? (String.ofList s) with
  | some flag => some ⟨flag, String.ofList s, none⟩
  | none => do
    let (name, joined) ← Text.cut? '=' s
    let flag ← g.flag? (String.ofList name)
    return ⟨flag, String.ofList name, some (String.ofList joined)⟩

def ofText (g : Grammar) (text : String) : Except Stop Token :=
  match text.toList with
  | '-' :: c :: rest =>
    let s := '-' :: c :: rest
    match written? g s with
    | some w => .ok (.option text (some w))
    | none =>
      match candidates g s with
      | [w] => .ok (.option text (some w))
      | [] =>
        if isNegativeNumber s || s.contains ' ' then .ok (.argument text)
        else .ok (.option text none)
      | ws =>
        .error (g.refuse ("ambiguous option: " ++ text ++ " could match " ++
          String.intercalate ", " (ws.map Written.name)))
  | _ => .ok (.argument text)

def ofTexts (g : Grammar) : List String → Except Stop (List Token)
  | [] => .ok []
  | text :: rest =>
    if text = "--" then .ok (.dashes :: rest.map .argument)
    else do
      let t ← ofText g text
      return t :: (← ofTexts g rest)

end Token

/-- What a command line says: values by key, the latest first, a command with its own command line,
and what nothing has taken. A value that was written as `--` is none. -/
structure Reading where
  values : List (String × Option String)
  command : Option (String × List String)
  extras : List String
  deriving DecidableEq, Repr

namespace Reading

def empty : Reading := ⟨[], none, []⟩

def put (key : String) (value : Option String) (r : Reading) : Reading :=
  { r with values := (key, value) :: r.values }

def leave (extras : List String) (r : Reading) : Reading :=
  { r with extras := r.extras ++ extras }

def value? (r : Reading) (key : String) : Option (Option String) := r.values.lookup key

def valueOr (r : Reading) (key fallback : String) : Option String :=
  (r.value? key).getD (some fallback)

def has (r : Reading) (key : String) : Bool := (r.value? key).isSome

end Reading

namespace Grammar

/-- The value among the texts of an option or an argument, once the first `--` is taken out. -/
def valueOf (texts : List String) (choice : Choice) : Except String (Option String) :=
  match (texts.erase "--").head? with
  | none => .ok none
  | some s =>
    match choice.complaint? s with
    | none => .ok (some s)
    | some complaint => .error complaint

/-- The options that are written in one text, with the texts of their values, and what is left.
Short options that take no value may be followed by more of them. -/
def cluster (g : Grammar) (f : Flag) (name : String) (joined : Option (List Char))
    (rest : List Token) : Except Stop (List (Flag × List String) × List Token) :=
  match joined with
  | none =>
    if f.takesValue then
      match rest with
      | .argument s :: rest => .ok ([(f, [s])], rest)
      | _ => .error (g.refuseFlag f "expected one argument")
    else .ok ([(f, [])], rest)
  | some joined =>
    let ignored :=
      g.refuseFlag f ("ignored explicit argument " ++ Text.literal (String.ofList joined))
    if f.takesValue then .ok ([(f, [String.ofList joined])], rest)
    else if name.toList.drop 1 |>.head?.all (· = '-') then .error ignored
    else
      match joined with
      | [] => .error ignored
      | c :: more =>
        let next := String.ofList ['-', c]
        match g.flag? next with
        | none => .error ignored
        | some f' => do
          let (fs, rest) ← cluster g f' next (if more = [] then none else some more) rest
          return ((f, []) :: fs, rest)
termination_by joined.elim 0 (·.length + 1)
decreasing_by
  split <;> simp

def apply (g : Grammar) (r : Reading) (f : Flag) (texts : List String) : Except Stop Reading :=
  match f.use with
  | .help => .error (.shown g.help)
  | .version text => .error (.shown (text ++ "\n"))
  | .mark => .ok (r.put f.key (some ""))
  | .value choice =>
    match valueOf texts choice with
    | .ok v => .ok (r.put f.key v)
    | .error complaint => .error (g.refuseFlag f complaint)

/-- The texts at the front that an argument takes, and what is left. A `--` beside it is taken
along. -/
def span? (arity : Arity) (tokens : List Token) : Option (List String × List Token) :=
  let (opening, tokens) := match tokens with
    | .dashes :: rest => (["--"], rest)
    | _ => ([], tokens)
  match arity, tokens with
  | .command, .argument s :: rest => some (opening ++ s :: rest.map Token.text, [])
  | .command, _ => none
  | _, .argument s :: .dashes :: rest => some (opening ++ [s, "--"], rest)
  | _, .argument s :: rest => some (opening ++ [s], rest)
  | .one, _ => none
  | .atMostOne, rest => some (opening, rest)

def accept (g : Grammar) (r : Reading) (p : Positional) (texts : List String) :
    Except Stop Reading :=
  match p.arity, texts with
  | .command, s :: rest =>
    match p.choice.complaint? s with
    | none => .ok { r.put p.key (some s) with command := some (s, rest) }
    | some complaint => .error (g.refusePositional p complaint)
  | .atMostOne, texts =>
    if texts.erase "--" = [] then .ok r
    else
      match valueOf texts p.choice with
      | .ok v => .ok (r.put p.key v)
      | .error complaint => .error (g.refusePositional p complaint)
  | _, texts =>
    match valueOf texts p.choice with
    | .ok v => .ok (r.put p.key v)
    | .error complaint => .error (g.refusePositional p complaint)

/-- Takes as many arguments as fit at the front. Returns those still to come, and what is left. -/
def readPositionals (g : Grammar) (r : Reading) (tokens : List Token) :
    List Positional → Except Stop (Reading × List Positional × List Token)
  | [] => .ok (r, [], tokens)
  | p :: ps =>
    match span? p.arity tokens with
    | none => .ok (r, p :: ps, tokens)
    | some (texts, rest) => do
      let r ← g.accept r p texts
      readPositionals g r rest ps

/-- Reads on, option by option, and the arguments between them. Every step takes a token. -/
def readFrom (g : Grammar) : Nat → Reading → List Positional → List Token → Except Stop Reading
  | 0, r, _, tokens => .ok (r.leave (tokens.map Token.text))
  | fuel + 1, r, ps, tokens =>
    if !tokens.any Token.isOption then do
      let (r, _, rest) ← g.readPositionals r tokens ps
      return r.leave (rest.map Token.text)
    else
      match tokens with
      | .option s none :: rest => readFrom g fuel (r.leave [s]) ps rest
      | .option _ (some w) :: rest => do
        let (uses, rest) ← g.cluster w.flag w.name (w.joined.map String.toList) rest
        let r ← uses.foldlM (fun r (f, texts) => g.apply r f texts) r
        readFrom g fuel r ps rest
      | tokens => do
        let (r, ps, rest) ← g.readPositionals r tokens ps
        if rest.length < tokens.length then readFrom g fuel r ps rest
        else
          let (skipped, rest) := tokens.span (!·.isOption)
          readFrom g fuel (r.leave (skipped.map Token.text)) ps rest

def read (g : Grammar) (texts : List String) : Except Stop Reading := do
  let tokens ← Token.ofTexts g texts
  let r ← g.readFrom (tokens.length + 1) .empty g.positionals tokens
  match g.needed.filter fun (_, key) => !r.has key with
  | [] => return r
  | missing =>
    throw (g.refuse ("the following arguments are required: " ++
      String.intercalate ", " (missing.map Prod.fst)))

def refuseExtras (g : Grammar) (extras : List String) : Stop :=
  g.refuse ("unrecognized arguments: " ++ String.intercalate " " extras)

end Grammar
end ShellHistory.Options
